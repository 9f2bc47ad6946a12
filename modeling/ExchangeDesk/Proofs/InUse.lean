import ExchangeDesk.Proofs.SetupCalls
import ExchangeDesk.Proofs.StoredRates

/-!
# Books in use

A book is loaded, and from then on it is set up further and worked with, as it comes (`InUse`).
Neither undoes what the other relies on: a call adds to the setup and leaves the records as they
are, and an operation leaves the setup as it is. So the book is reachable, its rates pass their
check and its exchanges are sane, whatever happened before.
-/

namespace ExchangeDesk

/-- What a session can come to with a book that was loaded, where desks know no currencies but
those of the book. -/
inductive InUse : Session → Prop
  | loaded {s : Session} {snapshot : Snapshot} (h : Book.ofSnapshot snapshot = .ok s.book) : InUse s
  | setUp {s : Session} (call : SetupCall) (hs : InUse s) :
      InUse { s with book := call.after s.book }
  | worked {s : Session} (env : Environment) (op : Operation) (hown : env.registry = [])
      (hs : InUse s) : InUse (op.after env s)

theorem SetupCall.after_keeps (call : SetupCall) (b : Book) :
    (call.after b).rates = b.rates ∧ (call.after b).exchanges = b.exchanges ∧
      b.currencies ⊆ (call.after b).currencies := by
  rcases call.outcome b with ⟨-, -, hafter⟩ | ⟨-, -, -, hafter⟩
  · rw [hafter]
    cases call with
    | currency => exact ⟨rfl, rfl, List.subset_append_left ..⟩
    | cashier => exact ⟨rfl, rfl, List.Subset.refl _⟩
    | account => exact ⟨rfl, rfl, List.Subset.refl _⟩
  · rw [hafter]
    exact ⟨rfl, rfl, List.Subset.refl _⟩

namespace InUse

variable {s : Session}

theorem run (hs : InUse s) (tasks : List (Environment × Operation))
    (hown : ∀ task ∈ tasks, task.1.registry = []) : InUse (run tasks s) := by
  induction tasks generalizing s with
  | nil => exact hs
  | cons task rest ih =>
    obtain ⟨env, op⟩ := task
    obtain ⟨hfirst, hrest⟩ := List.forall_mem_cons.mp hown
    exact ih (hs.worked env op hfirst) hrest

theorem reachable (hs : InUse s) : Reachable s.book := by
  induction hs with
  | loaded h => exact .of_snapshot h
  | setUp call _ ih => exact call.reachable ih
  | worked env op _ _ ih => exact ih.effect (op.after_effect env _)

theorem rates_stable (hs : InUse s) : ∀ r ∈ s.book.rates, r.Stable := by
  induction hs with
  | loaded h => exact Book.ofSnapshot_stable h
  | @setUp s call _ ih =>
    obtain ⟨hrates, -, -⟩ := call.after_keeps s.book
    rwa [hrates]
  | worked env op _ _ ih => exact (op.after_effect env _).stable ih

theorem exchanges_sane (hs : InUse s) : ∀ e ∈ s.book.exchanges, e.Sane s.book := by
  induction hs with
  | loaded h => simp [(Book.ofSnapshot_unused h).1]
  | @setUp s call _ ih =>
    obtain ⟨hrates, hexchanges, hcurrencies⟩ := call.after_keeps s.book
    rw [hexchanges]
    intro e he
    exact (ih e he).of_book hcurrencies (hrates ▸ List.prefix_rfl)
  | worked env op hown hs ih => exact (op.after_effect env _).sane hs.reachable.sound hown ih

theorem rate_codes (hs : InUse s) : ∀ r ∈ s.book.rates,
    CurrencyCode.parse r.currency.text = .ok r.currency := by
  intro r hr
  exact CurrencyCode.parse_iff.mpr (NewRate.stable_iff.mp (hs.rates_stable r hr)).1

theorem exchange_codes (hs : InUse s) : ∀ e ∈ s.book.exchanges,
    CurrencyCode.parse e.currencyFrom.text = .ok e.currencyFrom ∧
      CurrencyCode.parse e.currencyTo.text = .ok e.currencyTo := by
  intro e he
  have hsane := hs.exchanges_sane e he
  obtain ⟨c, hc, hfrom⟩ := hsane.currencyFrom
  obtain ⟨d, hd, hto⟩ := hsane.currencyTo
  rw [← hfrom, ← hto]
  exact ⟨hs.reachable.codes_parse c hc, hs.reachable.codes_parse d hd⟩

end InUse
end ExchangeDesk
