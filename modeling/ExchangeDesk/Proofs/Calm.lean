import ExchangeDesk.Proofs.Conditions

/-!
# A store that answers every call

In a calm environment every call reaches the book. What reads the book then gives
a value, so an action can only fail over a value that the book does not hold
(`demand`) or over records that it does not take.
-/

namespace ExchangeDesk

open ExchangeDesk.Action

/-- The environment fails no call. -/
def Environment.Calm (env : Environment) : Prop := ∀ call n, env.faults call n = none

def Sure {ε α : Type} (x : Action ε α) (env : Environment) (s : Session) : Prop :=
  Triple x env s (fun _ _ => True) fun _ _ => False

theorem Sure.triple {ε α : Type} {x : Action ε α} {env : Environment} {s : Session}
    {Q : α → Session → Prop} {E : ε → Session → Prop} (hx : Sure x env s) (h : Triple x env s Q E) :
    Triple x env s Q fun _ _ => False :=
  Triple.mono (Triple.and hx h) (fun _ _ ha => ha.2) fun _ _ he => he.1

theorem Sure.bind {ε α β : Type} {x : Action ε α} {f : α → Action ε β} {env : Environment}
    {s : Session} (hx : Sure x env s) (hf : ∀ a s', Sure (f a) env s') : Sure (x >>= f) env s :=
  Triple.bind hx fun a s' _ => hf a s'

section

variable {α : Type} {x : Action StoreError α} {env : Environment} {s : Session}
  {resource : Resource} {P : α → Prop}

theorem Sure.concealing {Q : α → Session → Prop} {E : StoreError → Session → Prop}
    (hx : Sure x env s) (h : Triple x env s Q E) :
    Triple (concealing resource x) env s Q fun _ _ => False :=
  Triple.concealing (hx.triple h) fun _ _ he => he

theorem Sure.concealed (hx : Sure x env s) : Sure (Action.concealing resource x) env s :=
  hx.concealing hx

theorem Reads.sure (h : Reads x env s P) (hx : Sure x env s) :
    Triple (Action.concealing resource x) env s (fun a s' => P a ∧ s.Agrees s') fun _ _ => False :=
  hx.concealing h

theorem Reads.demand {x : Action StoreError (Option α)} {e : DeskError} {found : Option α}
    (h : Reads x env s (· = found)) (hx : Sure x env s) :
    Triple (do Action.orFail e (← Action.concealing resource x)) env s
      (fun a s' => found = some a ∧ s.Agrees s') (fun e' _ => found = none ∧ e' = e) := by
  refine Triple.seq (h.sure hx) (fun _ _ he => he.elim) ?_
  rintro _ s' ⟨rfl, hs⟩
  exact Triple.orFail (fun a ha => ⟨ha, hs⟩) fun hnone => ⟨hnone, rfl⟩

end

namespace Store

variable {env : Environment} {s : Session}

theorem reach_sure (h : env.Calm) (call : StoreCall) : Sure (reach call) env s := by
  simp only [Sure, Triple, reach, h call]

theorem reach_then_sure {α : Type} {call : StoreCall} {x : Action StoreError α} (h : env.Calm)
    (hx : ∀ s', s.Agrees s' → Sure x env s') : Sure (do reach call; x) env s := by
  refine Triple.bind ((reach_sure h call).triple (reach_reads call)) ?_
  rintro _ s' ⟨-, hs⟩
  exact hx s' hs

theorem reach_faults (call : StoreCall) : Triple (reach call) env s (fun _ s' => s.Agrees s')
    (fun _ _ => env.faults call (s.calls.count call) ≠ none) := by
  refine Triple.mono (Triple.and (P := fun _ _ => True)
    (D := fun _ _ => env.faults call (s.calls.count call) ≠ none) ?_ (reach_reads call))
    (fun _ _ h => h.2.2) fun _ _ h => h.1
  simp only [Triple, reach]
  cases env.faults call (s.calls.count call) with
  | none => trivial
  | some e => exact Option.some_ne_none e

theorem reach_then_faults {α : Type} {call : StoreCall} {x : Action StoreError α}
    (hx : ∀ s', s.Agrees s' → Sure x env s') : Triple (do reach call; x) env s (fun _ _ => True)
      (fun _ _ => env.faults call (s.calls.count call) ≠ none) :=
  Triple.bind (reach_faults call) fun _ s' hs =>
    Triple.mono (hx s' hs) (fun _ _ h => h) fun _ _ h => h.elim

theorem reach_then_answered {α : Type} {call : StoreCall} {x : Action StoreError α}
    (hfault : env.faults call (s.calls.count call) = none)
    (hx : ∀ s', s.Agrees s' → Sure x env s') : Sure (do reach call; x) env s :=
  Triple.mono (reach_then_faults hx) (fun _ _ h => h) fun _ _ h => h hfault

theorem homeCurrencies_faults : Triple homeCurrencies env s (fun _ _ => True)
    (fun _ _ => env.faults .homeCurrencies (s.calls.count .homeCurrencies) ≠ none) :=
  reach_then_faults fun _ _ => trivial

theorem findRateAsOf_sure (h : env.Calm) (currency : CurrencyCode) (type : RateType) (date : Date) :
    Sure (findRateAsOf currency type date) env s :=
  reach_then_sure h fun _ _ => trivial

theorem findCurrency_sure (h : env.Calm) (code : CurrencyCode) : Sure (findCurrency code) env s :=
  reach_then_sure h fun _ _ => trivial

theorem homeCurrencies_sure (h : env.Calm) : Sure homeCurrencies env s :=
  reach_then_sure h fun _ _ => trivial

theorem findCashier_sure (h : env.Calm) (staff : StaffId) : Sure (findCashier staff) env s :=
  reach_then_sure h fun _ _ => trivial

theorem findAccount_sure (h : env.Calm) (activity : Activity) (currency : CurrencyCode) :
    Sure (findAccount activity currency) env s :=
  reach_then_sure h fun _ _ => trivial

theorem begin_sure (h : env.Calm) : Sure begin env s :=
  reach_then_sure h fun _ _ => trivial

theorem insertExchange_sure (h : env.Calm) (exchange : NewExchange) :
    Sure (insertExchange exchange) env s :=
  reach_then_sure h fun _ _ => trivial

theorem recordTransaction_sure (h : env.Calm) (transaction : CashTransaction) :
    Sure (recordTransaction transaction) env s :=
  reach_then_sure h fun _ _ => trivial

theorem postEntry_sure (h : env.Calm) (entry : JournalEntry) : Sure (postEntry entry) env s :=
  reach_then_sure h fun _ _ => trivial

/-- The book takes what is staged if it holds none of the numbers. -/
theorem commit_faults {b : Book} (hcommit : s.book.commit s.staged = .ok b) :
    Triple commit env s (fun _ _ => True)
      (fun _ _ => env.faults .commit (s.calls.count .commit) ≠ none) := by
  refine reach_then_faults fun s' hs => ?_
  simp only [Sure, Triple, hs.book, hs.staged, hcommit]

theorem commit_sure {b : Book} (h : env.Calm) (hcommit : s.book.commit s.staged = .ok b) :
    Sure commit env s :=
  Triple.mono (commit_faults hcommit) (fun _ _ h => h) fun _ _ hfault => hfault (h _ _)

end Store
end ExchangeDesk
