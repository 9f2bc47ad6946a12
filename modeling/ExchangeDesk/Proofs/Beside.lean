import ExchangeDesk.Proofs.Lockstep

/-!
# A run beside another

Two sessions are beside each other if they differ at most in amounts, in correlation ids and in
their logs. A run beside another one succeeds wherever that one does (`Coupling.beside`). Nothing
is asked where the first run fails, so the second one may succeed there.
-/

namespace ExchangeDesk

open ExchangeDesk.Action

structure Session.Beside (s s' : Session) : Prop where
  setup : s.book.SameSetup s'.book
  rates : s'.book.rates = s.book.rates
  nextExchange : s'.book.nextExchange = s.book.nextExchange
  stored : s'.book.exchanges.map (·.id) = s.book.exchanges.map (·.id)
  staged : s'.staged.exchanges.map (·.id) = s.staged.exchanges.map (·.id)
  readings : s'.readings = s.readings
  calls : s'.calls = s.calls

theorem Session.Beside.refl (s : Session) : s.Beside s :=
  ⟨.refl s.book, rfl, rfl, rfl, rfl, rfl, rfl⟩

def Coupling.beside (env : Environment) : Coupling where
  left := env
  right := env
  Related := Session.Beside
  Lines _ _ := True
  errors := False
  faults := rfl
  rateScale := rfl
  atomicity := rfl
  setup := Session.Beside.setup
  calls := Session.Beside.calls
  called _ hs := { hs with calls := by rw [hs.calls] }
  line _ := trivial
  logged hs _ := { hs with }

variable {env : Environment}

theorem Book.clash?_ids {b b' : Book} {staged staged' : Staged}
    (hb : b'.exchanges.map (·.id) = b.exchanges.map (·.id))
    (hs : staged'.exchanges.map (·.id) = staged.exchanges.map (·.id)) :
    b'.clash? staged' = b.clash? staged := by
  have hfind (c : Book) (id : ExchangeId) :
      (c.findExchange id).isSome = (c.exchanges.map (·.id)).any (· = id) := by
    rw [Book.findExchange, List.isSome_find?, List.any_map]
    rfl
  simp only [clash?, hs, hfind, hb]

namespace Store

theorem begin_beside : (Coupling.beside env).Couples begin begin Eq :=
  reach_then_couples <| .of_total (fun _ => rfl) (fun _ => rfl) fun _ _ hs =>
    ⟨rfl, { hs with staged := rfl }⟩

theorem insertExchange_beside (exchange exchange' : NewExchange) :
    (Coupling.beside env).Couples (insertExchange exchange) (insertExchange exchange')
      fun stored stored' => ∃ id, stored = ⟨exchange, id⟩ ∧ stored' = ⟨exchange', id⟩ := by
  refine reach_then_couples <| .of_total (fun _ => rfl) (fun _ => rfl) fun s s' hs =>
    ⟨⟨_, rfl, ?_⟩, ?_⟩
  · rw [hs.nextExchange]
  · refine { hs with setup := ⟨hs.setup.1, hs.setup.2, hs.setup.3⟩
                     nextExchange := congrArg (· + 1) hs.nextExchange, staged := ?_ }
    rw [List.map_append, List.map_append, hs.staged, hs.nextExchange]
    rfl

theorem recordTransaction_beside (transaction transaction' : CashTransaction) :
    (Coupling.beside env).Couples (recordTransaction transaction) (recordTransaction transaction')
      Eq :=
  reach_then_couples <| .of_total (fun _ => rfl) (fun _ => rfl) fun _ _ hs => ⟨rfl, { hs with }⟩

theorem postEntry_beside (entry entry' : JournalEntry) :
    (Coupling.beside env).Couples (postEntry entry) (postEntry entry') Eq :=
  reach_then_couples <| .of_total (fun _ => rfl) (fun _ => rfl) fun _ _ hs => ⟨rfl, { hs with }⟩

theorem commit_beside : (Coupling.beside env).Couples commit commit Eq := by
  refine reach_then_couples fun s s' hs => ?_
  have hclash := Book.clash?_ids hs.stored hs.staged
  simp only [Book.commit_eq, hclash]
  cases s.book.clash? s.staged with
  | some id => exact .of_error rfl False.elim
  | none =>
    refine .of_ok rfl rfl rfl { hs with setup := ⟨hs.setup.1, hs.setup.2, hs.setup.3⟩
                                        stored := ?_, staged := rfl }
    simp only [Book.take, List.map_append, hs.stored, hs.staged]

end Store
end ExchangeDesk
