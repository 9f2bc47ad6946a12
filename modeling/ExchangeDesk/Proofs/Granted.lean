import ExchangeDesk.Proofs.Discretion

/-!
# What it takes to succeed

An action that reads gives a value exactly if the calls it makes all pass and the book holds what it
asks for (`Grants`). It has then made these calls, and nothing else has happened. A write does the
same with its change on top (`call_ok`). So a longer action is read off its parts together with the
calls that it makes.
-/

namespace ExchangeDesk

open ExchangeDesk.Action

/-- The calls, made after the ones before, all get through to the book. -/
def Environment.Passes (env : Environment) (before : List StoreCall) : List StoreCall → Prop
  | [] => True
  | call :: rest =>
    env.faults call (before.count call) = none ∧ env.Passes (before ++ [call]) rest

def Session.called (s : Session) (calls : List StoreCall) : Session :=
  { s with calls := s.calls ++ calls }

section

variable {env : Environment} {s : Session}

theorem Environment.passes_append {before made later : List StoreCall} :
    env.Passes before (made ++ later) ↔
      env.Passes before made ∧ env.Passes (before ++ made) later := by
  induction made generalizing before with
  | nil => simp [Passes]
  | cons call rest ih => simp [Passes, ih, and_assoc]

@[simp] theorem Session.called_nil : s.called [] = s := by
  rw [called, List.append_nil]

@[simp] theorem Session.called_called {calls calls' : List StoreCall} :
    (s.called calls).called calls' = s.called (calls ++ calls') := by
  rw [called, called, called, List.append_assoc]

@[simp] theorem Session.called_calls {calls : List StoreCall} :
    (s.called calls).calls = s.calls ++ calls := rfl

@[simp] theorem Session.called_book {calls : List StoreCall} : (s.called calls).book = s.book := rfl

end

section

variable {ε α β : Type} {env : Environment} {s t : Session}

/-- The action gives just the values that `P` admits, and these exactly if the calls pass. Making
the calls is then all that it does. -/
def Grants (x : Action ε α) (env : Environment) (s : Session) (calls : List StoreCall)
    (P : α → Prop) : Prop :=
  ∀ a t, x env s = (.ok a, t) ↔ P a ∧ env.Passes s.calls calls ∧ t = s.called calls

namespace Grants

variable {x : Action ε α} {f : α → Action ε β} {calls calls' : List StoreCall} {P Q : α → Prop}

theorem pure (a : α) : Grants (Pure.pure a : Action ε α) env s [] (· = a) := by
  intro b t
  show (Except.ok a, s) = (.ok b, t) ↔ _
  simp [Environment.Passes, eq_comm]

theorem orFail {e : ε} {o : Option α} : Grants (orFail e o) env s [] (o = some ·) := by
  intro b t
  cases o with
  | none =>
    show (Except.error e, s) = (.ok b, t) ↔ _
    simp
  | some a =>
    show (Except.ok a, s) = (.ok b, t) ↔ _
    simp [Environment.Passes, eq_comm]

theorem ofExcept {o : Except ε α} : Grants (ofExcept o) env s [] (o = .ok ·) := by
  intro b t
  show (o, s) = (.ok b, t) ↔ _
  simp [Environment.Passes, eq_comm]

theorem mono (h : Grants x env s calls P) (hpq : ∀ a, P a ↔ Q a) : Grants x env s calls Q := by
  intro a t
  rw [← hpq]
  exact h a t

theorem run_bind_ok {b : β} (hx : Grants x env s calls P) : (x >>= f) env s = (.ok b, t) ↔
    env.Passes s.calls calls ∧ ∃ a, P a ∧ f a env (s.called calls) = (.ok b, t) := by
  rw [Action.run_bind_ok]
  constructor
  · rintro ⟨a, s', hrun, hrest⟩
    obtain ⟨ha, hcalls, rfl⟩ := (hx a s').mp hrun
    exact ⟨hcalls, a, ha, hrest⟩
  · rintro ⟨hcalls, a, ha, hrest⟩
    exact ⟨a, _, (hx a _).mpr ⟨ha, hcalls, rfl⟩, hrest⟩

theorem bind {R : α → β → Prop} (hx : Grants x env s calls P)
    (hf : ∀ a, P a → Grants (f a) env (s.called calls) calls' (R a)) :
    Grants (x >>= f) env s (calls ++ calls') fun b => ∃ a, P a ∧ R a b := by
  intro b t
  rw [hx.run_bind_ok, Environment.passes_append, ← Session.called_called]
  constructor
  · rintro ⟨hcalls, a, ha, hrest⟩
    obtain ⟨hb, hcalls', ht⟩ := (hf a ha b t).mp hrest
    exact ⟨⟨a, ha, hb⟩, ⟨hcalls, hcalls'⟩, ht⟩
  · rintro ⟨⟨a, ha, hb⟩, ⟨hcalls, hcalls'⟩, ht⟩
    exact ⟨hcalls, a, ha, (hf a ha b t).mpr ⟨hb, hcalls', ht⟩⟩

end Grants

theorem call_ok (call : StoreCall) {x : Action StoreError α} {a b : α} {t' : Session}
    (hx : x env (s.called [call]) = (.ok a, t')) :
    concealing call.resource (do Store.reach call; x) env s = (.ok b, t) ↔
      b = a ∧ env.Passes s.calls [call] ∧ t = t' := by
  cases hfault : env.faults call (s.calls.count call) with
  | none =>
    rw [Discreet.call_passed hfault hx]
    simp [Environment.Passes, hfault, eq_comm]
  | some cause =>
    rw [Discreet.call_failed hfault]
    simp [Environment.Passes, hfault]

theorem call_bind_ok (call : StoreCall) {x : Action StoreError α} {f : α → Action DeskError β}
    {a : α} {b : β} {t' : Session} (hx : x env (s.called [call]) = (.ok a, t')) :
    (concealing call.resource (do Store.reach call; x) >>= f) env s = (.ok b, t) ↔
      env.Passes s.calls [call] ∧ f a env t' = (.ok b, t) := by
  simp only [run_bind_ok, call_ok call hx]
  constructor
  · rintro ⟨_, _, ⟨rfl, hcall, rfl⟩, hrest⟩
    exact ⟨hcall, hrest⟩
  · rintro ⟨hcall, hrest⟩
    exact ⟨a, t', ⟨rfl, hcall, rfl⟩, hrest⟩

theorem replace_bind_ok (call : StoreCall) {g : Book → Except StoreError Book}
    {f : Unit → Action DeskError β} {b : Book} {answer : β} (h : g s.book = .ok b) :
    (concealing call.resource (do Store.reach call; setBook (← ofExcept (g (← book)))) >>= f)
      env s = (.ok answer, t) ↔
      env.Passes s.calls [call] ∧
        f () env { s.called [call] with book := b } = (.ok answer, t) := by
  refine call_bind_ok call ?_
  rw [Store.replace_run, Session.called_book, h]

theorem Grants.call (call : StoreCall) {x : Action StoreError α} {a : α}
    (hx : x env (s.called [call]) = (.ok a, s.called [call])) :
    Grants (concealing call.resource (do Store.reach call; x)) env s [call] (· = a) :=
  fun _ _ => call_ok call hx

theorem Grants.demand (call : StoreCall) {x : Action StoreError (Option α)} {o : Option α}
    {e : DeskError} (hx : x env (s.called [call]) = (.ok o, s.called [call])) :
    Grants (do Action.orFail e (← concealing call.resource (do Store.reach call; x))) env s [call]
      (o = some ·) := by
  show Grants _ env s ([call] ++ []) _
  refine Grants.mono (Grants.bind (Grants.call call hx) fun found _ => Grants.orFail) fun a => ?_
  simp

theorem Grants.required {x : Action ε α} {calls : List StoreCall} {o : Option α}
    (hx : Grants x env s calls (o = some ·)) :
    Grants (do let _ ← x; return ()) env s calls fun _ => ∃ a, o = some a := by
  rw [← List.append_nil calls]
  exact Grants.mono (Grants.bind hx fun _ _ => Grants.pure ()) (by simp)

end

namespace Desk

variable {env : Environment} {s : Session}

-- ---------------------------------------------------------------------------
-- Lookups
-- ---------------------------------------------------------------------------

theorem retrieveExchange_grants (id : ExchangeId) : Grants (retrieveExchange id) env s
    [.findExchange] (s.book.findExchange id = some ·) :=
  Grants.demand .findExchange rfl

theorem retrieveRate_grants (id : RateId) : Grants (retrieveRate id) env s [.findRate]
    (s.book.findRate id = some ·) :=
  Grants.demand .findRate rfl

theorem requireCurrency_grants (code : CurrencyCode) : Grants (requireCurrency code) env s
    [.findCurrency] (knownCurrency env s.book code = some ·) :=
  Grants.demand .findCurrency rfl

end Desk
end ExchangeDesk
