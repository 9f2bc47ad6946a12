import ExchangeDesk.Proofs.Store

/-!
# Conditions and refusals

What an action asks for is a list of conditions, in the order in which it looks
at them. `Heeds`: the action gives a value if all of them are met, and otherwise
fails with the error of the first one that is not. Later conditions may be about
a value that an earlier one has found (`whenFound`).
-/

namespace ExchangeDesk

open ExchangeDesk.Action

structure Condition where
  met : Bool
  error : DeskError
  deriving DecidableEq, Repr

def AllMet (conditions : List Condition) : Prop := ∀ c ∈ conditions, c.met = true

/-- The error is that of the first condition that is not met. -/
def Refuses (conditions : List Condition) (e : DeskError) : Prop :=
  ∃ c, conditions.find? (!·.met) = some c ∧ c.error = e

/-- A value has to be there, and it has conditions of its own. -/
def whenFound {α : Type} (found : Option α) (error : DeskError) (next : α → List Condition) :
    List Condition :=
  ⟨found.isSome, error⟩ :: found.elim [] next

section

variable {α : Type} {c : Condition} {cs ds : List Condition} {d e : DeskError} {found : Option α}
  {next : α → List Condition}

@[simp] theorem allMet_nil : AllMet [] := by simp [AllMet]

@[simp] theorem allMet_cons : AllMet (c :: cs) ↔ c.met = true ∧ AllMet cs := by simp [AllMet]

@[simp] theorem allMet_append : AllMet (cs ++ ds) ↔ AllMet cs ∧ AllMet ds := by
  simp only [AllMet, List.forall_mem_append]

@[simp] theorem allMet_flatMap {l : List α} :
    AllMet (l.flatMap next) ↔ ∀ a ∈ l, AllMet (next a) := by
  simp only [AllMet, List.forall_mem_flatMap]

@[simp] theorem allMet_whenFound :
    AllMet (whenFound found d next) ↔ ∃ a, found = some a ∧ AllMet (next a) := by
  cases found with
  | none => simp [whenFound]
  | some a => simp [whenFound]

namespace Refuses

theorem here (h : c.met = false) : Refuses (c :: cs) c.error := ⟨c, by simp [h], rfl⟩

theorem later (hc : c.met = true) (h : Refuses cs e) : Refuses (c :: cs) e := by
  obtain ⟨c', hfind, rfl⟩ := h
  exact ⟨c', by simpa [hc] using hfind, rfl⟩

theorem left (h : Refuses cs e) : Refuses (cs ++ ds) e := by
  obtain ⟨c, hfind, rfl⟩ := h
  exact ⟨c, by simp [List.find?_append, hfind], rfl⟩

theorem right (hmet : AllMet cs) (h : Refuses ds e) : Refuses (cs ++ ds) e := by
  induction cs with
  | nil => exact h
  | cons c cs ih =>
    obtain ⟨hc, hcs⟩ := allMet_cons.mp hmet
    exact .later hc (ih hcs)

theorem unique (h : Refuses cs d) (h' : Refuses cs e) : d = e := by
  obtain ⟨c, hc, rfl⟩ := h
  obtain ⟨c', hc', rfl⟩ := h'
  rw [Option.some.inj (hc.symm.trans hc')]

theorem not_allMet (h : Refuses cs e) : ¬ AllMet cs := by
  obtain ⟨c, hc, -⟩ := h
  intro hmet
  simpa [hmet c (List.mem_of_find?_eq_some hc)] using List.find?_some hc

end Refuses
end

-- ---------------------------------------------------------------------------
-- Actions that heed conditions
-- ---------------------------------------------------------------------------

/-- The action gives a value and a session as `Q` says if all conditions are met,
and otherwise the error of the first that is not. -/
def Heeds {α : Type} (x : Action DeskError α) (env : Environment) (s : Session)
    (conditions : List Condition) (Q : α → Session → Prop) : Prop :=
  Triple x env s (fun a s' => AllMet conditions ∧ Q a s') (fun e _ => Refuses conditions e)

namespace Heeds

variable {α β : Type} {x : Action DeskError α} {f : α → Action DeskError β} {env : Environment}
  {s : Session} {cs ds : List Condition} {met : Bool} {e : DeskError} {found : Option α}
  {next : α → List Condition} {P Q : α → Session → Prop} {R : β → Session → Prop}
  {D : DeskError → Session → Prop}

theorem and (h : Heeds x env s cs Q) (h' : Triple x env s P D) :
    Heeds x env s cs fun a s' => Q a s' ∧ P a s' :=
  Triple.mono (Triple.and h h') (fun _ _ ha => ⟨ha.1.1, ha.1.2, ha.2⟩) fun _ _ he => he.1

theorem of_sure (h : Triple x env s Q fun _ _ => False) : Heeds x env s [] Q :=
  Triple.mono h (fun _ _ ha => ⟨allMet_nil, ha⟩) fun _ _ he => he.elim

theorem bind (hx : Heeds x env s cs Q) (hf : ∀ a s', Q a s' → Heeds (f a) env s' ds R) :
    Heeds (x >>= f) env s (cs ++ ds) R := by
  refine Triple.seq hx (fun _ _ he => he.left) ?_
  rintro a s' ⟨hmet, ha⟩
  exact Triple.mono (hf a s' ha) (fun _ _ hb => ⟨allMet_append.mpr ⟨hmet, hb.1⟩, hb.2⟩)
    fun _ _ he => he.right hmet

theorem after (hx : Triple x env s Q fun _ _ => False)
    (hf : ∀ a s', Q a s' → Heeds (f a) env s' cs R) : Heeds (x >>= f) env s cs R :=
  bind (of_sure hx) hf

theorem known (hmet : met = true) (h : Heeds x env s cs Q) : Heeds x env s (⟨met, e⟩ :: cs) Q :=
  Triple.mono h (fun _ _ ha => ⟨allMet_cons.mpr ⟨hmet, ha.1⟩, ha.2⟩) fun _ _ he => he.later hmet

theorem check (hx : Triple x env s (fun a s' => met = true ∧ Q a s')
      (fun e' _ => met = false ∧ e' = e))
    (hf : ∀ a s', met = true → Q a s' → Heeds (f a) env s' cs R) :
    Heeds (x >>= f) env s (⟨met, e⟩ :: cs) R := by
  refine Triple.seq hx ?_ ?_
  · rintro _ _ ⟨hmet, rfl⟩
    exact Refuses.here hmet
  · rintro a s' ⟨hmet, ha⟩
    exact known hmet (hf a s' hmet ha)

theorem present (hx : Triple x env s (fun a s' => found = some a ∧ Q a s')
      (fun e' _ => found = none ∧ e' = e))
    (hf : ∀ a s', found = some a → Q a s' → Heeds (f a) env s' cs R) :
    Heeds (x >>= f) env s (⟨found.isSome, e⟩ :: cs) R := by
  refine check (Q := fun a s' => found = some a ∧ Q a s') (Triple.mono hx ?_ ?_) ?_
  · rintro a s' ⟨rfl, ha⟩
    exact ⟨rfl, rfl, ha⟩
  · rintro _ _ ⟨rfl, rfl⟩
    exact ⟨rfl, rfl⟩
  · rintro a s' - ⟨hfound, ha⟩
    exact hf a s' hfound ha

theorem demand (hx : Triple x env s (fun a s' => found = some a ∧ Q a s')
      (fun e' _ => found = none ∧ e' = e))
    (hf : ∀ a s', found = some a → Q a s' → Heeds (f a) env s' (next a) R) :
    Heeds (x >>= f) env s (whenFound found e next) R := by
  refine present hx ?_
  rintro a s' rfl ha
  exact hf a s' rfl ha

theorem demandFor {γ : Type} {found : Option γ} {next : γ → List Condition}
    {Q : γ → α → Session → Prop}
    (hx : Triple x env s (fun a s' => ∃ c, found = some c ∧ Q c a s')
      (fun e' _ => found = none ∧ e' = e))
    (hf : ∀ c a s', found = some c → Q c a s' → Heeds (f a) env s' (next c) R) :
    Heeds (x >>= f) env s (whenFound found e next) R := by
  refine check (Q := fun a s' => ∃ c, found = some c ∧ Q c a s') (Triple.mono hx ?_ ?_) ?_
  · rintro a s' ⟨c, rfl, ha⟩
    exact ⟨rfl, c, rfl, ha⟩
  · rintro _ _ ⟨rfl, rfl⟩
    exact ⟨rfl, rfl⟩
  · rintro a s' - ⟨c, rfl, ha⟩
    exact hf c a s' rfl ha

theorem onError {handler : DeskError → Action DeskError Unit} (h : Heeds x env s cs Q) :
    Heeds (onError x handler) env s cs Q :=
  Triple.onError h fun _ _ he => he

-- ---------------------------------------------------------------------------
-- The answer
-- ---------------------------------------------------------------------------

theorem answer_ok (h : Heeds x env s cs Q) : (∃ a, (x env s).1 = .ok a) ↔ AllMet cs := by
  rcases hx : x env s with ⟨e | a, s'⟩
  · have hrefuses := h.error hx
    simpa using hrefuses.not_allMet
  · simpa using (h.ok hx).1

theorem answer_error (h : Heeds x env s cs Q) : (x env s).1 = .error e ↔ Refuses cs e := by
  rcases hx : x env s with ⟨d | a, s'⟩
  · have hrefuses : Refuses cs d := h.error hx
    constructor
    · rintro ⟨⟩
      exact hrefuses
    · intro he
      rw [hrefuses.unique he]
  · have hmet := (h.ok hx).1
    constructor
    · rintro ⟨⟩
    · intro he
      exact absurd hmet he.not_allMet

end Heeds
end ExchangeDesk
