import ExchangeDesk.Proofs.Corrections

/-!
# Corrections of different fields

Two corrections are apart if no field is in both, and their union asks for all that one of them
asks for. Making one after the other comes to the same as making their union at once
(`Exchange.apply_union`): the same record, and the two lists of changes merged in the order of the
fields. The converse fails, since a pair of currencies is checked after each of two steps but only
once for the union.
-/

namespace ExchangeDesk

-- ---------------------------------------------------------------------------
-- One field
-- ---------------------------------------------------------------------------

section

variable {α β : Type} {old : α} {a b : Option α}

theorem or_comm_of_apart (h : a = none ∨ b = none) : a.or b = b.or a := by
  obtain rfl | rfl := h <;> simp

theorem or_bind_of_apart (f : α → Option β) (h : a = none ∨ b = none) :
    (a.or b).bind f = (a.bind f).or (b.bind f) := by
  obtain rfl | rfl := h <;> simp

theorem bind_apart (f : α → Option β) (h : a = none ∨ b = none) :
    a.bind f = none ∨ b.bind f = none :=
  h.imp (by rintro rfl; rfl) (by rintro rfl; rfl)

theorem forall_mem_or {P : α → Prop} (ha : ∀ value ∈ a, P value) (hb : ∀ value ∈ b, P value) :
    ∀ value ∈ a.or b, P value := by
  intro value hvalue
  obtain h | ⟨-, h⟩ := Option.or_eq_some_iff.mp hvalue
  · exact ha value h
  · exact hb value h

variable [BEq α]

theorem differing_apart (h : a = none ∨ b = none) :
    differing old a = none ∨ differing (valueAfter old a) b = none :=
  h.imp (by rintro rfl; rfl) (by rintro rfl; rfl)

theorem valueAfter_or (h : a = none ∨ b = none) :
    valueAfter old (a.or b) = valueAfter (valueAfter old a) b := by
  obtain rfl | rfl := h
  · rfl
  · rw [Option.or_none]
    rfl

theorem differing_or (h : a = none ∨ b = none) :
    differing old (a.or b) = (differing old a).or (differing (valueAfter old a) b) := by
  obtain rfl | rfl := h
  · rfl
  · rw [Option.or_none]
    exact Option.or_none.symm

end

-- ---------------------------------------------------------------------------
-- Apartness and union
-- ---------------------------------------------------------------------------

namespace ExchangeChanges

/-- No field is in both corrections. -/
structure Apart (first second : ExchangeChanges) : Prop where
  rate : first.rate = none ∨ second.rate = none
  currencyFrom : first.currencyFrom = none ∨ second.currencyFrom = none
  currencyTo : first.currencyTo = none ∨ second.currencyTo = none
  clientId : first.clientId = none ∨ second.clientId = none
  clientName : first.clientName = none ∨ second.clientName = none
  date : first.date = none ∨ second.date = none
  amountGiven : first.amountGiven = none ∨ second.amountGiven = none
  amountTaken : first.amountTaken = none ∨ second.amountTaken = none

instance : Union ExchangeChanges where
  union first second :=
    { rate := first.rate.or second.rate
      currencyFrom := first.currencyFrom.or second.currencyFrom
      currencyTo := first.currencyTo.or second.currencyTo
      clientId := first.clientId.or second.clientId
      clientName := first.clientName.or second.clientName
      date := first.date.or second.date
      amountGiven := first.amountGiven.or second.amountGiven
      amountTaken := first.amountTaken.or second.amountTaken }

variable {first second : ExchangeChanges}

theorem Apart.symm (h : first.Apart second) : second.Apart first where
  rate := h.rate.symm
  currencyFrom := h.currencyFrom.symm
  currencyTo := h.currencyTo.symm
  clientId := h.clientId.symm
  clientName := h.clientName.symm
  date := h.date.symm
  amountGiven := h.amountGiven.symm
  amountTaken := h.amountTaken.symm

theorem Apart.union_comm (h : first.Apart second) : first ∪ second = second ∪ first := by
  simp only [Union.union, or_comm_of_apart h.rate, or_comm_of_apart h.currencyFrom,
    or_comm_of_apart h.currencyTo, or_comm_of_apart h.clientId, or_comm_of_apart h.clientName,
    or_comm_of_apart h.date, or_comm_of_apart h.amountGiven, or_comm_of_apart h.amountTaken]

theorem Apart.normal (h : first.Apart second) : first.normal.Apart second.normal :=
  { h with
    currencyFrom := bind_apart _ h.currencyFrom
    currencyTo := bind_apart _ h.currencyTo }

theorem Apart.normal_union (h : first.Apart second) :
    (first ∪ second).normal = first.normal ∪ second.normal := by
  simp only [ExchangeChanges.normal, Union.union, or_bind_of_apart _ h.currencyFrom,
    or_bind_of_apart _ h.currencyTo]

theorem Valid.union (h : first.Valid) (h' : second.Valid) : (first ∪ second).Valid where
  currencyFrom := forall_mem_or h.currencyFrom h'.currencyFrom
  currencyTo := forall_mem_or h.currencyTo h'.currencyTo
  clientId text hasked := (Option.or_eq_some_iff.mp hasked).elim (h.clientId text)
    fun hsecond => h'.clientId text hsecond.2
  clientName text hasked := (Option.or_eq_some_iff.mp hasked).elim (h.clientName text)
    fun hsecond => h'.clientName text hsecond.2
  amountGiven := forall_mem_or h.amountGiven h'.amountGiven
  amountTaken := forall_mem_or h.amountTaken h'.amountTaken

end ExchangeChanges

-- ---------------------------------------------------------------------------
-- The order of the fields
-- ---------------------------------------------------------------------------

def ExchangeChange.place : ExchangeChange → Nat
  | .rate _ => 0
  | .currencyFrom _ => 1
  | .currencyTo _ => 2
  | .clientId _ => 3
  | .clientName _ => 4
  | .date _ => 5
  | .amountGiven _ => 6
  | .amountTaken _ => 7

namespace Exchange

variable {e : Exchange} {first second : ExchangeChanges}

theorem differences_sorted (old new : Exchange) :
    (old.differences new).Pairwise (·.place < ·.place) := by
  have hvalues : new.values.Pairwise (·.place < ·.place) := by
    rw [← List.pairwise_map (f := ExchangeChange.place)]
    exact List.pairwise_lt_range (n := 8)
  exact hvalues.filter _

theorem patched_union (h : first.Apart second) :
    e.patched (first ∪ second) = (e.patched first).patched second := by
  simp only [patched, Union.union, valueAfter_or h.rate, valueAfter_or h.currencyFrom,
    valueAfter_or h.currencyTo, valueAfter_or h.clientId, valueAfter_or h.clientName,
    valueAfter_or h.date, valueAfter_or h.amountGiven, valueAfter_or h.amountTaken]

theorem requested_union (h : first.Apart second) : e.requested (first ∪ second) =
    List.zipWith Option.or (e.requested first) ((e.patched first).requested second) := by
  simp only [requested, patched, Union.union, differing_or h.rate, differing_or h.currencyFrom,
    differing_or h.currencyTo, differing_or h.clientId, differing_or h.clientName,
    differing_or h.date, differing_or h.amountGiven, differing_or h.amountTaken, Option.map_or,
    List.zipWith_cons_cons, List.zipWith_nil_left]

theorem requested_apart (h : first.Apart second) : List.Forall₂ (fun x y => x = none ∨ y = none)
    (e.requested first) ((e.patched first).requested second) := by
  simp only [requested, patched, List.forall₂_cons, List.Forall₂.nil, and_true,
    Option.map_eq_none_iff]
  exact ⟨differing_apart h.rate, differing_apart h.currencyFrom, differing_apart h.currencyTo,
    differing_apart h.clientId, differing_apart h.clientName, differing_apart h.date,
    differing_apart h.amountGiven, differing_apart h.amountTaken⟩

theorem differences_union (h : first.Apart second) :
    e.differences (e.patched (first ∪ second)) =
      (e.differences (e.patched first)).merge
        ((e.patched first).differences (e.patched (first ∪ second))) (·.place ≤ ·.place) := by
  refine eq_merge_of_perm ?_ (differences_sorted _ _) (differences_sorted _ _)
    (differences_sorted _ _)
  have hslots := flatMap_zipWith_or (requested_apart (e := e) h)
  rw [← requested_union h, requested_differences, requested_differences, requested_differences,
    ← patched_union h] at hslots
  exact hslots

theorem apply_apply (h : first.Apart second) {middle next : Exchange}
    {applied applied' : List ExchangeChange} (hfirst : e.apply first = .ok (middle, applied))
    (hsecond : middle.apply second = .ok (next, applied')) :
    e.apply (first ∪ second) = .ok (next, applied.merge applied' (·.place ≤ ·.place)) := by
  obtain ⟨hvalid, rfl, rfl, -⟩ := apply_iff.mp hfirst
  obtain ⟨hvalid', rfl, rfl, hdiffer⟩ := apply_iff.mp hsecond
  refine apply_iff.mpr ⟨hvalid.union hvalid', ?_, ?_, hdiffer⟩
  · rw [h.normal_union, patched_union h.normal]
  · rw [← patched_union h.normal, differences_union h.normal]

/-- Two corrections of different fields (`Apart`) that succeed one after the other succeed at once,
with the same record and the two lists of changes merged in the order of the fields. The opposite
order gives the same where it succeeds. -/
theorem apply_union (e : Exchange) {first second : ExchangeChanges} (hapart : first.Apart second)
    {middle next : Exchange} {applied applied' : List ExchangeChange}
    (hfirst : e.apply first = .ok (middle, applied))
    (hsecond : middle.apply second = .ok (next, applied')) :
    e.apply (first ∪ second) = .ok (next, applied.merge applied' (·.place ≤ ·.place)) ∧
    ∀ middle' back next' back', e.apply second = .ok (middle', back) →
      middle'.apply first = .ok (next', back') →
      next' = next ∧ back.merge back' (·.place ≤ ·.place) =
        applied.merge applied' (·.place ≤ ·.place) := by
  have hunion := apply_apply hapart hfirst hsecond
  refine ⟨hunion, fun middle' back next' back' hback hback' => ?_⟩
  have hopposite := apply_apply hapart.symm hback hback'
  rw [hapart.symm.union_comm, hunion] at hopposite
  simp only [Except.ok.injEq, Prod.mk.injEq] at hopposite
  exact ⟨hopposite.1.symm, hopposite.2.symm⟩

def toEuros : ExchangeChanges :=
  { currencyTo := some ⟨" eur"⟩, amountTaken := some (.ofUInt32 2) }

def fromKenya : ExchangeChanges := { currencyFrom := some ⟨"KES"⟩, clientName := some none }

def kenyan : Exchange :=
  { takenDollars with
    currencyFrom := ⟨"KES"⟩, currencyTo := ⟨"EUR"⟩, client := ⟨none, none⟩
    amountTaken := .ofUInt32 2 }

theorem apply_union_kenyan : toEuros.Apart fromKenya ∧
    takenDollars.apply (toEuros ∪ fromKenya) = .ok (kenyan, [.currencyFrom ⟨"KES"⟩,
      .currencyTo ⟨"EUR"⟩, .clientName none, .amountTaken (.ofUInt32 2)]) ∧
    ∃ next' back', { takenDollars with
        currencyFrom := ⟨"KES"⟩, client := ⟨none, none⟩ }.apply toEuros = .ok (next', back') ∧
      next' = kenyan := by
  have hapart : toEuros.Apart fromKenya :=
    ⟨.inl rfl, .inl rfl, .inr rfl, .inl rfl, .inl rfl, .inl rfl, .inl rfl, .inr rfl⟩
  have hfirst : takenDollars.apply toEuros =
      .ok ({ takenDollars with currencyTo := ⟨"EUR"⟩, amountTaken := .ofUInt32 2 },
        [.currencyTo ⟨"EUR"⟩, .amountTaken (.ofUInt32 2)]) := by decide +kernel
  have hsecond : { takenDollars with currencyTo := ⟨"EUR"⟩, amountTaken := .ofUInt32 2 }.apply
      fromKenya = .ok (kenyan, [.currencyFrom ⟨"KES"⟩, .clientName none]) := by decide +kernel
  have hback : takenDollars.apply fromKenya =
      .ok ({ takenDollars with currencyFrom := ⟨"KES"⟩, client := ⟨none, none⟩ },
        [.currencyFrom ⟨"KES"⟩, .clientName none]) := by decide +kernel
  have hback' : { takenDollars with currencyFrom := ⟨"KES"⟩, client := ⟨none, none⟩ }.apply
      toEuros = .ok (kenyan, [.currencyTo ⟨"EUR"⟩, .amountTaken (.ofUInt32 2)]) := by
    decide +kernel
  obtain ⟨hunion, hopposite⟩ := apply_union takenDollars hapart hfirst hsecond
  refine ⟨hapart, ?_, _, _, hback', (hopposite _ _ _ _ hback hback').1⟩
  rw [hunion]
  simp [ExchangeChange.place]

/-- Two currencies can be swapped at once, but not one after the other. -/
example : (takenDollars.apply { currencyFrom := some ⟨"USD"⟩ }).isOk = false ∧
    (takenDollars.apply { currencyTo := some ⟨"UGX"⟩ }).isOk = false ∧
    (takenDollars.apply ({ currencyFrom := some ⟨"USD"⟩ } ∪
      { currencyTo := some ⟨"UGX"⟩ })).isOk = true := by
  decide +kernel

end Exchange
end ExchangeDesk
