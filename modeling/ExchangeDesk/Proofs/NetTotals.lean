import ExchangeDesk.Proofs.Ledger
import ExchangeDesk.Proofs.Lists
import ExchangeDesk.Proofs.Precision

/-!
# Net totals

Totals list each currency once, at the place where it first appeared (`Totals.sum_currencies`). A
balanced movement adds a debit and a credit that cancel, whatever digits they carry, and both to
one sum. So sums that are all zero remain so after any number of balanced movements, and none
overflows on the way (`Totals.sum_movements`). What is posted for a leg is balanced, and its
totals are zero in every currency (`postings_cancel`).
-/

namespace ExchangeDesk

-- ---------------------------------------------------------------------------
-- Numbers that cancel
-- ---------------------------------------------------------------------------

namespace Decimal

variable {a b d : Decimal}

theorem mantissa_of_value (h : d.value = 0) : d.mantissa = 0 := by
  have habs := abs_value d
  rw [h, abs_zero, eq_comm, div_eq_zero_iff] at habs
  rcases habs with hmantissa | hpow
  · exact_mod_cast hmantissa
  · exact absurd hpow (by positivity)

theorem add_of_zero (h : a.value = 0) : a.add b = some b := by
  rw [add, if_pos (mantissa_of_value h)]

theorem fit_nothing {negative : Bool} {scale : Nat} (h : scale ≤ maxScale) :
    fit negative 0 scale = some ⟨negative, 0, scale, by decide, h⟩ := by
  have hexcess : excessDigits 0 = 0 := by rw [excessDigits, if_pos (by decide)]
  simp [fit, hexcess, Nat.sub_eq_zero_of_le h, ofParts?, h]

theorem add_opposite (h : a.value + b.value = 0) : ∃ sum, a.add b = some sum ∧ sum.value = 0 := by
  by_cases ha : a.mantissa = 0
  · refine ⟨b, by rw [add, if_pos ha], ?_⟩
    rwa [value_of_mantissa ha, zero_add] at h
  by_cases hb : b.mantissa = 0
  · refine ⟨a, by rw [add, if_neg ha, if_pos hb], ?_⟩
    rwa [value_of_mantissa hb, add_zero] at h
  have hscale : max a.scale b.scale ≤ maxScale := max_le a.scale_le b.scale_le
  have hsum : a.signed * tenTo (max a.scale b.scale - a.scale) +
      b.signed * tenTo (max a.scale b.scale - b.scale) = 0 := by
    have hvalues : (a.value + b.value) * 10 ^ max a.scale b.scale = 0 := by rw [h, zero_mul]
    rw [add_mul, value_mul (Nat.le_max_left ..), value_mul (Nat.le_max_right ..)] at hvalues
    exact_mod_cast hvalues
  refine ⟨⟨false, 0, _, by decide, hscale⟩, ?_, value_of_mantissa rfl⟩
  rw [add, if_neg ha, if_neg hb]
  simp only [hsum]
  exact fit_nothing hscale

end Decimal

-- ---------------------------------------------------------------------------
-- Sums by currency
-- ---------------------------------------------------------------------------

def Totals.sum? (totals : Totals) (entries : List JournalEntry) : Option Totals :=
  entries.foldlM (fun totals e => Totals.add e.currency e.signedAmount totals) totals

def Totals.currencies (totals : Totals) : List CurrencyCode := totals.map (·.1)

def Totals.AllZero (totals : Totals) : Prop := ∀ t ∈ totals, t.2.value = 0

namespace Totals

variable {totals totals' : Totals} {currency : CurrencyCode} {amount amount' : Decimal}
  {entries done : List JournalEntry} {m : CashMovement}

@[simp] theorem currencies_cons {t : CurrencyCode × Decimal} :
    currencies (t :: totals) = t.1 :: totals.currencies := rfl

theorem add_currencies (h : totals.add currency amount = some totals') :
    totals'.currencies =
      if currency ∈ totals.currencies then totals.currencies
      else totals.currencies ++ [currency] := by
  induction totals generalizing totals' with
  | nil =>
    cases h
    rfl
  | cons t rest ih =>
    obtain ⟨c, sum⟩ := t
    rw [Totals.add] at h
    split at h
    · next hc =>
      obtain ⟨_, -, rfl⟩ := Option.map_eq_some_iff.mp h
      simp [hc]
    · next hc =>
      obtain ⟨rest', hrest, rfl⟩ := Option.map_eq_some_iff.mp h
      simp only [currencies_cons, List.mem_cons, Ne.symm hc, false_or, ih hrest]
      split <;> rfl

theorem sum_append {entries' : List JournalEntry} : totals.sum? (entries ++ entries') =
    (totals.sum? entries).bind (·.sum? entries') :=
  List.foldlM_append

theorem sum_currencies (hdone : totals.currencies = (done.map (·.currency)).eraseDups)
    (h : totals.sum? entries = some totals') :
    totals'.currencies = ((done ++ entries).map (·.currency)).eraseDups := by
  induction entries generalizing totals done with
  | nil =>
    cases h
    rw [List.append_nil, hdone]
  | cons e entries ih =>
    rw [sum?, List.foldlM_cons] at h
    obtain ⟨next, hnext, hrest⟩ := Option.bind_eq_some_iff.mp h
    rw [List.append_cons]
    refine ih ?_ hrest
    rw [add_currencies hnext, hdone, List.map_append, List.map_singleton, eraseDups_concat]
    simp

theorem allZero_nil : AllZero [] := by simp [AllZero]

theorem add_opposite (currency : CurrencyCode) (h : totals.AllZero)
    (hsum : amount.value + amount'.value = 0) :
    ∃ next, totals.add currency amount = some next ∧
      ∃ totals', next.add currency amount' = some totals' ∧ totals'.AllZero := by
  induction totals with
  | nil =>
    obtain ⟨sum, hadd, hzero⟩ := Decimal.add_opposite hsum
    refine ⟨_, rfl, [(currency, sum)], by simp [Totals.add, hadd], ?_⟩
    simpa [AllZero] using hzero
  | cons t rest ih =>
    obtain ⟨c, sum⟩ := t
    obtain ⟨hfirst, hrest⟩ := List.forall_mem_cons.mp h
    by_cases hc : c = currency
    · obtain ⟨sum', hadd, hzero⟩ := Decimal.add_opposite hsum
      refine ⟨(c, amount) :: rest, ?_, (c, sum') :: rest, ?_, ?_⟩
      · simp [Totals.add, hc, Decimal.add_of_zero hfirst]
      · simp [Totals.add, hc, hadd]
      · exact List.forall_mem_cons.mpr ⟨hzero, hrest⟩
    · obtain ⟨next, hnext, totals', htotals, hzero⟩ := ih hrest
      refine ⟨(c, sum) :: next, ?_, (c, sum) :: totals', ?_, ?_⟩
      · simp [Totals.add, hc, hnext]
      · simp [Totals.add, hc, htotals]
      · exact List.forall_mem_cons.mpr ⟨hfirst, hzero⟩

theorem sum_movement (hm : m.isBalanced = true) (h : totals.AllZero) :
    ∃ totals', totals.sum? [m.debit, m.credit] = some totals' ∧ totals'.AllZero := by
  simp only [CashMovement.isBalanced, Bool.and_eq_true, decide_eq_true_eq,
    Decimal.beq_iff_value] at hm
  obtain ⟨⟨⟨⟨⟨⟨hdebit, hcredit⟩, hpaid⟩, hpaid'⟩, hcurrency⟩, hcurrency'⟩, -⟩ := hm
  have hsum : m.debit.signedAmount.value + m.credit.signedAmount.value = 0 := by
    simp only [JournalEntry.signedAmount, hdebit, hcredit, Decimal.value_neg, hpaid, hpaid']
    exact add_neg_cancel _
  obtain ⟨next, hnext, totals', htotals, hzero⟩ := add_opposite m.transaction.currency h hsum
  refine ⟨totals', ?_, hzero⟩
  simp [sum?, hcurrency, hcurrency', hnext, htotals]

theorem sum_movements {movements : List CashMovement}
    (hbalanced : ∀ m ∈ movements, m.isBalanced = true) (h : totals.AllZero) :
    ∃ totals', totals.sum? (movements.flatMap fun m => [m.debit, m.credit]) = some totals' ∧
      totals'.AllZero := by
  induction movements generalizing totals with
  | nil => exact ⟨totals, rfl, h⟩
  | cons m movements ih =>
    obtain ⟨hm, hrest⟩ := List.forall_mem_cons.mp hbalanced
    obtain ⟨next, hnext, hzero⟩ := sum_movement hm h
    obtain ⟨totals', htotals, hzero'⟩ := ih hrest hzero
    refine ⟨totals', ?_, hzero'⟩
    rw [List.flatMap_cons, sum_append, hnext]
    exact htotals

end Totals

-- ---------------------------------------------------------------------------
-- Postings and journals
-- ---------------------------------------------------------------------------

theorem run_totals {snapshot : Snapshot} {s : Session}
    (h : Book.ofSnapshot snapshot = .ok s.book) (tasks : List (Environment × Operation)) :
    ∃ totals, (run tasks s).book.totals? = some totals ∧ totals.AllZero := by
  obtain ⟨-, -, hunused⟩ := Book.ofSnapshot_unused h
  obtain ⟨legs, hposts, -⟩ := run_posts tasks s
  have hjournal := hposts.journal
  rw [hunused, List.nil_append] at hjournal
  have hbalanced : ∀ m ∈ legs.flatMap (·.postings.movements), m.isBalanced = true := by
    intro m hm
    obtain ⟨_, -, _, hsettles⟩ := hposts.movement m hm
    exact hsettles.isBalanced
  obtain ⟨totals, hsum, hzero⟩ := Totals.sum_movements hbalanced Totals.allZero_nil
  refine ⟨totals, ?_, hzero⟩
  rw [← hsum, ← hjournal]
  rfl

theorem LegPostings.net_balanced {p : LegPostings} (h : p.isBalanced = true) :
    ∃ totals, p.net? = some totals ∧
      totals.currencies = (p.entries.map (·.currency)).eraseDups ∧ totals.AllZero := by
  obtain ⟨hout, hin⟩ := Bool.and_eq_true_iff.mp h
  have hbalanced : ∀ m ∈ p.movements, m.isBalanced = true :=
    List.forall_mem_cons.mpr ⟨hout, List.forall_mem_singleton.mpr hin⟩
  obtain ⟨totals, hsum, hzero⟩ := Totals.sum_movements hbalanced Totals.allZero_nil
  have hnone : Totals.currencies [] = (([] : List JournalEntry).map (·.currency)).eraseDups := rfl
  have hnet : Totals.sum? [] p.entries = some totals := hsum
  have hcurrencies := Totals.sum_currencies hnone hnet
  exact ⟨totals, hnet, hcurrencies, hzero⟩

/-- Balanced postings have net totals: one for each currency in the order of first appearance, all
of them zero. What `preparePostings` returns is balanced, its outward movement of the amount given
and its inward one of the amount taken. -/
theorem postings_cancel :
    (∀ p : LegPostings, p.isBalanced = true → ∃ totals, p.net? = some totals ∧
      totals.map (·.1) = (p.entries.map (·.currency)).eraseDups ∧ (totals.map (·.1)).Nodup ∧
      ∀ t ∈ totals, t.2.value = 0) ∧
    ∀ leg instant env s p s', Desk.preparePostings leg instant env s = (.ok p, s') →
      p.isBalanced = true ∧
      (p.outward.transaction.direction = .outward ∧
        p.outward.transaction.amount = leg.amountGiven ∧
        p.outward.transaction.currency = leg.currencyFrom) ∧
      p.inward.transaction.direction = .inward ∧
        p.inward.transaction.amount = leg.amountTaken ∧
        p.inward.transaction.currency = leg.currencyTo := by
  constructor
  · intro p hp
    obtain ⟨totals, hnet, hcurrencies, hzero⟩ := LegPostings.net_balanced hp
    refine ⟨totals, hnet, hcurrencies, ?_, hzero⟩
    rw [show totals.map (·.1) = _ from hcurrencies]
    exact nodup_eraseDups _
  · intro leg instant env s p s' hrun
    obtain ⟨hposted, -⟩ := (Desk.preparePostings_triple leg instant).ok hrun
    obtain ⟨hout, hin⟩ := hposted.settles
    obtain ⟨hdirection, hamount, hcurrency, -⟩ := hout.transaction
    obtain ⟨hdirection', hamount', hcurrency', -⟩ := hin.transaction
    refine ⟨Bool.and_eq_true_iff.mpr ⟨hout.isBalanced, hin.isBalanced⟩, ?_, ?_⟩
    · exact ⟨hdirection, hamount, hcurrency⟩
    · exact ⟨hdirection', hamount', hcurrency'⟩

def handMade (paid debited credited : Decimal) : CashMovement :=
  let entry : JournalEntry :=
    { office := ⟨1⟩, glAccount := ⟨22⟩, currency := ⟨"usd"⟩, rate := ⟨1⟩, correlation := ⟨"0"⟩
      manual := true, date := openingDay, side := .debit, amount := debited, description := none }
  { transaction := ⟨⟨1⟩, .outward, paid, ⟨"usd"⟩, openingDay, none⟩
    debit := entry
    credit := { entry with side := .credit, amount := credited } }

def largestAmount : Decimal := .whole (mantissaBound - 1)

def minusHundred (zeros : Nat) : Decimal := (-hundred).rescale zeros

/-- Both movements are in one currency. The largest number is followed by one below zero that is
written with more and more digits. -/
def handMadePostings : LegPostings :=
  { outward := handMade largestAmount largestAmount largestAmount
    inward := handMade (minusHundred 0) (minusHundred 1) (minusHundred 2) }

def smallLeg : Exchange :=
  { rate := ⟨1⟩, user := ⟨⟨1⟩, ⟨7⟩⟩, currencyFrom := ⟨"USD"⟩, currencyTo := ⟨"UGX"⟩, client := {}
    date := openingDay, createdAt := ⟨0⟩, amountGiven := hundred, amountTaken := .whole 365000
    id := ⟨1⟩ }

theorem postings_cancel_handMade :
    handMadePostings.isBalanced = true ∧
      (∃ totals, handMadePostings.net? = some totals ∧
        totals.map (·.1) = [⟨"usd"⟩] ∧ ∀ t ∈ totals, t.2.value = 0) ∧
      ∃ p s', Desk.preparePostings smallLeg ⟨0⟩ {} { book := smallBook } = (.ok p, s') ∧
        p.isBalanced = true ∧ p.outward.transaction.amount = hundred ∧
        p.inward.transaction.currency = ⟨"UGX"⟩ := by
  have hbalanced : handMadePostings.isBalanced = true := by decide +kernel
  have hok : (Desk.preparePostings smallLeg ⟨0⟩ {} { book := smallBook }).1.isOk = true := by
    decide +kernel
  refine ⟨hbalanced, ?_, ?_⟩
  · obtain ⟨totals, hnet, hcurrencies, -, hzero⟩ := postings_cancel.1 handMadePostings hbalanced
    exact ⟨totals, hnet, hcurrencies, hzero⟩
  · rcases hrun : Desk.preparePostings smallLeg ⟨0⟩ {} { book := smallBook } with ⟨e | p, s'⟩
    · rw [hrun] at hok
      cases hok
    · obtain ⟨hp, ⟨-, hamount, -⟩, -, -, hcurrency⟩ := postings_cancel.2 _ _ _ _ _ _ hrun
      exact ⟨p, s', rfl, hp, hamount, hcurrency⟩

end ExchangeDesk
