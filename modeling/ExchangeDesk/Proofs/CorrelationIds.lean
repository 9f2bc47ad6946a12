import ExchangeDesk.Proofs.Ledger
import ExchangeDesk.Proofs.Reachable
import ExchangeDesk.Proofs.Steps
import ExchangeDesk.Proofs.Untimed

/-!
# Correlation ids identify movements

Two correlation ids with different numbers of the sequence differ
(`CorrelationId.generate_inj`). The movements of a session bear the numbers of its
sequence in order (`NumberedFrom`); therefore the entries of one movement are the
only ones in the journal under its id (`Book.Entered.tells`).
-/

namespace ExchangeDesk

variable {b b' : Book} {m : CashMovement} {ms ms' : List CashMovement} {n : Nat}

-- ---------------------------------------------------------------------------
-- Movements in the order of their numbers
-- ---------------------------------------------------------------------------

theorem CashMovement.Bears.correlation_eq (h : m.Bears n) : m.credit.correlation = m.correlation := by
  obtain ⟨_, _, _, hdebit, hcredit⟩ := h
  rw [hcredit, correlation, hdebit]

/-- A movement bears one number, and movements with one id bear the same one. -/
theorem CashMovement.Bears.unique {m' : CashMovement} {n' : Nat} (h : m.Bears n)
    (h' : m'.Bears n') (heq : m.correlation = m'.correlation) : n = n' := by
  obtain ⟨_, _, _, hdebit, -⟩ := h
  obtain ⟨_, _, _, hdebit', -⟩ := h'
  rw [correlation, correlation, hdebit, hdebit', CorrelationId.generate_inj] at heq
  exact heq.2.2.2

def NumberedFrom : Nat → List CashMovement → Prop
  | _, [] => True
  | n, m :: ms => m.Bears n ∧ NumberedFrom (n + 1) ms

namespace NumberedFrom

theorem append : NumberedFrom n (ms ++ ms') ↔
    NumberedFrom n ms ∧ NumberedFrom (n + ms.length) ms' := by
  induction ms generalizing n with
  | nil => simp [NumberedFrom]
  | cons m ms ih =>
    simp only [List.cons_append, NumberedFrom, ih, List.length_cons, and_assoc]
    rw [Nat.add_right_comm, Nat.add_assoc]

theorem mem (h : NumberedFrom n ms) (hm : m ∈ ms) :
    ∃ k, n ≤ k ∧ k < n + ms.length ∧ m.Bears k := by
  induction ms generalizing n with
  | nil => cases hm
  | cons m' ms ih =>
    obtain ⟨hfirst, hrest⟩ := h
    rcases List.mem_cons.mp hm with rfl | hm
    · exact ⟨n, Nat.le_refl n, by simp, hfirst⟩
    · obtain ⟨k, hle, hlt, hbears⟩ := ih hrest hm
      rw [List.length_cons]
      exact ⟨k, by omega, by omega, hbears⟩

theorem distinct (h : NumberedFrom n ms) : (ms.map (·.correlation)).Nodup := by
  induction ms generalizing n with
  | nil => exact List.nodup_nil
  | cons m ms ih =>
    obtain ⟨hfirst, hrest⟩ := h
    refine List.nodup_cons.mpr ⟨?_, ih hrest⟩
    intro hmem
    obtain ⟨m', hm', heq⟩ := List.mem_map.mp hmem
    obtain ⟨k, hle, -, hbears⟩ := hrest.mem hm'
    have hsame := hbears.unique hfirst heq
    omega

end NumberedFrom

-- ---------------------------------------------------------------------------
-- Movements in the journal
-- ---------------------------------------------------------------------------

/-- The journal consists of the entries of these movements, each of which bears a number
of its own below `n`. -/
structure Book.Entered (b : Book) (n : Nat) (ms : List CashMovement) : Prop where
  journal : b.journal = ms.flatMap fun m => [m.debit, m.credit]
  distinct : (ms.map (·.correlation)).Nodup
  below : ∀ m ∈ ms, ∃ k < n, m.Bears k

/-- Under the id of the movement there are its two entries and no other ones. -/
def Book.Tells (b : Book) (m : CashMovement) : Prop :=
  b.entriesFor m.correlation = [m.debit, m.credit]

theorem filter_entries (hms : ∀ m ∈ ms, m.credit.correlation = m.correlation)
    (correlation : CorrelationId) :
    (ms.flatMap fun m => [m.debit, m.credit]).filter (·.correlation = correlation) =
      (ms.filter (·.correlation = correlation)).flatMap fun m => [m.debit, m.credit] := by
  induction ms with
  | nil => rfl
  | cons m ms ih =>
    obtain ⟨hm, hms⟩ := List.forall_mem_cons.mp hms
    rw [List.flatMap_cons, List.filter_append, ih hms]
    by_cases heq : m.correlation = correlation
    · have hdebit : m.debit.correlation = correlation := heq
      simp [heq, hdebit, hm]
    · have hdebit : m.debit.correlation ≠ correlation := heq
      simp [heq, hdebit, hm]

namespace Book.Entered

theorem tells (h : b.Entered n ms) (hm : m ∈ ms) : b.Tells m := by
  have hsame : ∀ m ∈ ms, m.credit.correlation = m.correlation := by
    intro m hm
    obtain ⟨k, -, hbears⟩ := h.below m hm
    exact hbears.correlation_eq
  have honly : ms.filter (·.correlation = m.correlation) = [m] :=
    eq_singleton (filter_key_length h.distinct _) (by simpa using hm)
  simp [Tells, entriesFor, h.journal, filter_entries hsame, honly]

theorem mono (h : b.Entered n ms) {n' : Nat} (hle : n ≤ n') : b.Entered n' ms := by
  refine { h with below := ?_ }
  intro m hm
  obtain ⟨k, hlt, hbears⟩ := h.below m hm
  exact ⟨k, Nat.lt_of_lt_of_le hlt hle, hbears⟩

theorem append (h : b.Entered n ms) {n' : Nat} (hms' : NumberedFrom n ms')
    (hn' : n + ms'.length ≤ n')
    (hjournal : b'.journal = b.journal ++ ms'.flatMap fun m => [m.debit, m.credit]) :
    b'.Entered n' (ms ++ ms') := by
  refine ⟨?_, ?_, ?_⟩
  · rw [hjournal, h.journal, List.flatMap_append]
  · rw [List.map_append, List.nodup_append]
    refine ⟨h.distinct, hms'.distinct, ?_⟩
    rintro _ hold _ hnew rfl
    obtain ⟨m, hm, hcorrelation⟩ := List.mem_map.mp hold
    obtain ⟨m', hm', heq⟩ := List.mem_map.mp hnew
    obtain ⟨k, hlt, hbears⟩ := h.below m hm
    obtain ⟨k', hle, -, hbears'⟩ := hms'.mem hm'
    have hsame := hbears.unique hbears' (hcorrelation.trans heq.symm)
    omega
  · intro m hm
    rcases List.mem_append.mp hm with hm | hm
    · obtain ⟨k, hlt, hbears⟩ := h.below m hm
      exact ⟨k, by omega, hbears⟩
    · obtain ⟨k, -, hlt, hbears⟩ := hms'.mem hm
      exact ⟨k, by omega, hbears⟩

end Book.Entered

end ExchangeDesk
