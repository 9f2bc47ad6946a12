/-!
# Rounding a quotient of natural numbers

Two ways to round `n / d` to a whole number: a half goes to the even
neighbour, or it goes up. Signs are rounded away from here: callers round a
magnitude and put the sign back.
-/

namespace ExchangeDesk

/-- The whole number nearest to `n / d`; a half goes to the even neighbour. -/
def halfEven (n d : Nat) : Nat :=
  if 2 * (n % d) < d ∨ (2 * (n % d) = d ∧ n / d % 2 = 0) then n / d else n / d + 1

def halfUp (n d : Nat) : Nat :=
  if 2 * (n % d) < d then n / d else n / d + 1

theorem halfEven_eq (n d : Nat) : halfEven n d = n / d ∨ halfEven n d = n / d + 1 := by
  unfold halfEven; split <;> simp

theorem halfEven_le {n d : Nat} (hd : 0 < d) : halfEven n d ≤ n := by
  have hsum := Nat.div_add_mod n d
  have hmul : n / d ≤ d * (n / d) := Nat.le_mul_of_pos_left _ hd
  unfold halfEven
  split
  · omega
  · next h =>
    have : 0 < n % d := by
      rcases Nat.eq_zero_or_pos (n % d) with h0 | h0
      · exact absurd (Or.inl (by omega)) h
      · exact h0
    omega

theorem halfUp_le {n d : Nat} (hd : 0 < d) : halfUp n d ≤ n := by
  have hsum := Nat.div_add_mod n d
  have hmul : n / d ≤ d * (n / d) := Nat.le_mul_of_pos_left _ hd
  unfold halfUp
  split
  · omega
  · next h =>
    have : 0 < n % d := by omega
    omega

@[simp] theorem halfEven_one (n : Nat) : halfEven n 1 = n := by
  simp [halfEven, Nat.mod_one]

end ExchangeDesk
