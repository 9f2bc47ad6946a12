/-!
# Results that are errors or values

When a result that is put together from others is a value, they were values.
-/

namespace ExchangeDesk

variable {ε α β : Type}

theorem bind_ok {x : Except ε α} {f : α → Except ε β} {b : β} :
    (x >>= f) = .ok b ↔ ∃ a, x = .ok a ∧ f a = .ok b := by
  cases x with
  | ok a => simp [bind, Except.bind]
  | error e => simp [bind, Except.bind]

theorem bind_error {x : Except ε α} {f : α → Except ε β} {e : ε} :
    (x >>= f) = .error e ↔ x = .error e ∨ ∃ a, x = .ok a ∧ f a = .error e := by
  cases x with
  | ok a => simp [bind, Except.bind]
  | error d => simp [bind, Except.bind]

theorem pure_ok {a b : α} : (pure a : Except ε α) = .ok b ↔ a = b := by
  simp [pure, Except.pure]

theorem check_ok {check : Except ε Unit} {a b : α} :
    (do check; return a) = Except.ok b ↔ check = .ok () ∧ b = a := by
  rw [bind_ok]
  constructor
  · rintro ⟨_, hcheck, ⟨⟩⟩
    exact ⟨hcheck, rfl⟩
  · rintro ⟨hcheck, rfl⟩
    exact ⟨(), hcheck, rfl⟩

theorem mapError_ok {ε' : Type} {x : Except ε α} {f : ε → ε'} {a : α} :
    x.mapError f = .ok a ↔ x = .ok a := by
  cases x with
  | ok b => exact ⟨fun h => congrArg _ (Except.ok.inj h), fun h => congrArg _ (Except.ok.inj h)⟩
  | error e => exact ⟨nofun, nofun⟩

theorem foldlM_invariant {f : β → α → Except ε β} {I : β → Prop} {l : List α} {x y : β}
    (step : ∀ x a y, I x → f x a = .ok y → I y) (hx : I x) (h : l.foldlM f x = .ok y) : I y := by
  induction l generalizing x with
  | nil =>
    cases h
    exact hx
  | cons a l ih =>
    rw [List.foldlM_cons, bind_ok] at h
    obtain ⟨z, hz, h⟩ := h
    exact ih (step x a z hx hz) h

theorem foldlM_map_ok {f : β → α → Except ε β} {g : α → α}
    (h : ∀ x y a, f x (g a) = .ok y ↔ f x a = .ok y) {l : List α} {x y : β} :
    (l.map g).foldlM f x = .ok y ↔ l.foldlM f x = .ok y := by
  induction l generalizing x with
  | nil => rfl
  | cons a l ih => simp only [List.map_cons, List.foldlM_cons, bind_ok, h, ih]

end ExchangeDesk
