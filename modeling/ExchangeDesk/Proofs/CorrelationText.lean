import ExchangeDesk.Ledger.Journal

/-!
# Reading back a correlation id

A correlation id is written as four numerals in lowercase hexadecimal with dashes between. No
numeral has a dash in it, so the text splits at the dashes into the numerals it was put together
from, and their values are the time, the user, the office and the number of the sequence
(`generate_decodes`). Therefore two ids are equal only if all of these are (`generate_inj`).
-/

namespace ExchangeDesk.CorrelationId

-- ---------------------------------------------------------------------------
-- Hexadecimal numerals
-- ---------------------------------------------------------------------------

def hexDigits : List Char := "0123456789abcdef".toList

/-- The number that a numeral stands for. -/
def hexValue (numeral : List Char) : Nat :=
  numeral.foldl (fun n c => n * 16 + hexDigits.idxOf c) 0

/-- A numeral in lowercase hexadecimal, with no zero in front of other digits. -/
structure Hexadecimal (numeral : List Char) : Prop where
  digits : ∀ c ∈ numeral, c ∈ hexDigits
  leading : ∃ c rest, numeral = c :: rest ∧ (c = '0' → rest = [])

/-- Induction on the digits of `hex`. -/
theorem hex_induction {P : Nat → List Char → Prop} (digit : ∀ d < 16, P d [Nat.digitChar d])
    (more : ∀ n, 16 ≤ n → P (n / 16) (hex (n / 16)) →
      P n (hex (n / 16) ++ [Nat.digitChar (n % 16)]))
    (n : Nat) : P n (hex n) := by
  induction n using Nat.strongRecOn with
  | ind n ih =>
    rcases Nat.lt_or_ge n 16 with hlt | hge
    · rw [hex, Nat.toDigits_of_lt_base hlt]
      exact digit n hlt
    · rw [hex, Nat.toDigits_of_base_le (by decide) hge]
      exact more n hge (ih (n / 16) (by omega))

theorem idxOf_digitChar : ∀ d < 16, hexDigits.idxOf (Nat.digitChar d) = d := by decide

theorem digitChar_mem : ∀ d < 16, Nat.digitChar d ∈ hexDigits := by decide

theorem digitChar_ne_zero : ∀ d < 16, 0 < d → Nat.digitChar d ≠ '0' := by decide

theorem hex_mem_hexDigits (n : Nat) : ∀ c ∈ hex n, c ∈ hexDigits := by
  refine hex_induction (P := fun _ numeral => ∀ c ∈ numeral, c ∈ hexDigits) ?_ ?_ n
  · intro d hd c hc
    rw [List.mem_singleton.mp hc]
    exact digitChar_mem d hd
  · intro n _ ih c hc
    rcases List.mem_append.mp hc with hc | hc
    · exact ih c hc
    · rw [List.mem_singleton.mp hc]
      exact digitChar_mem (n % 16) (Nat.mod_lt n (by decide))

theorem dash_not_mem_hex (n : Nat) : '-' ∉ hex n := fun h =>
  absurd (hex_mem_hexDigits n '-' h) (by decide)

theorem hex_head (n : Nat) : 0 < n → ∃ c rest, hex n = c :: rest ∧ c ≠ '0' := by
  refine hex_induction (P := fun n numeral => 0 < n → ∃ c rest, numeral = c :: rest ∧ c ≠ '0')
    ?_ ?_ n
  · intro d hd hpos
    exact ⟨Nat.digitChar d, [], rfl, digitChar_ne_zero d hd hpos⟩
  · intro n hn ih _
    obtain ⟨c, rest, hhead, hc⟩ := ih (by omega)
    exact ⟨c, rest ++ [Nat.digitChar (n % 16)], by rw [hhead, List.cons_append], hc⟩

theorem hexadecimal_hex (n : Nat) : Hexadecimal (hex n) := by
  refine ⟨hex_mem_hexDigits n, ?_⟩
  rcases Nat.eq_zero_or_pos n with rfl | hn
  · exact ⟨'0', [], rfl, fun _ => rfl⟩
  · obtain ⟨c, rest, hhead, hc⟩ := hex_head n hn
    exact ⟨c, rest, hhead, fun h => absurd h hc⟩

theorem hexValue_concat (numeral : List Char) (c : Char) :
    hexValue (numeral ++ [c]) = hexValue numeral * 16 + hexDigits.idxOf c := by
  rw [hexValue, List.foldl_append]
  rfl

theorem hexValue_hex (n : Nat) : hexValue (hex n) = n := by
  refine hex_induction (P := fun n numeral => hexValue numeral = n) ?_ ?_ n
  · intro d hd
    rw [← List.nil_append [_], hexValue_concat, idxOf_digitChar d hd]
    exact Nat.zero_add d
  · intro n _ ih
    rw [hexValue_concat, ih, idxOf_digitChar _ (Nat.mod_lt n (by decide))]
    omega

-- ---------------------------------------------------------------------------
-- Numerals between dashes
-- ---------------------------------------------------------------------------

/-- The numbers read from the text of an id, between its dashes. -/
def numbers (id : CorrelationId) : List Nat := (id.text.toList.splitOn '-').map hexValue

/-- The numbers that `generate` writes. Times before 1970 count as its start. -/
def components (instant : Instant) (user : UserId) (office : OfficeId) (sequence : Nat) :
    List Nat :=
  [(max instant.millis 0).toNat, user.number, office.number, sequence]

theorem generate_text (instant : Instant) (user : UserId) (office : OfficeId) (sequence : Nat) :
    (generate instant user office sequence).text.toList =
      ['-'].intercalate ((components instant user office sequence).map hex) := by
  have hmillis : (max instant.millis 0).toNat = instant.millis.toNat := by omega
  simp [generate, components, hmillis, List.intercalate, List.intersperse]

example : (generate ⟨1700000000000999999⟩ ⟨1⟩ ⟨2⟩ 255).text = "18bcfe56800-1-2-ff" := by decide +kernel

theorem numbers_generate (instant : Instant) (user : UserId) (office : OfficeId)
    (sequence : Nat) :
    (generate instant user office sequence).numbers =
      components instant user office sequence := by
  have hdash : ∀ numeral ∈ (components instant user office sequence).map hex, '-' ∉ numeral := by
    intro numeral hmem
    obtain ⟨n, -, rfl⟩ := List.mem_map.mp hmem
    exact dash_not_mem_hex n
  rw [numbers, generate_text, List.splitOn_intercalate '-' hdash (by simp [components]),
    List.map_map]
  exact List.map_id'' hexValue_hex _

theorem generate_inj {instant instant' : Instant} {user user' : UserId}
    {office office' : OfficeId} {sequence sequence' : Nat} :
    generate instant user office sequence = generate instant' user' office' sequence' ↔
      instant.millis.toNat = instant'.millis.toNat ∧ user = user' ∧ office = office' ∧
        sequence = sequence' := by
  constructor
  · intro h
    have hnumbers : components instant user office sequence =
        components instant' user' office' sequence' := by
      rw [← numbers_generate, ← numbers_generate, h]
    simp only [components, List.cons.injEq, and_true] at hnumbers
    obtain ⟨hmillis, huser, hoffice, hsequence⟩ := hnumbers
    cases user
    cases user'
    cases office
    cases office'
    cases huser
    cases hoffice
    exact ⟨by omega, rfl, rfl, hsequence⟩
  · rintro ⟨hmillis, rfl, rfl, rfl⟩
    simp only [generate, hmillis]

/-- The text of an id is four `Hexadecimal` numerals with dashes between, those of the `components`:
milliseconds since 1970, at least 0, user, office and sequence number. So ids are equal exactly if
these numbers are. -/
theorem generate_decodes (instant : Instant) (user : UserId) (office : OfficeId)
    (sequence : Nat) :
    (∃ numerals, (generate instant user office sequence).text.toList = ['-'].intercalate numerals ∧
      (∀ numeral ∈ numerals, Hexadecimal numeral) ∧
      numerals.map hexValue = components instant user office sequence) ∧
    (generate instant user office sequence).numbers =
      components instant user office sequence ∧
    ∀ instant' user' office' sequence',
      generate instant' user' office' sequence' = generate instant user office sequence ↔
        max instant'.millis 0 = max instant.millis 0 ∧ user' = user ∧ office' = office ∧
          sequence' = sequence := by
  refine ⟨⟨(components instant user office sequence).map hex, generate_text .., ?_, ?_⟩,
    numbers_generate .., fun instant' user' office' sequence' => ?_⟩
  · intro numeral hmem
    obtain ⟨n, -, rfl⟩ := List.mem_map.mp hmem
    exact hexadecimal_hex n
  · rw [List.map_map]
    exact List.map_id'' hexValue_hex _
  · rw [generate_inj]
    exact and_congr_left fun _ => by omega

end ExchangeDesk.CorrelationId
