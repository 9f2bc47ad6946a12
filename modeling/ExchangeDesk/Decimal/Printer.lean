import ExchangeDesk.Decimal.Basic
import ExchangeDesk.Text.Numeral

/-!
# Decimals as text

A decimal is written with all digits of its scale: a minus sign if the sign is
set, also on a zero, at least one digit of the whole part, and a point before
exactly `scale` digits of fraction.
-/

namespace ExchangeDesk.Decimal

def magnitudeText (mantissa scale : Nat) : List Char :=
  if scale = 0 then Text.padded 1 mantissa
  else
    let digits := Text.padded (scale + 1) mantissa
    let whole := digits.length - scale
    digits.take whole ++ '.' :: digits.drop whole

def chars (d : Decimal) : List Char :=
  (if d.negative then ['-'] else []) ++ magnitudeText d.mantissa d.scale

def text (d : Decimal) : String := String.ofList d.chars

instance : ToString Decimal := ⟨text⟩

end ExchangeDesk.Decimal
