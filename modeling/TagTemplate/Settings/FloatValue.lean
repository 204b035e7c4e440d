import TagTemplate.Json.Decimal

/-!
Floating point numbers among settings.

Their text never has an exponent, and a whole number has no decimal point.  As a natural
number a value is rounded, a half away from zero, and cut off at both ends of the range of
64 bits.
-/

namespace TagTemplate

inductive FloatValue where
  | finite (negative : Bool) (magnitude : Json.Binary64)
  | infinite (negative : Bool)
  | undefined
deriving DecidableEq, Repr

namespace FloatValue

/-- The number nearest to `digits * 10 ^ exponent` under a sign.  The position of the
first digit decides whether it can lie within the range of the format. -/
def ofDecimal (negative : Bool) (digits : Nat) (exponent : Int) : FloatValue :=
  let position := Json.digitCount digits + exponent
  if digits = 0 ∨ position < -400 then .finite negative .zero
  else if 400 < position then .infinite negative
  else
    let magnitude :=
      if 0 ≤ exponent then Json.Binary64.ofRatio (digits * Nat.pow 10 exponent.toNat) 1
      else Json.Binary64.ofRatio digits (Nat.pow 10 (-exponent).toNat)
    match magnitude with
    | some magnitude => .finite negative magnitude
    | none => .infinite negative

/-- Digits times a power of ten, without an exponent. -/
def positional (digits : Nat) (exponent : Int) : List Char :=
  let shown := Nat.toDigits 10 digits
  let places := (-exponent).toNat
  if 0 ≤ exponent then shown ++ List.replicate exponent.toNat '0'
  else if places < shown.length then
    shown.take (shown.length - places) ++ '.' :: shown.drop (shown.length - places)
  else '0' :: '.' :: List.replicate (places - shown.length) '0' ++ shown

/-- The shortest text that reads back as the number; a tie goes to the upper digit. -/
def text : FloatValue → String
  | .finite negative magnitude =>
    let (digits, exponent) := magnitude.shortest .up
    let shown := positional digits exponent
    String.ofList (if negative then '-' :: shown else shown)
  | .infinite negative => if negative then "-inf" else "inf"
  | .undefined => "NaN"

/-- The nearest natural number of 64 bits; zero for what is not a number. -/
def toNat : FloatValue → Nat
  | .finite false magnitude =>
    let (num, den) := magnitude.ratio
    min ((2 * num + den) / (2 * den)) (UInt64.size - 1)
  | .infinite false => UInt64.size - 1
  | _ => 0

example : (ofDecimal true 125 (-2)).text = "-1.25" := by decide +kernel

example : (ofDecimal false 1 21).text = "1000000000000000000000" := by decide +kernel

example : (ofDecimal false 1 (-7)).text = "0.0000001" := by decide +kernel

example : (ofDecimal false 25 (-1)).toNat = 3 := by decide +kernel

end FloatValue

end TagTemplate
