import TagTemplate.Json.Binary64

/-!
The shortest decimal text of a binary magnitude.

Every decimal inside the interval of numbers that round to a magnitude reads back
as that magnitude.  The text has the fewest digits such a decimal can have, and
among those it is the nearest to the exact value.
-/

namespace TagTemplate.Json

/-- A decimal number: `digits * 10 ^ exponent` under a sign, the last digit not
being zero unless the number is. -/
structure Decimal where
  negative : Bool
  digits : Nat
  exponent : Int
deriving DecidableEq, Repr

def natText (n : Nat) : String :=
  String.ofList (Nat.toDigits 10 n)

/-- How many digits a number has in base ten. -/
def digitCount (n : Nat) : Nat :=
  (Nat.toDigits 10 n).length

namespace Binary64

/-- The interval of numbers that round to a magnitude, as the numerators of its
lower end, of the value and of its upper end over one denominator. -/
def interval (x : Binary64) : Nat × Nat × Nat × Nat :=
  let below := if x.mantissa = mantissaLimit / 2 ∧ minExponent < x.exponent then 1 else 2
  let low := 4 * x.mantissa - below
  let high := 4 * x.mantissa + 2
  let quarter := x.exponent - 2
  if 0 ≤ quarter then
    let shift := quarter.toNat
    (low <<< shift, (4 * x.mantissa) <<< shift, high <<< shift, 1)
  else
    (low, 4 * x.mantissa, high, 1 <<< (-quarter).toNat)

/-- The number of digits before the decimal point of a positive fraction; it is
zero or negative where zeros follow the point. -/
def pointPosition (num den : Nat) : Int :=
  if den ≤ num then digitCount (num / den)
  else 1 - (digitCount ((den + num - 1) / num - 1) : Int)

/-- The nearest point of the grid `10 ^ exponent` inside the interval, if the grid
has one there. -/
def gridPoint (tie : Tie) (x : Binary64) (exponent : Int) : Option Nat :=
  let (low, value, high, den) := x.interval
  let up := Nat.pow 10 (-exponent).toNat
  let unit := den * Nat.pow 10 exponent.toNat
  let (low, value, high) := (low * up, value * up, high * up)
  let inside (point : Nat) : Bool :=
    if x.mantissa % 2 = 0 then low ≤ point * unit && point * unit ≤ high
    else low < point * unit && point * unit < high
  let floor := value / unit
  let twice := 2 * (value % unit)
  let ascends := unit < twice || (twice == unit && (tie == .up || floor % 2 == 1))
  let nearer := if ascends then floor + 1 else floor
  let other := if nearer = floor then floor + 1 else floor
  if inside nearer then some nearer else if inside other then some other else none

/-- Moves zeros at the end of the digits into the exponent. -/
def stripZeros : Nat → Nat → Int → Nat × Int
  | 0, digits, exponent => (digits, exponent)
  | fuel + 1, digits, exponent =>
    if digits ≠ 0 ∧ digits % 10 = 0 then stripZeros fuel (digits / 10) (exponent + 1)
    else (digits, exponent)

/-- The shortest digits and their exponent.  Seventeen digits always suffice. -/
def shortest (tie : Tie) (x : Binary64) : Nat × Int :=
  if x.mantissa = 0 then (0, 0)
  else
    let (_, value, _, den) := x.interval
    let point := pointPosition value den
    let grids := (List.range 17).map fun n => point - (n + 1 : Nat)
    match grids.findSome? fun exponent => (x.gridPoint tie exponent).map fun d => (d, exponent) with
    | some (digits, exponent) => stripZeros 18 digits exponent
    | none => (value / den, 0)

end Binary64

namespace Decimal

/-- The shortest decimal of a magnitude under a sign; a tie goes to the even digit. -/
def ofBinary64 (negative : Bool) (x : Binary64) : Decimal :=
  let (digits, exponent) := x.shortest .toEven
  ⟨negative, digits, exponent⟩

/-- Positional notation is used while the point stands at most four zeros before
the first digit and at most sixteen digits behind it. -/
def positional (point : Int) : Bool :=
  -5 < point && point ≤ 16

/-- The digits with the decimal point put `point` places behind the first one; there
is always a digit on both sides of it. -/
def pointed (digits : List Char) (point : Int) : List Char :=
  if point ≤ 0 then
    ['0', '.'] ++ List.replicate (-point).toNat '0' ++ digits
  else if digits.length ≤ point.toNat then
    digits ++ List.replicate (point.toNat - digits.length) '0' ++ ['.', '0']
  else
    digits.take point.toNat ++ ['.'] ++ digits.drop point.toNat

/-- Scientific notation: one digit before the point, no point behind a single
digit, and an exponent that carries its sign. -/
def scientific (digits : List Char) (point : Int) : List Char :=
  let exponent := point - 1
  let mark := if exponent < 0 then '-' else '+'
  let lead := match digits with
    | first :: second :: rest => first :: '.' :: second :: rest
    | short => short
  lead ++ ['e', mark] ++ Nat.toDigits 10 exponent.natAbs

def text (d : Decimal) : String :=
  let digits := Nat.toDigits 10 d.digits
  let body :=
    if d.digits = 0 then ['0', '.', '0']
    else
      let point := digits.length + d.exponent
      if positional point then pointed digits point else scientific digits point
  String.ofList (if d.negative then '-' :: body else body)

example : (Decimal.mk false 1 16).text = "1e+16" := by decide

example : (Decimal.mk true 12 (-1)).text = "-1.2" := by decide

example : (Decimal.mk false 1 (-5)).text = "0.00001" := by decide

example : (Decimal.mk false 15 (-7)).text = "1.5e-6" := by decide

end Decimal

end TagTemplate.Json
