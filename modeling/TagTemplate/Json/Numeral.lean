import TagTemplate.Json.Value

/-!
Reading numbers.

A numeral is read in two steps: its digits are taken apart, then its value is
computed.  Integers that fit 64 bits stay exact.  Every other numeral becomes a
float: as many leading digits as fit an unsigned 64-bit integer are converted and
then scaled by a power of ten, and each of these operations rounds once.
-/

namespace TagTemplate.Json

structure Numeral where
  negative : Bool
  whole : List Char
  fraction : Option (List Char)
  exponent : Option (Bool × List Char)
deriving DecidableEq, Repr

namespace Numeral

/-- Reads at least one digit. -/
def digits? (cs : List Char) : Option (List Char × List Char) :=
  match cs.span Char.isDigit with
  | ([], _) => none
  | (digits, rest) => some (digits, rest)

/-- Reads the digits before the point: a zero alone, or digits that start with
another one. -/
def whole? : List Char → Option (List Char × List Char)
  | '0' :: rest => some (['0'], rest)
  | cs => digits? cs

/-- Reads a fraction, if there is one.  A point needs a digit behind it. -/
def fraction? : List Char → Option (Option (List Char) × List Char)
  | '.' :: rest => (digits? rest).map fun (digits, rest) => (some digits, rest)
  | cs => some (none, cs)

/-- Reads an exponent, if there is one.  Its mark needs a digit behind the sign. -/
def exponent? : List Char → Option (Option (Bool × List Char) × List Char)
  | c :: rest =>
    if c == 'e' || c == 'E' then
      let (negative, rest) := match rest with
        | '-' :: rest => (true, rest)
        | '+' :: rest => (false, rest)
        | rest => (false, rest)
      (digits? rest).map fun (digits, rest) => (some (negative, digits), rest)
    else some (none, c :: rest)
  | [] => some (none, [])

/-- Reads a numeral from the start of a text and returns what follows it. -/
def read? (cs : List Char) : Option (Numeral × List Char) := do
  let (negative, cs) := match cs with
    | '-' :: rest => (true, rest)
    | cs => (false, cs)
  let (whole, cs) ← whole? cs
  let (fraction, cs) ← fraction? cs
  let (exponent, cs) ← exponent? cs
  return (⟨negative, whole, fraction, exponent⟩, cs)

def digitValue (c : Char) : Nat := c.toNat - '0'.toNat

def digitsValue (cs : List Char) : Nat :=
  cs.foldl (fun n c => n * 10 + digitValue c) 0

/-- One more than the greatest significand. -/
def significandLimit : Nat := UInt64.size

/-- Appends digits to a significand while it stays below its limit; returns the
digits that are left. -/
def accumulate (significand : Nat) : List Char → Nat × List Char
  | [] => (significand, [])
  | c :: cs =>
    let next := significand * 10 + digitValue c
    if next < significandLimit then accumulate next cs else (significand, c :: cs)

/-- The greatest power of ten that scaling uses in one step. -/
def greatestPower : Nat := 308

/-- Divides by powers of ten.  Three divisions by the greatest power take every
significand to zero. -/
def scaleDown : Nat → Binary64 → Nat → Option Binary64
  | 0, _, _ => some .zero
  | fuel + 1, x, k =>
    if x.mantissa = 0 then some .zero
    else if k ≤ greatestPower then do x.div (← Binary64.powerOfTen k)
    else do scaleDown fuel (← x.div (← Binary64.powerOfTen greatestPower)) (k - greatestPower)

/-- A significand scaled by a power of ten; `none` where the result is beyond the
float format. -/
def scale (significand : Nat) (exponent : Int) : Option Binary64 := do
  let x ← Binary64.ofRatio significand 1
  if exponent < 0 then scaleDown 4 x exponent.natAbs
  else if x.mantissa = 0 then some .zero
  else if exponent.natAbs ≤ greatestPower then
    x.mul (← Binary64.powerOfTen exponent.natAbs)
  else none

/-- The exact integer a numeral stands for, where it has neither fraction nor
exponent and fits 64 bits.  Minus zero is no integer. -/
def integer? (n : Numeral) : Option Int :=
  if n.fraction.isSome || n.exponent.isSome then none
  else
    let value := digitsValue n.whole
    if n.negative then
      if 0 < value && value ≤ Int64.minValue.toInt.natAbs then some (-(value : Int)) else none
    else if value < significandLimit then some value else none

/-- The float a numeral stands for; `none` where it is beyond the format. -/
def float? (n : Numeral) : Option Decimal := do
  let (significand, unread) := accumulate 0 n.whole
  let (significand, exponent) := match n.fraction with
    | none => (significand, (unread.length : Int))
    | some digits =>
      let (longer, ignored) := accumulate significand digits
      (longer, (unread.length : Int) - (digits.length - ignored.length : Nat))
  let exponent := match n.exponent with
    | none => exponent
    | some (negative, digits) =>
      let shift : Int := digitsValue digits
      if negative then exponent - shift else exponent + shift
  return Decimal.ofBinary64 n.negative (← scale significand exponent)

def number? (n : Numeral) : Option Number :=
  match n.integer? with
  | some i => some (.integer i)
  | none => n.float?.map .float

end Numeral

end TagTemplate.Json
