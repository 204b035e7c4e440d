/-!
Magnitudes of the 64-bit binary floating point format, computed exactly.

A finite magnitude is `mantissa * 2 ^ exponent`.  Rounding goes to the nearest
such number, and a tie to the even mantissa.  Signs are kept elsewhere, since
rounding is symmetric.
-/

namespace TagTemplate.Json

structure Binary64 where
  mantissa : Nat
  exponent : Int
deriving DecidableEq, Repr

/-- Which neighbour a number halfway between two is rounded to. -/
inductive Tie where
  | toEven
  | up
deriving DecidableEq, Repr

namespace Binary64

/-- The least exponent of the format; magnitudes below its grid are subnormal. -/
def minExponent : Int := -1074

/-- The greatest exponent of the format. -/
def maxExponent : Int := 971

/-- One more than the greatest mantissa. -/
def mantissaLimit : Nat := 1 <<< 53

def zero : Binary64 := ⟨0, minExponent⟩

/-- The integer nearest to a quotient; a half goes to the even neighbour. -/
def roundQuotient (num den : Nat) : Nat :=
  let quotient := num / den
  let twice := 2 * (num % den)
  if den < twice || (twice == den && quotient % 2 == 1) then quotient + 1 else quotient

/-- The quotient `num / den / 2 ^ exponent` as a fraction of natural numbers. -/
def scaled (num den : Nat) (exponent : Int) : Nat × Nat :=
  if 0 ≤ exponent then (num, den <<< exponent.toNat) else (num <<< (-exponent).toNat, den)

/-- The exponent at which the mantissa of `num / den` has 53 bits, or the least
exponent of the format if that is greater. -/
def exponentOf (num den : Nat) : Int :=
  let low : Int := num.log2 - den.log2 - 53
  let (n, d) := scaled num den low
  max minExponent (if n / d < mantissaLimit then low else low + 1)

/-- The magnitude nearest to `num / den`; `none` where it is beyond the format. -/
def ofRatio (num den : Nat) : Option Binary64 :=
  if num = 0 then some zero
  else
    let exponent := exponentOf num den
    let (n, d) := scaled num den exponent
    let mantissa := roundQuotient n d
    let (mantissa, exponent) :=
      if mantissa = mantissaLimit then (mantissa / 2, exponent + 1) else (mantissa, exponent)
    if exponent ≤ maxExponent then some ⟨mantissa, exponent⟩ else none

/-- The exact value as a fraction of natural numbers. -/
def ratio (x : Binary64) : Nat × Nat :=
  if 0 ≤ x.exponent then (x.mantissa <<< x.exponent.toNat, 1)
  else (x.mantissa, 1 <<< (-x.exponent).toNat)

def mul (x y : Binary64) : Option Binary64 :=
  let (a, b) := x.ratio
  let (c, d) := y.ratio
  ofRatio (a * c) (b * d)

/-- The rounded quotient; meant for a divisor that is not zero. -/
def div (x y : Binary64) : Option Binary64 :=
  let (a, b) := x.ratio
  let (c, d) := y.ratio
  ofRatio (a * d) (b * c)

/-- The magnitude nearest to a power of ten. -/
def powerOfTen (k : Nat) : Option Binary64 :=
  ofRatio (Nat.pow 10 k) 1

example : ofRatio 1 1 = some ⟨1 <<< 52, -52⟩ := by decide

example : ofRatio (1 <<< 1024) 1 = none := by decide +kernel

end Binary64

end TagTemplate.Json
