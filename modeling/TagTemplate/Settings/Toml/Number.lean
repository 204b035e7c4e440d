import TagTemplate.Settings.Toml.Quoted
import TagTemplate.Settings.Tree

/-!
Numbers in settings files.

Single underscores may stand between digits.  A decimal number has no leading zeros; an
integer in base two, eight or sixteen has a prefix and no sign.  Integers fit 64 bits,
and a float that is too great is refused.
-/

namespace TagTemplate.Toml

/-- Reads digits with single underscores between them, behind a digit. -/
def moreDigits? (isDigit : Char → Bool) : Reader (List Char)
  | '_' :: c :: cs =>
    if isDigit c then (moreDigits? isDigit cs).map fun (digits, rest) => (c :: digits, rest)
    else none
  | ['_'] => none
  | c :: cs =>
    if isDigit c then (moreDigits? isDigit cs).map fun (digits, rest) => (c :: digits, rest)
    else some ([], c :: cs)
  | [] => some ([], [])

/-- Reads at least one digit, with single underscores between digits. -/
def digits? (isDigit : Char → Bool) : Reader (List Char)
  | c :: cs =>
    if isDigit c then (moreDigits? isDigit cs).map fun (digits, rest) => (c :: digits, rest)
    else none
  | [] => none

/-- Reads the digits of a decimal number; a zero stands alone. -/
def whole? : Reader (List Char)
  | '0' :: cs => some (['0'], cs)
  | cs => digits? Char.isDigit cs

/-- Reads the digits behind a decimal point, if there is one. -/
def fraction? : Reader (List Char)
  | '.' :: cs => digits? Char.isDigit cs
  | cs => some ([], cs)

/-- Reads a sign, if there is one; the result says whether it is a minus sign. -/
def sign : List Char → Bool × List Char
  | '+' :: cs => (false, cs)
  | '-' :: cs => (true, cs)
  | cs => (false, cs)

def exponent? (cs : List Char) : Option (Int × List Char) := do
  let (negative, cs) := sign cs
  let (digits, rest) ← digits? Char.isDigit cs
  let magnitude : Int := Json.Numeral.digitsValue digits
  return (if negative then -magnitude else magnitude, rest)

/-- An integer, if it fits 64 bits. -/
def integer? (value : Int) : Option Scalar :=
  if Int64.minValue.toInt ≤ value && value ≤ Int64.maxValue.toInt then some (.integer value)
  else none

/-- A float, unless it is too great. -/
def float? (negative : Bool) (digits : Nat) (exponent : Int) : Option Scalar :=
  match FloatValue.ofDecimal negative digits exponent with
  | .infinite false => none
  | value => some (.float value)

/-- Reads an integer behind the prefix of its base. -/
def inBase? (base : Nat) (cs : List Char) : Option (Scalar × List Char) := do
  let value? (c : Char) : Option Nat := (Json.Token.hexValue? c).filter (· < base)
  let (digits, rest) ← digits? (fun c => (value? c).isSome) cs
  let value := digits.foldl (fun n c => n * base + (value? c).getD 0) 0
  return (← integer? value, rest)

/-- Reads a decimal number, or a word for a number that is not finite. -/
def decimal? (negative : Bool) : Reader Scalar
  | 'i' :: 'n' :: 'f' :: rest => some (.float (.infinite negative), rest)
  | 'n' :: 'a' :: 'n' :: rest => some (.float .undefined, rest)
  | cs => do
    let (whole, rest) ← whole? cs
    let (fraction, rest) ← fraction? rest
    let digits := Json.Numeral.digitsValue (whole ++ fraction)
    let floating (exponent : Int) : Option Scalar :=
      float? negative digits (exponent - fraction.length)
    match rest with
    | 'e' :: rest | 'E' :: rest => do
      let (exponent, rest) ← exponent? rest
      return (← floating exponent, rest)
    | rest =>
      if fraction.isEmpty then
        return (← integer? (if negative then -(digits : Int) else digits), rest)
      else return (← floating 0, rest)

def number? : Reader Scalar
  | '0' :: 'x' :: cs => inBase? 16 cs
  | '0' :: 'o' :: cs => inBase? 8 cs
  | '0' :: 'b' :: cs => inBase? 2 cs
  | cs =>
    let (negative, cs) := sign cs
    decimal? negative cs

example : number? "0xFf".toList = some (.integer 255, []) := by decide

example : number? "-1_000 ".toList = some (.integer (-1000), [' ']) := by decide

example : number? "1.".toList = none := by decide

end TagTemplate.Toml
