import TagTemplate.Settings.Toml.Quoted

/-!
Dates and times in settings files.

They are read to a text of one form: a letter `T` between date and time, no zeros at the
end of a fraction of at most nine digits, and the offset as `Z` or as signed hours and
minutes.
-/

namespace TagTemplate.Toml

def fixed? (count : Nat) (cs : List Char) : Option (Nat × List Char) :=
  let digits := cs.take count
  if digits.length = count && digits.all Char.isDigit then
    some (Json.Numeral.digitsValue digits, cs.drop count)
  else none

/-- Reads a number of two decimal digits between two bounds. -/
def pair? (least greatest : Nat) (cs : List Char) : Option (Nat × List Char) :=
  (fixed? 2 cs).filter fun (n, _) => least ≤ n && n ≤ greatest

def expect? (c : Char) : List Char → Option (List Char)
  | d :: cs => if c == d then some cs else none
  | [] => none

/-- A number written with at least `count` digits. -/
def padded (count n : Nat) : List Char :=
  let digits := Nat.toDigits 10 n
  List.replicate (count - digits.length) '0' ++ digits

def daysOf (year month : Nat) : Nat :=
  if month = 2 then
    if year % 4 = 0 && (year % 100 ≠ 0 || year % 400 = 0) then 29 else 28
  else if month = 4 || month = 6 || month = 9 || month = 11 then 30
  else 31

def date? (cs : List Char) : Option (List Char × List Char) := do
  let (year, cs) ← fixed? 4 cs
  let (month, cs) ← pair? 1 12 (← expect? '-' cs)
  let (day, cs) ← pair? 1 (daysOf year month) (← expect? '-' cs)
  return (padded 4 year ++ '-' :: padded 2 month ++ '-' :: padded 2 day, cs)

def secondFraction? : Reader (List Char)
  | '.' :: cs =>
    let digits := cs.takeWhile Char.isDigit
    if digits.isEmpty then none
    else
      let kept := ((digits.take 9).reverse.dropWhile (· == '0')).reverse
      some (if kept.isEmpty then [] else '.' :: kept, cs.drop digits.length)
  | cs => some ([], cs)

/-- Reads a time of day; a minute may have a leap second. -/
def time? (cs : List Char) : Option (List Char × List Char) := do
  let (hour, cs) ← pair? 0 23 cs
  let (minute, cs) ← pair? 0 59 (← expect? ':' cs)
  let (second, cs) ← pair? 0 60 (← expect? ':' cs)
  let (fraction, cs) ← secondFraction? cs
  return (padded 2 hour ++ ':' :: padded 2 minute ++ ':' :: padded 2 second ++ fraction, cs)

def hoursAndMinutes? (negative : Bool) (cs : List Char) : Option (List Char × List Char) := do
  let (hour, cs) ← pair? 0 23 cs
  let (minute, cs) ← pair? 0 59 (← expect? ':' cs)
  let mark := if negative && (hour ≠ 0 || minute ≠ 0) then '-' else '+'
  return (mark :: padded 2 hour ++ ':' :: padded 2 minute, cs)

/-- Reads the offset of a time, if there is one. -/
def offset? : Reader (List Char)
  | 'Z' :: cs | 'z' :: cs => some (['Z'], cs)
  | '+' :: cs => hoursAndMinutes? false cs
  | '-' :: cs => hoursAndMinutes? true cs
  | cs => some ([], cs)

/-- Reads a time of day behind a date, if there is one. -/
def timeBehindDate? : Reader (List Char)
  | c :: cs =>
    if c == 'T' || c == 't' || c == ' ' then
      match time? cs with
      | some (time, rest) =>
        (offset? rest).map fun (offset, rest) => ('T' :: time ++ offset, rest)
      | none => some ([], c :: cs)
    else some ([], c :: cs)
  | [] => some ([], [])

/-- Whether a text starts with `count` digits and a character. -/
def startsNumber (count : Nat) (mark : Char) (cs : List Char) : Bool :=
  (fixed? count cs).any fun (_, rest) => rest.head? == some mark

/-- Whether a text starts like a date or a time of day. -/
def startsMoment (cs : List Char) : Bool :=
  startsNumber 4 '-' cs || startsNumber 2 ':' cs

/-- Reads a date, a time of day, or both. -/
def moment? (cs : List Char) : Option (List Char × List Char) :=
  if startsNumber 2 ':' cs then time? cs
  else do
    let (date, rest) ← date? cs
    let (time, rest) ← timeBehindDate? rest
    return (date ++ time, rest)

example : moment? "1979-05-27 07:32:00.500z".toList =
    some ("1979-05-27T07:32:00.5Z".toList, []) := by decide

example : moment? "2023-02-29".toList = none := by decide

end TagTemplate.Toml
