/-!
Positions in text are counted in bytes of its UTF-8 form.  An excerpt is the part
of a text around such a position, cut at character boundaries.
-/

namespace TagTemplate.Text

/-- The size of a text in UTF-8 bytes. -/
def byteLength : List Char → Nat
  | [] => 0
  | c :: cs => c.utf8Size + byteLength cs

theorem byteLength_eq (cs : List Char) : byteLength cs = (String.ofList cs).utf8ByteSize := by
  induction cs with
  | nil => rfl
  | cons c cs ih =>
      rw [← List.singleton_append, String.ofList_append, String.utf8ByteSize_append]
      simp [byteLength, ih]

/-- The byte positions between characters, both ends included. -/
def boundariesFrom (start : Nat) : List Char → List Nat
  | [] => [start]
  | c :: cs => start :: boundariesFrom (start + c.utf8Size) cs

/-- The greatest character boundary that is not above `position`. -/
def boundaryBelow (cs : List Char) (position : Nat) : Nat :=
  ((boundariesFrom 0 cs).filter (· ≤ position)).getLastD 0

/-- The least character boundary that is not below `position`, for a position
inside the text. -/
def boundaryAbove (cs : List Char) (position : Nat) : Nat :=
  ((boundariesFrom 0 cs).find? (position ≤ ·)).getD (byteLength cs)

/-- The characters that start at byte `start` or later and before byte `stop`,
in a text whose first character starts at byte `here`. -/
def sliceFrom (here start stop : Nat) : List Char → List Char
  | [] => []
  | c :: cs =>
    let rest := sliceFrom (here + c.utf8Size) start stop cs
    if start ≤ here && here < stop then c :: rest else rest

/-- The part of a text between two character boundaries. -/
def slice (cs : List Char) (start stop : Nat) : List Char :=
  sliceFrom 0 start stop cs

/-- A short excerpt on one line: the characters within `radius` bytes of
`offset`, widened to whole characters, with line feeds spelled out, and with an
ellipsis on each side where text is left out. -/
def excerpt (source : String) (offset radius : Nat) : String :=
  let cs := source.toList
  let size := byteLength cs
  let offset := min offset size
  let start := boundaryBelow cs (offset - radius)
  let stop := boundaryAbove cs (min (offset + radius) size)
  let shown := (slice cs start stop).flatMap fun c => if c == '\n' then ['\\', 'n'] else [c]
  String.ofList <|
    (if 0 < start then "...".toList else []) ++ shown ++
      (if stop < size then "...".toList else [])

example : excerpt "line one\nline two with a tag here" 10 5 = "...one\\nline t..." := by decide

example : excerpt "short" 2 40 = "short" := by decide

example : excerpt "ääää" 3 1 = "...ä..." := by decide

end TagTemplate.Text
