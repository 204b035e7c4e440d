import TagTemplate.Json.Decimal
import TagTemplate.Data.Keyed

/-!
Structured values: the data that variables, call stack slots and structured bodies
hold, with their compact text.
-/

namespace TagTemplate.Json

/-- A number is an integer, or a float given by its shortest decimal text. -/
inductive Number where
  | integer (n : Int)
  | float (d : Decimal)
deriving DecidableEq, Repr

/-- A structured value.  The members of an object are kept in key order. -/
inductive Value where
  | null
  | bool (b : Bool)
  | number (n : Number)
  | string (s : String)
  | array (items : List Value)
  | object (members : List (String × Value))
deriving Repr

instance : Inhabited Value := ⟨.null⟩

def intText (n : Int) : String :=
  if n < 0 then "-" ++ natText n.natAbs else natText n.natAbs

def Number.text : Number → String
  | .integer n => intText n
  | .float d => d.text

/-- A character inside quotes.  Only the quote, the backslash and the control
characters below the space are escaped. -/
def escapeChar (c : Char) : List Char :=
  if c == '"' then ['\\', '"']
  else if c == '\\' then ['\\', '\\']
  else if c == '\n' then ['\\', 'n']
  else if c == '\r' then ['\\', 'r']
  else if c == '\t' then ['\\', 't']
  else if c.toNat = 8 then ['\\', 'b']
  else if c.toNat = 12 then ['\\', 'f']
  else if c.toNat < 32 then
    ['\\', 'u', '0', '0', Nat.digitChar (c.toNat / 16), Nat.digitChar (c.toNat % 16)]
  else [c]

def quote (s : String) : String :=
  String.ofList ('"' :: s.toList.flatMap escapeChar ++ ['"'])

mutual

/-- The compact text of a value: no blanks, members in key order. -/
def Value.text : Value → String
  | .null => "null"
  | .bool b => if b then "true" else "false"
  | .number n => n.text
  | .string s => quote s
  | .array items => "[" ++ ",".intercalate (itemTexts items) ++ "]"
  | .object members => "\x7b" ++ ",".intercalate (memberTexts members) ++ "\x7d"

/-- The texts of the items of an array. -/
def itemTexts : List Value → List String
  | [] => []
  | item :: rest => item.text :: itemTexts rest

/-- The texts of the members of an object. -/
def memberTexts : List (String × Value) → List String
  | [] => []
  | member :: rest => memberText member :: memberTexts rest

def memberText : String × Value → String
  | (key, value) => quote key ++ ":" ++ value.text

end

/-- A value as template text: a string as it is, null as nothing, and anything else
in its compact text. -/
def Value.display : Value → String
  | .string s => s
  | .null => ""
  | other => other.text

example :
    (Value.object [("a", .array [.number (.integer (-1)), .null]), ("b", .string "x\n")]).text =
      "\x7b\"a\":[-1,null],\"b\":\"x\\n\"\x7d" := by decide

end TagTemplate.Json
