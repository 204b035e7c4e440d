import TagTemplate.Json.Token

/-!
Reading structured values.

The reader is a machine that consumes one token at a time.  It keeps the open
containers, innermost first, and what may follow.
-/

namespace TagTemplate.Json

/-- An open container with what it holds so far: the items of an array, last one
first, or the members of an object and the key of the value being read. -/
inductive Container where
  | array (items : List Value)
  | object (members : Keyed Value) (key : String)
deriving Repr

/-- What the reader waits for. -/
inductive Phase where
  /-- a value -/
  | value
  /-- the first item of an array, or its end -/
  | firstItem
  /-- the first key of an object, or its end -/
  | firstKey
  /-- the next key of an object -/
  | nextKey
  /-- the colon behind a key -/
  | colon
  /-- a comma, or the end of the innermost container -/
  | separator
  /-- nothing more: the value is complete -/
  | finished (v : Value)
deriving Repr

structure Reader where
  containers : List Container
  phase : Phase
deriving Repr

namespace Reader

/-- The greatest number of containers that may be open at once. -/
def depthLimit : Nat := 127

def start : Reader := ⟨[], .value⟩

/-- Puts a complete value into the innermost container. -/
def place (v : Value) : List Container → Reader
  | [] => ⟨[], .finished v⟩
  | .array items :: outer => ⟨.array (v :: items) :: outer, .separator⟩
  | .object members key :: outer => ⟨.object (Keyed.insert key v members) key :: outer, .separator⟩

/-- Opens a container, unless too many are open. -/
def opening (container : Container) (phase : Phase) (containers : List Container) :
    Option Reader :=
  if containers.length < depthLimit then some ⟨container :: containers, phase⟩ else none

def beginValue (containers : List Container) : Token → Option Reader
  | .scalar v => some (place v containers)
  | .string s => some (place (.string s) containers)
  | .openArray => opening (.array []) .firstItem containers
  | .openObject => opening (.object [] "") .firstKey containers
  | _ => none

def readKey (containers : List Container) : Token → Option Reader
  | .string key =>
    match containers with
    | .object members _ :: outer => some ⟨.object members key :: outer, .colon⟩
    | _ => none
  | _ => none

def close (containers : List Container) : Token → Option Reader
  | .closeArray =>
    match containers with
    | .array items :: outer => some (place (.array items.reverse) outer)
    | _ => none
  | .closeObject =>
    match containers with
    | .object members _ :: outer => some (place (.object members) outer)
    | _ => none
  | _ => none

def step (reader : Reader) (token : Token) : Option Reader :=
  let containers := reader.containers
  match reader.phase with
  | .value => beginValue containers token
  | .firstItem => (close containers token).or (beginValue containers token)
  | .firstKey => (close containers token).or (readKey containers token)
  | .nextKey => readKey containers token
  | .colon =>
    match token with
    | .colon => some ⟨containers, .value⟩
    | _ => none
  | .separator =>
    match token, containers with
    | .comma, .array _ :: _ => some ⟨containers, .value⟩
    | .comma, .object _ _ :: _ => some ⟨containers, .nextKey⟩
    | token, containers => close containers token
  | .finished _ => none

def result? (reader : Reader) : Option Value :=
  match reader.phase with
  | .finished v => some v
  | _ => none

end Reader

/-- The value a text spells, where it spells exactly one. -/
def Value.parse? (text : String) : Option Value := do
  let tokens ← Token.read? text
  let reader ← tokens.foldlM Reader.step Reader.start
  reader.result?

end TagTemplate.Json
