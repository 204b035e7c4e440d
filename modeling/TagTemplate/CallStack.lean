import TagTemplate.Error
import TagTemplate.Json.Value

/-!
The call stack: dynamically scoped slots of the calls that are being expanded.

Every level of expansion has a frame.  A call records its name with an empty slot on
the frame it runs in, and handlers reach the slot of the nearest call of a name.
Frames and the entries of a frame are kept newest first, so that the nearest call is
the first one.
-/

namespace TagTemplate

/-- A recorded call: its name and its slot. -/
structure CallStack.Entry where
  name : String
  slot : Option Json.Value
deriving Repr

/-- The frames, newest first, each with its entries, newest first. -/
structure CallStack where
  frames : List (List CallStack.Entry)
deriving Repr

namespace CallStack

def empty : CallStack := ⟨[]⟩

def depth (stack : CallStack) : Nat :=
  stack.frames.length

def push (stack : CallStack) : CallStack :=
  ⟨[] :: stack.frames⟩

/-- Removes the newest frame with its entries. -/
def pop (stack : CallStack) : CallStack :=
  ⟨stack.frames.tail⟩

/-- Records a call with an empty slot on the newest frame, and opens a frame if there is
none. -/
def record (name : String) (stack : CallStack) : CallStack :=
  match stack.frames with
  | frame :: frames => ⟨(⟨name, none⟩ :: frame) :: frames⟩
  | [] => ⟨[[⟨name, none⟩]]⟩

/-- All entries, newest first. -/
def entries (stack : CallStack) : List Entry :=
  stack.frames.flatten

/-- Whether some call of a name is recorded. -/
def contains (name : String) (stack : CallStack) : Bool :=
  stack.frames.any fun frame => frame.any fun entry => entry.name == name

/-- The slot of the nearest call of a name. -/
def get (name : String) (stack : CallStack) : Except TemplateError (Option Json.Value) :=
  match stack.entries.find? fun entry => entry.name == name with
  | some entry => .ok entry.slot
  | none => .error (.callStackMiss name)

/-- Fills the slot of the first entry of a name in a frame, if it has one. -/
def setInFrame (name : String) (value : Json.Value) : List Entry → Option (List Entry)
  | [] => none
  | entry :: rest =>
    if entry.name == name then some ({ entry with slot := some value } :: rest)
    else (setInFrame name value rest).map (entry :: ·)

/-- Fills the slot of the first entry of a name in the first frame that has one. -/
def setInFrames (name : String) (value : Json.Value) :
    List (List Entry) → Option (List (List Entry))
  | [] => none
  | frame :: frames =>
    match setInFrame name value frame with
    | some frame => some (frame :: frames)
    | none => (setInFrames name value frames).map (frame :: ·)

/-- Fills the slot of the nearest call of a name. -/
def set (name : String) (value : Json.Value) (stack : CallStack) :
    Except TemplateError CallStack :=
  match setInFrames name value stack.frames with
  | some frames => .ok ⟨frames⟩
  | none => .error (.callStackMiss name)

end CallStack

end TagTemplate
