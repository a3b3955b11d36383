import TemplateCache.Json.Value

/-!
# Records from JSON

A record with named fields is read from an object or from an array that gives its fields in order.
Unknown members are skipped unread, a field given twice is refused, and so are surplus items of an
array. A field that is absent takes its default, if it has one.
-/

namespace TemplateCache.Json

/-- Reads a tree below which `room` more containers may be open. -/
abbrev Decoder (α : Type) := (room : Nat) → Tree → Option α

namespace Decoder

def value : Decoder Value := fun room t => Value.ofTree? room t

def string : Decoder String
  | _, .text body => Tree.string? body
  | _, _ => none

def bool : Decoder Bool
  | _, .bool b => some b
  | _, _ => none

/-- An integer from zero to `2 ^ 64 - 1`, written without point or exponent. -/
def word : Decoder Nat
  | _, .number l =>
    match l.value? with
    | some (.int (.ofNat n)) => some n
    | _ => none
  | _, _ => none

/-- Null stands for an absent value. -/
def optional (d : Decoder α) : Decoder (Option α)
  | _, .null => some none
  | room, t => (d room t).map some

/-- One of a list of names, as text or as an object whose only member has that name and null. -/
def choice (names : List (String × α)) : Decoder α
  | _, .text body => do names.lookup (← Tree.string? body)
  | 0, _ => none
  | _ + 1, .object [(name, .null)] => do names.lookup (← Tree.string? name)
  | _, _ => none

end Decoder

/-! ## Fields -/

/-- The named fields of a record, each with the tree that was given for it. -/
structure Fields where
  /-- How many more containers may be open inside the record. -/
  room : Nat
  slots : List (String × Option Tree)

namespace Fields

/-- Puts a tree at the place of a name; refuses a place that is taken. Other names change
nothing. -/
def place (name : String) (t : Tree) :
    List (String × Option Tree) → Option (List (String × Option Tree))
  | [] => some []
  | (n, slot) :: rest =>
    if n = name then
      match slot with
      | none => some ((n, some t) :: rest)
      | some _ => none
    else (place name t rest).map ((n, slot) :: ·)

def placeMembers (slots : List (String × Option Tree)) :
    List (List Piece × Tree) → Option (List (String × Option Tree))
  | [] => some slots
  | (name, t) :: rest => do placeMembers (← place (← Tree.string? name) t slots) rest

def placeItems : List (String × Option Tree) → List Tree → Option (List (String × Option Tree))
  | slots, [] => some slots
  | [], _ :: _ => none
  | (n, _) :: slots, t :: rest => (placeItems slots rest).map ((n, some t) :: ·)

/-- The tree given for a field. -/
def get? (f : Fields) (name : String) : Option Tree := (f.slots.lookup name).join

def required (f : Fields) (name : String) (d : Decoder α) : Option α := do
  d f.room (← f.get? name)

def withDefault (f : Fields) (name : String) (d : Decoder α) (default : α) : Option α :=
  match f.get? name with
  | none => some default
  | some t => d f.room t

end Fields

namespace Decoder

/-- The fields of a record that has the given ones. -/
def fields (names : List String) : Decoder Fields
  | 0, _ => none
  | room + 1, .object members =>
    (Fields.placeMembers (names.map fun n => (n, none)) members).map (Fields.mk room)
  | room + 1, .array items =>
    (Fields.placeItems (names.map fun n => (n, none)) items).map (Fields.mk room)
  | _, _ => none

/-- Reads a whole document given by its bytes. -/
def ofBytes? (d : Decoder α) (bytes : List UInt8) : Option α := do
  d depthLimit (← Tree.parse? bytes)

def ofString? (d : Decoder α) (s : String) : Option α := ofBytes? d s.toUTF8.toList

end Decoder
end TemplateCache.Json
