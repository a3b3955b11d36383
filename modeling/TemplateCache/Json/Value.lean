import TemplateCache.Json.Tree

/-!
# JSON values

The value of a document. Members of an object are in ascending order of their names, and of
members with one name the last counts. `Value.ofTree?` refuses text with a lone surrogate, a number
out of range and more than `depthLimit` containers inside each other. An object whose first member
has the name `embeddedName` stands for the document in the text of that member, to which the limit
applies afresh. `Value.text` is the compact form, which escapes only quotes, backslashes and
control characters.
-/

namespace TemplateCache.Json

inductive Value where
  | null
  | bool (value : Bool)
  | number (value : Number)
  | string (value : String)
  | array (items : List Value)
  | object (members : List (String × Value))
  deriving Inhabited

/-- How many containers may be open at once. -/
def depthLimit : Nat := 127

namespace Value

/-- Inserts a member in order, in place of one with the same name. -/
def insertMember (name : String) (value : α) : List (String × α) → List (String × α)
  | [] => [(name, value)]
  | (n, v) :: rest =>
    if name < n then (name, value) :: (n, v) :: rest
    else if name = n then (name, value) :: rest
    else (n, v) :: insertMember name value rest

/-- The name of the member that makes an object stand for the document in its text. -/
def embeddedName : String := "$serde_json::private::RawValue"

/-- Whether the first member of an object has the name for embedded documents. -/
def isEmbedding : List (List Piece × Tree) → Bool
  | [] => false
  | (name, _) :: _ => Tree.string? name == some embeddedName

/-- The text of an embedded document. It has to be all that the object holds. -/
def embedded? : List (List Piece × Tree) → Option String
  | [(_, .text body)] => Tree.string? body
  | _ => none

mutual

/-- The value of a tree below which `room` more containers may be open; `read` reads the documents
that are embedded as text. -/
def ofTreeWith? (read : String → Option Value) (room : Nat) : Tree → Option Value
  | .null => some .null
  | .bool b => some (.bool b)
  | .number l => l.value?.map .number
  | .text body => (Tree.string? body).map .string
  | .array items =>
    match room with
    | 0 => none
    | room + 1 => (ofItems? read room items).map .array
  | .object members =>
    match room with
    | 0 => none
    | room + 1 =>
      if isEmbedding members then (embedded? members).bind read
      else (ofMembers? read room members []).map .object

def ofItems? (read : String → Option Value) (room : Nat) : List Tree → Option (List Value)
  | [] => some []
  | item :: rest => do
    let value ← ofTreeWith? read room item
    let values ← ofItems? read room rest
    return value :: values

/-- Adds the members in order to those read so far. -/
def ofMembers? (read : String → Option Value) (room : Nat) :
    List (List Piece × Tree) → List (String × Value) → Option (List (String × Value))
  | [], done => some done
  | (name, item) :: rest, done => do
    let key ← Tree.string? name
    let value ← ofTreeWith? read room item
    ofMembers? read room rest (insertMember key value done)

end

/-- The value of a whole document with documents embedded less than `levels` deep. -/
def parseWithin? : (levels : Nat) → List UInt8 → Option Value
  | 0, _ => none
  | levels + 1, bytes => do
    ofTreeWith? (fun text => parseWithin? levels text.toUTF8.toList) depthLimit
      (← Tree.parse? bytes)

/-- The value of a whole document given by its bytes. An embedded document is shorter than the one
around it. -/
def parse? (bytes : List UInt8) : Option Value := parseWithin? (bytes.length + 1) bytes

def ofString? (s : String) : Option Value := parse? s.toUTF8.toList

/-- The value of a tree below which `room` more containers may be open. -/
def ofTree? (room : Nat) (t : Tree) : Option Value := ofTreeWith? ofString? room t

/-! ## Compact text -/

def hexDigit (n : Nat) : Char := if n < 10 then Char.ofNat (0x30 + n) else Char.ofNat (0x57 + n)

/-- A character inside quotes. -/
def escape (c : Char) : List Char :=
  if c = '"' then ['\\', '"']
  else if c = '\\' then ['\\', '\\']
  else if c = '\n' then ['\\', 'n']
  else if c = '\r' then ['\\', 'r']
  else if c = '\t' then ['\\', 't']
  else if c = '\x08' then ['\\', 'b']
  else if c = '\x0c' then ['\\', 'f']
  else if c.toNat < 0x20 then
    ['\\', 'u', '0', '0', hexDigit (c.toNat / 16), hexDigit (c.toNat % 16)]
  else [c]

def quote (s : String) : String := String.ofList ('"' :: s.toList.flatMap escape ++ ['"'])

mutual

def text : Value → String
  | .null => "null"
  | .bool b => if b then "true" else "false"
  | .number n => n.text
  | .string s => quote s
  | .array items => "[" ++ textItems items ++ "]"
  | .object members => "\x7b" ++ textMembers members ++ "\x7d"

def textItems : List Value → String
  | [] => ""
  | [item] => text item
  | item :: rest => text item ++ "," ++ textItems rest

def textMembers : List (String × Value) → String
  | [] => ""
  | [(name, value)] => quote name ++ ":" ++ text value
  | (name, value) :: rest => quote name ++ ":" ++ text value ++ "," ++ textMembers rest

end

/-- The text of an object whose members stay in the given order. -/
def recordText (members : List (String × Value)) : String := "\x7b" ++ textMembers members ++ "\x7d"

/-! ## Equality -/

mutual

/-- Equality of values; real numbers are compared as numbers. -/
def same : Value → Value → Bool
  | .null, .null => true
  | .bool a, .bool b => a == b
  | .number a, .number b => a.same b
  | .string a, .string b => a == b
  | .array a, .array b => sameItems a b
  | .object a, .object b => sameMembers a b
  | _, _ => false

def sameItems : List Value → List Value → Bool
  | [], [] => true
  | a :: as, b :: bs => same a b && sameItems as bs
  | _, _ => false

def sameMembers : List (String × Value) → List (String × Value) → Bool
  | [], [] => true
  | (m, a) :: as, (n, b) :: bs => m == n && same a b && sameMembers as bs
  | _, _ => false

end

/-- The member of an object with the given name. -/
def get? (v : Value) (name : String) : Option Value :=
  match v with
  | .object members => members.lookup name
  | _ => none

def ofNat (n : Nat) : Value := .number (.int n)

end Value
end TemplateCache.Json
