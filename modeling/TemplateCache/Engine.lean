import TemplateCache.KeyMap

/-!
# Key-value engine

Collections of documents that list their keys in ascending order. An engine takes its time over
every call, and calls can be made to fail: the first fault that fits a call is its outcome.
-/

namespace TemplateCache

inductive EngineCall where
  | get
  | put
  | delete
  | keys
  deriving DecidableEq, Repr

inductive EngineError where
  | unavailable (reason : String)
  | refused (reason : String)
  deriving DecidableEq, Repr

namespace EngineError

def message : EngineError → String
  | unavailable reason => "engine unavailable: " ++ reason
  | refused reason => reason

end EngineError

/-- An error for the calls that fit; what is not given fits any call. -/
structure Fault where
  call : Option EngineCall
  collection : Option String
  key : Option String
  error : EngineError
  deriving DecidableEq, Repr

def Fault.fits (f : Fault) (call : EngineCall) (collection key : String) : Bool :=
  f.call.all (· == call) && f.collection.all (· == collection) && f.key.all (· == key)

structure Engine where
  collections : KeyMap (KeyMap (List UInt8)) := ∅
  /-- How many milliseconds a call takes. -/
  delay : Nat := 0
  faults : List Fault := []
  deriving Inhabited

namespace Engine

/-- The documents of a collection. One that was never written to is empty. -/
def documents (e : Engine) (collection : String) : KeyMap (List UInt8) :=
  (e.collections.get? collection).getD ∅

def get? (e : Engine) (collection key : String) : Option (List UInt8) :=
  (e.documents collection).get? key

def put (e : Engine) (collection key : String) (document : List UInt8) : Engine :=
  { e with
    collections := e.collections.insert collection ((e.documents collection).insert key document) }

def delete (e : Engine) (collection key : String) : Engine :=
  { e with
    collections := e.collections.insert collection ((e.documents collection).erase key) }

/-- The keys behind `after`, in ascending order. -/
def keysBehind (e : Engine) (collection : String) (after : Option String) : List String :=
  (e.documents collection).keys.filter fun key => after.all (· < key)

def fault? (e : Engine) (call : EngineCall) (collection key : String) : Option EngineError :=
  (e.faults.find? fun f => f.fits call collection key).map (·.error)

/-- Makes a call, unless a fault fits it. -/
def attempt {α : Type} (e : Engine) (call : EngineCall) (collection key : String)
    (f : Engine → α × Engine) : Except EngineError α × Engine :=
  match e.fault? call collection key with
  | some error => (.error error, e)
  | none => ((f e).map .ok id)

end Engine
end TemplateCache
