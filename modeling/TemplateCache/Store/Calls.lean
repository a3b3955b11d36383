import TemplateCache.Store.Basic

/-!
# Calls of stores

What is asked of a store that is used on its own, and what it answers to calls that are made one
after another.
-/

namespace TemplateCache

inductive StoreCall where
  | readContent (address : Address)
  | writeContent (address : Address) (content : Content)
  | readCode (address : Address)
  | writeCode (address : Address) (renderer : Renderer)
  | unregister (name : String)
  | clear (all : Bool)

inductive StoreAnswer where
  | content (found : Option ContentRecord)
  | written (record : ContentRecord)
  | code (found : Option StoredCode)
  | kept (record : CodeRecord)
  | nothing

namespace Store

variable {π : Type}

/-- The operation that a call comes to. -/
def answer (store : Store π) (token : Token) : StoreCall → Storing π StoreAnswer
  | .readContent address => .content <$> store.readContent address token
  | .writeContent address content => .written <$> store.writeContent address content token
  | .readCode address => .code <$> store.readCode address token
  | .writeCode address renderer => .kept <$> store.writeCode address renderer token
  | .unregister name => (fun _ => .nothing) <$> store.unregister name token
  | .clear all => (fun _ => .nothing) <$> store.clear all token

/-- Answers calls, each of which is made when the one before has ended. -/
def serve (store : Store π) : List (StoreCall × Token) → Site π →
    Option (List (Except StoreError StoreAnswer) × Site π)
  | [], site => some ([], site)
  | (call, token) :: rest, site =>
    match (store.answer token call).run.finish site with
    | none => none
    | some (answer, site) =>
      (store.serve rest site).map fun (answers, site) => (answer :: answers, site)

end Store
end TemplateCache
