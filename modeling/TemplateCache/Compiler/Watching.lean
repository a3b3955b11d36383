import TemplateCache.Compiler.Basic

/-!
# Watching a source tree

A compiler that watches the source tree of its store follows the journal of the files. A changed
path that has settled and still holds a file is read again; one that does not is removed.
-/

namespace TemplateCache

/-- What a settled path comes to. -/
inductive PathChange where
  | updated (record : ContentRecord)
  | removed (name : String)

namespace Watcher

/-- The paths under a watched root that changed after some part of the journal. -/
def changedPaths (root : Path) (files : FileTree) (seen : Nat) : List Path :=
  match files.locate root true with
  | .error _ => []
  | .ok place => (files.journal.drop seen).filterMap fun changed =>
    if place.isPrefixOf changed then
      let names := changed.drop place.length
      if names.isEmpty then some root else some (root.join (Path.ofNames names))
    else none

/-- Takes note of the changes since last time. -/
def follow (w : Watcher) (files : FileTree) (now : Nat) : Watcher :=
  { w with
    seen := files.journal.length
    debounce := (changedPaths w.root files w.seen).foldl (fun d path => d.arrive path.text now)
      w.debounce }

end Watcher

namespace Compiler

variable {π : Type}

/-- Starts to watch the source tree of the store. A root that is watched already stays as it is. -/
def watch (c : Compiler π) : Compiling π Path := do
  match c.store.sourceTree with
  | none => throw (.unsupported (c.store.backend ++ " store cannot be watched"))
  | some root =>
    let b ← Compiling.gets id
    match b.state.watchers.find? fun w => w.root.same root with
    | some w => return w.root
    | none =>
      let files := b.site.environment.files
      if (files.status root).toOption.isNone then throw .watch
      Compiling.modify fun b =>
        let (token, clock) := (Clocked.clock b).newToken c.settings.timeout
        Clocked.setClock clock (b.onState fun s =>
          { s with watchers := s.watchers ++ [⟨root, token, files.journal.length, {}⟩] })
      return root

/-- What the files hold at a settled path now. -/
def eventAt (c : Compiler π) (path : Path) (token : Token) : Compiling π (Option PathChange) := do
  match c.store.nameOf path with
  | none => return none
  | some name =>
    if (← Compiling.gets (·.site.environment.files)).isDir path then return none
    match ← Compiling.storing (c.store.readSource path token) with
    | .ok (some record) => return some (.updated record)
    | _ =>
      let _ ← Compiling.storing (c.store.unregister name token)
      return some (.removed name)

/-- Applies a change. -/
def apply (c : Compiler π) (event : PathChange) (b : Bench π) : Bench π :=
  match event with
  | .updated record => (Bench.register c.store.resolver record b).2
  | .removed name => Bench.eraseName c.store.resolver name b

/-- Acts upon a settled path, unless the watch has ended. -/
def settlePath (c : Compiler π) (path : Path) (token : Token) : Compiling π Unit := do
  unless ← Compiling.gets (Job.isCancelled token) do
    match ← c.eventAt path token with
    | none => return ()
    | some event =>
      Compiling.modify fun b => if Job.isCancelled token b then b else c.apply event b

/-- Lets the changes that were made so far settle. -/
def settle (c : Compiler π) : Compiling π Unit := do
  let now (b : Bench π) : Nat := (Clocked.clock b).now
  let watchers (b : Bench π) (f : Watcher → Watcher) : Bench π :=
    b.onState fun s => { s with watchers := s.watchers.map f }
  Compiling.modify fun b => watchers b fun w => w.follow b.site.environment.files (now b)
  ExceptT.lift (Job.sleep Debounce.window)
  let settled ← Compiling.step fun b =>
    (b.state.watchers.flatMap fun w =>
      (w.debounce.settle (now b)).1.map fun path => (Path.mk path, w.token),
      watchers b fun w => { w with debounce := (w.debounce.settle (now b)).2 })
  settled.forM fun (path, token) => c.settlePath path token

end Compiler
end TemplateCache
