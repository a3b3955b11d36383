import TemplateCache.Compiler.Basic

/-!
# Registrations and removals

How records come into the registry of a compiler and leave it, other than by a compile.
-/

namespace TemplateCache.Compiler

variable {π : Type}

/-- A compiler at its bench, with nothing remembered. -/
def start (site : Site π) : Bench π :=
  let (root, clock) := (Clocked.clock site).newToken none
  { state := { root := root }, site := Clocked.setClock clock site }

/-- Registers content explicitly under a plain name. -/
def register (c : Compiler π) (name : String) (content : Content) : Compiling π ContentRecord := do
  let key ← Compiling.naming (c.store.resolver.resolve name .content none none)
  Compiling.step (Bench.register c.store.resolver (.make name key content .explicit none none))

/-- Removes a name from the registry, the cached renderers and the store. -/
def unregister (c : Compiler π) (name : String) : Compiling π Unit := do
  let key ← Compiling.naming (c.store.resolver.resolve name .content none none)
  Compiling.modify (Bench.eraseName c.store.resolver name)
  let token ← Compiling.step (Bench.newToken c.settings)
  match ← Compiling.storing (c.store.unregister name token) with
  | .ok () => return ()
  | .error e => throw (.storeFor name key e)

/-- Registers everything that the store can supply, also where some of it fails. -/
def scan (c : Compiler π) : Compiling π Nat := do
  let token ← Compiling.step (Bench.newToken c.settings)
  let discovery ← ExceptT.lift (Job.on Bench.sitePart (c.store.scan token))
  Compiling.modify fun b =>
    discovery.found.foldl (fun b record => (Bench.register c.store.resolver record b).2) b
  Compiling.ofExcept (discovery.outcome.mapError .store)

/-- Ends all watches and drops everything that is cached. -/
def clear (c : Compiler π) (all : Bool) : Compiling π Unit := do
  Compiling.modify fun b =>
    let clock := b.state.watchers.foldl (fun clock w => clock.cancel w.token) (Clocked.clock b)
    Clocked.setClock clock (b.onState fun s =>
      { s with watchers := [], registry := ∅, cache := s.cache.clear })
  let token ← Compiling.step (Bench.newToken c.settings)
  match ← Compiling.storing (c.store.clear all token) with
  | .ok () => return ()
  | .error e => throw (.store e)

/-- Cancels the operations that run now. Later ones are not affected. -/
def cancel (b : Bench π) : Bench π :=
  let (root, clock) := ((Clocked.clock b).cancel b.state.root).newToken none
  Clocked.setClock clock (b.onState fun s => { s with root := root })

end TemplateCache.Compiler
