import TemplateCache.Proofs.Compiler.Serial
import TemplateCache.Proofs.Store.Lawful

/-!
# Compilers in memory

What each call of a compiler comes to whose store is in memory and that runs one call at a time. No
content is ever in such a store, so a compile that finds no renderer makes one of the record that
serves it.
-/

namespace TemplateCache

open Job

/-- A compiler whose store is in memory. -/
def Compiler.inMemory (settings : CompilerSettings) (generator : Generator) (resolver : Resolver) :
    Compiler Unit :=
  ⟨settings, Store.memory resolver, generator⟩

/-- What a compile makes of the record that it has found. -/
def Compiler.make {π : Type} (c : Compiler π) (address : Address) (codeKey contentKey : String) :
    Option ContentRecord → Except CompileError CodeRecord
  | none => .error (.contentNotFound address.name contentKey c.settings.policy)
  | some record =>
    match c.generator.generate record.content c.settings.generator with
    | .error e => .error (.generate address.name contentKey e)
    | .ok renderer => .ok ⟨codeKey, address.name, renderer⟩

section

variable {π α : Type} {b : Bench π} {codeKey : String}

/-- The cache after a compile that has made a renderer, or has failed to. -/
def Compiler.cacheAfter (c : Compiler π) (codeKey : String) (since : Nat) (b : Bench π) :
    Except CompileError CodeRecord → CodeCache
  | .ok record => (c.publish codeKey since record b).state.cache
  | .error _ => b.state.cache

/-- What a compile leaves that makes a renderer, or fails to. -/
structure Compiler.Leaves (c : Compiler π) (codeKey : String) (since : Nat) (b : Bench π)
    (result : Except CompileError CodeRecord) (d : Bench π) : Prop where
  registry : d.state.registry = b.state.registry
  content : d.site.overlay.content = b.site.overlay.content
  code : ∀ key record, d.site.overlay.code.get? key = some record →
    b.site.overlay.code.get? key = some record ∨ key = codeKey ∧ result = .ok record
  cache : d.state.cache = c.cacheAfter codeKey since b result

end

section

variable {settings : CompilerSettings} {generator : Generator} {resolver : Resolver}
  {address : Address} {codeKey contentKey : String} {given : Option ContentRecord} {since : Nat}
  {token : Token} {b : Bench Unit}

/-- What is read from a store in memory is what its overlay has. -/
theorem finish_storedCode (coded : address.key resolver .code = .ok codeKey) :
    ((Compiler.inMemory settings generator resolver).storedCode address codeKey
      token).run.finish b = some (.ok ((b.site.overlay.code.get? codeKey).map .live), b) := by
  unfold Compiler.storedCode
  split
  · simp only [Compiler.inMemory, Store.memory, Store.readOverlayCode, coded]
    rfl
  · rfl

theorem finish_readContent (keyed : address.key resolver .content = .ok contentKey)
    (unread : b.site.overlay.content.get? contentKey = none) :
    ((Compiler.inMemory settings generator resolver).readContent address contentKey
      token).run.finish b =
      some (.error (.contentNotFound address.name contentKey settings.policy), b) := by
  unfold Compiler.readContent
  show Job.finish (ExceptT.run
    (if settings.policy.mayRead = true then _ else _ : Compiling Unit _)) b = _
  split
  · simp only [Compiler.inMemory, Store.memory, Store.readOverlayContent, keyed]
    have read : (Compiling.storing (do
        let key ← Storing.naming (.ok contentKey)
        return (← Storing.overlay).content.get? key)).run.finish b =
        some (.ok (.ok none), b) := by
      rw [← unread]
      rfl
    exact (finish_bind_ok read).trans rfl
  · refine (finish_bind_ok (Compiling.finish_gets _)).trans ?_
    rw [unread]
    rfl

theorem finish_storeCode (coded : address.key resolver .code = .ok codeKey) (renderer : Renderer) :
    ((Compiler.inMemory settings generator resolver).storeCode address codeKey renderer
      token).run.finish b =
      some (.ok ⟨codeKey, address.name, renderer⟩, if settings.policy.mayWrite = true then
        b.onOverlay (·.putCode ⟨codeKey, address.name, renderer⟩) else b) := by
  unfold Compiler.storeCode
  show Job.finish (ExceptT.run
    (if settings.policy.mayWrite = true then _ else _ : Compiling Unit _)) b = _
  split
  · simp only [Compiler.inMemory, Store.memory, Store.writeOverlayCode, coded]
    rfl
  · rfl

theorem ends_compileContent (coded : address.key resolver .code = .ok codeKey)
    (record : ContentRecord) :
    ((Compiler.inMemory settings generator resolver).compileContent address codeKey contentKey
      record.content since token).run.Ends (fun r d =>
        r = (Compiler.inMemory settings generator resolver).make address codeKey contentKey
          (some record) ∧
        (Compiler.inMemory settings generator resolver).Leaves codeKey since b r d) b := by
  unfold Compiler.compileContent
  refine Ends.bindExcept ⟨_, _, rfl, ?_⟩
  unfold Compiler.make
  dsimp only
  cases generated : (Compiler.inMemory settings generator resolver).generator.generate
    record.content (Compiler.inMemory settings generator resolver).settings.generator with
  | error e => exact ⟨_, _, rfl, rfl, rfl, rfl, fun _ _ => .inl, rfl⟩
  | ok renderer =>
      refine Ends.bindExcept ⟨_, _, finish_storeCode coded renderer, _, _, rfl, rfl, ?_⟩
      dsimp only
      split
      · refine ⟨rfl, rfl, fun key found there => ?_, rfl⟩
        replace there := (KeyMap.get?_insert _ _ _ _).symm.trans there
        split at there
        · rename_i own
          cases there
          exact .inr ⟨own, rfl⟩
        · exact .inl there
      · exact ⟨rfl, rfl, fun _ _ => .inl, rfl⟩

theorem finish_findContent (keyed : address.key resolver .content = .ok contentKey)
    (unread : b.site.overlay.content.get? contentKey = none) :
    ((Compiler.inMemory settings generator resolver).findContent address codeKey contentKey since
      token).run.finish b =
      match b.state.registry.serving address.name contentKey address.isPlain with
      | some record => some (.ok record, b)
      | none => some (.error (.contentNotFound address.name contentKey settings.policy), b) := by
  unfold Compiler.findContent
  refine (finish_bind_ok (Compiling.finish_gets _)).trans ?_
  cases b.state.registry.serving address.name contentKey address.isPlain with
  | some record => rfl
  | none =>
      have missing : ((Compiler.inMemory settings generator resolver).readContent address
          contentKey token).run.finish b = _ := finish_readContent keyed unread
      exact finish_bind_error missing

theorem ends_compileRecord (coded : address.key resolver .code = .ok codeKey)
    (keyed : address.key resolver .content = .ok contentKey)
    (unread : b.site.overlay.content.get? contentKey = none) :
    ((Compiler.inMemory settings generator resolver).compileRecord address codeKey given since
      token).run.Ends (fun r d =>
        r = (Compiler.inMemory settings generator resolver).make address codeKey contentKey
          (given.or (b.state.registry.serving address.name contentKey address.isPlain)) ∧
        (Compiler.inMemory settings generator resolver).Leaves codeKey since b r d) b := by
  unfold Compiler.compileRecord
  refine Ends.after (Compiling.finish_naming keyed) ?_
  cases given with
  | some record => exact ends_compileContent coded record
  | none =>
      have found : ((Compiler.inMemory settings generator resolver).findContent address codeKey
          contentKey since token).run.finish b = _ := finish_findContent keyed unread
      cases serves : b.state.registry.serving address.name contentKey address.isPlain with
      | some record =>
          rw [serves] at found
          exact Ends.after found (ends_compileContent coded record)
      | none =>
          rw [serves] at found
          exact Ends.bindExcept ⟨_, _, found, rfl, rfl, rfl, fun _ _ => .inl, rfl⟩

/-- Where no renderer is in the overlay, one is made. -/
theorem ends_compileAnew (coded : address.key resolver .code = .ok codeKey)
    (keyed : address.key resolver .content = .ok contentKey)
    (unread : b.site.overlay.content.get? contentKey = none)
    (unkept : settings.caching = true → given = none →
      b.site.overlay.code.get? codeKey = none) :
    ((Compiler.inMemory settings generator resolver).compileAnew address codeKey given
      since).run.Ends (fun r d =>
        r = (Compiler.inMemory settings generator resolver).make address codeKey contentKey
          (given.or (b.state.registry.serving address.name contentKey address.isPlain)) ∧
        (Compiler.inMemory settings generator resolver).Leaves codeKey since b r d) b := by
  let c := Compiler.inMemory settings generator resolver
  let d := (Bench.newToken settings b).2
  -- Taking a token changes nothing that a compile looks at.
  have anew : (c.compileRecord address codeKey given since
      (Bench.newToken settings b).1).run.Ends (fun r u =>
        r = c.make address codeKey contentKey
          (given.or (b.state.registry.serving address.name contentKey address.isPlain)) ∧
        c.Leaves codeKey since b r u) d := by
    refine Ends.mono ?_ (ends_compileRecord coded keyed unread)
    rintro r u ⟨made, leaves⟩
    refine ⟨made, leaves.registry, leaves.content, leaves.code, leaves.cache.trans ?_⟩
    cases r with
    | ok record => rfl
    | error e => rfl
  unfold Compiler.compileAnew
  refine Ends.bindExcept ⟨_, d, rfl, ?_⟩
  refine Ends.bindExcept ⟨_, d, rfl, ?_⟩
  show Ends _ (ExceptT.run (if (settings.caching && given.isNone &&
    !b.state.cache.isStale codeKey) = true then _ else _ : Compiling Unit CodeRecord)) d
  split
  · rename_i asks
    simp only [Bool.and_eq_true, Option.isNone_iff_eq_none] at asks
    have kept : (c.storedCode address codeKey (Bench.newToken settings b).1).run.finish d = _ :=
      finish_storedCode coded
    have missing : d.site.overlay.code.get? codeKey = none := unkept asks.1.1 asks.1.2
    have nothing : (c.findCode address codeKey (Bench.newToken settings b).1).run.finish d =
        some (.ok none, d) := by
      refine (finish_bind_ok kept).trans ?_
      rw [missing]
      rfl
    exact Ends.after nothing anew
  · exact anew

/-- A compile returns the cached renderer, or makes one where there is none. -/
theorem ends_compile (coded : address.key resolver .code = .ok codeKey)
    (keyed : address.key resolver .content = .ok contentKey) (content : Option Content)
    (free : (b.accept resolver address contentKey content).2.state.flights.current.get? codeKey =
      none)
    (unread : (b.accept resolver address contentKey content).2.site.overlay.content.get?
      contentKey = none)
    (unkept : settings.caching = true → content = none → b.state.cache.get? codeKey = none →
      b.site.overlay.code.get? codeKey = none) :
    ((Compiler.inMemory settings generator resolver).compile ⟨address, content⟩).run.Ends
      (fun r d =>
        let (given, b) := b.accept resolver address contentKey content
        (settings.caching = true ∧ d = b ∧
          ∃ record, b.state.cache.get? codeKey = some record ∧ r = .ok record) ∨
        (settings.caching = true → b.state.cache.get? codeKey = none) ∧
        r = (Compiler.inMemory settings generator resolver).make address codeKey contentKey
          (given.or (b.state.registry.serving address.name contentKey address.isPlain)) ∧
        (Compiler.inMemory settings generator resolver).Leaves codeKey b.state.cache.epoch b r d)
      b := by
  have accepted : ((Compiler.inMemory settings generator resolver).registerGiven
      ⟨address, content⟩).run.finish b = some (.ok (b.accept resolver address contentKey content).1,
        (b.accept resolver address contentKey content).2) :=
    Compiler.finish_registerGiven keyed
  unfold Compiler.compile
  refine Ends.after (Compiling.finish_naming coded) ?_
  refine Ends.after accepted ?_
  refine Ends.after (Compiling.finish_gets _) (Ends.after (Compiling.finish_gets _) ?_)
  -- Content that is given is compiled as it is, so the overlay is not asked for code then.
  have unkept' : settings.caching = true → (b.accept resolver address contentKey content).1 = none →
      (b.accept resolver address contentKey content).2.state.cache.get? codeKey = none →
      (b.accept resolver address contentKey content).2.site.overlay.code.get? codeKey = none := by
    cases content with
    | none => exact fun caching _ => unkept caching rfl
    | some content =>
        intro _ given
        cases given
  clear accepted
  generalize b.accept resolver address contentKey content = accepted at *
  obtain ⟨given, d⟩ := accepted
  dsimp only at *
  cases cached : (if (Compiler.inMemory settings generator resolver).settings.caching = true
    then d.state.cache.get? codeKey else none) with
  | some record =>
      split at cached
      · exact ⟨_, _, rfl, .inl ⟨‹_›, rfl, record, cached, rfl⟩⟩
      · cases cached
  | none =>
      have missed (caching : settings.caching = true) : d.state.cache.get? codeKey = none := by
        exact (if_pos caching).symm.trans cached
      have anew : ((Compiler.inMemory settings generator resolver).compileAnew address codeKey given
          d.state.cache.epoch).run.Ends _ (d.withFlights fun f => (f.join codeKey).2) :=
        ends_compileAnew coded keyed unread fun caching bare =>
          unkept' caching bare (missed caching)
      refine ends_share free (anew.mono ?_)
      rintro r u ⟨made, leaves⟩ f
      refine .inr ⟨missed, made, leaves.registry, leaves.content, leaves.code,
        leaves.cache.trans ?_⟩
      cases r with
      | ok record => rfl
      | error e => rfl

end

/-! ## Other calls -/

section

variable {settings : CompilerSettings} {generator : Generator} {resolver : Resolver}
  {name contentKey : String} {b : Bench Unit}

theorem finish_register (named : resolver.resolve name .content none none = .ok contentKey)
    (content : Content) :
    let record := ContentRecord.make name contentKey content .explicit none none
    (Command.work (.inMemory settings generator resolver) (.register name content)).run.finish b =
      some (.ok (.content (Bench.register resolver record b).1),
        (Bench.register resolver record b).2) := by
  simp only [Command.work, Compiler.register, Compiler.inMemory, Store.memory, named]
  rfl

theorem ends_unregister (named : resolver.resolve name .content none none = .ok contentKey) :
    (Command.work (.inMemory settings generator resolver) (.unregister name)).run.Ends (fun r d =>
      r = .ok .nothing ∧ d.state = (Bench.eraseName resolver name b).state ∧
        d.site.overlay = (Bench.eraseName resolver name b).site.overlay.eraseName name) b := by
  simp only [Command.work, Compiler.unregister, Compiler.inMemory, Store.memory, named]
  exact ⟨_, _, rfl, rfl, rfl, rfl⟩

theorem ends_clear (all : Bool) :
    (Command.work (.inMemory settings generator resolver) (.clear all)).run.Ends (fun r d =>
      r = .ok .nothing ∧ d.state = b.cleared.state ∧ d.site.overlay = ∅) b :=
  ⟨_, _, rfl, rfl, rfl, rfl⟩

end

end TemplateCache
