import Mathlib.Data.List.Sort
import TemplateCache.Proofs.Compiler.Transparency

/-!
# Names that were removed

A removal goes by the name, and a look-up goes by the key. Once a name is removed from a compiler in
memory, nothing under its keys is its own: neither the registry nor the renderers that are used
again have anything of it, and what is there belongs to other names whose keys are the same.
-/

namespace TemplateCache

open Job

/-! ## What calls change -/

/-- A call of a compiler in memory, its answer, and what the compiler remembers then. -/
inductive Compiler.Effect (c : Compiler Unit) (b : Bench Unit) :
    Command → Except CompileError Answer → Bench Unit → Prop where
  /-- The name has no key. -/
  | unnamed {command : Command} {name : String} {e : NameError}
      (named : c.store.resolver.resolve name .content none none = .error e)
      (called : (∃ content, command = .register name content) ∨ command = .unregister name) :
      Effect c b command (.error (.naming e)) b
  | unkeyed {input : CompileInput} {e : NameError}
      (coded : input.address.key c.store.resolver .code = .error e) :
      Effect c b (.compile input) (.error (.naming e)) b
  /-- The store has nothing to scan or to watch, and what goes on is cancelled. -/
  | aside {command : Command} {answer : Except CompileError Answer} {d : Bench Unit}
      (other : ¬command.IsCall) (registry : d.state.registry = b.state.registry)
      (cache : d.state.cache = b.state.cache) (overlay : d.site.overlay = b.site.overlay) :
      Effect c b command answer d
  /-- There is a cached renderer. -/
  | recalled {input : CompileInput} {codeKey contentKey : String} {e : Bench Unit}
      {given : Option ContentRecord} {record : CodeRecord}
      (keyed : input.address.key c.store.resolver .content = .ok contentKey)
      (coded : input.address.key c.store.resolver .code = .ok codeKey)
      (accepted : b.accept c.store.resolver input.address contentKey input.content = (given, e))
      (caching : c.settings.caching = true)
      (cached : e.state.cache.get? codeKey = some record) :
      Effect c b (.compile input) (.ok (.code record)) e
  /-- A renderer is made, or cannot be made. -/
  | made {input : CompileInput} {codeKey contentKey : String} {e d : Bench Unit}
      {given : Option ContentRecord}
      (keyed : input.address.key c.store.resolver .content = .ok contentKey)
      (coded : input.address.key c.store.resolver .code = .ok codeKey)
      (accepted : b.accept c.store.resolver input.address contentKey input.content = (given, e))
      (missed : c.settings.caching = true → e.state.cache.get? codeKey = none)
      (leaves : c.Leaves codeKey e.state.cache.epoch e (c.make input.address codeKey contentKey
        (given.or (e.state.registry.serving input.address.name contentKey input.address.isPlain)))
        d) :
      Effect c b (.compile input) ((c.make input.address codeKey contentKey
        (given.or (e.state.registry.serving input.address.name contentKey
          input.address.isPlain))).map .code) d
  | registered {name contentKey : String} (content : Content) {stored : ContentRecord}
      {d : Bench Unit}
      (named : c.store.resolver.resolve name .content none none = .ok contentKey)
      (stores : b.register c.store.resolver
        (.make name contentKey content .explicit none none) = (stored, d)) :
      Effect c b (.register name content) (.ok (.content stored)) d
  | removed {name contentKey : String} {d : Bench Unit}
      (named : c.store.resolver.resolve name .content none none = .ok contentKey)
      (state : d.state = (b.eraseName c.store.resolver name).state)
      (overlay : d.site.overlay =
        (b.eraseName c.store.resolver name).site.overlay.eraseName name) :
      Effect c b (.unregister name) (.ok .nothing) d
  | cleared {all : Bool} {d : Bench Unit} (state : d.state = b.cleared.state)
      (overlay : d.site.overlay = ∅) : Effect c b (.clear all) (.ok .nothing) d

section

variable {settings : CompilerSettings} {generator : Generator} {resolver : Resolver}
  {b d e : Bench Unit} {command : Command} {answer : Except CompileError Answer}
  {address : Address} {contentKey : String} {content : Option Content}
  {given : Option ContentRecord}

theorem Bench.Mirrored.accept {c : Compiler Unit} (mirrored : b.Mirrored c)
    (accepted : b.accept c.store.resolver address contentKey content = (given, e)) :
    e.Mirrored c := by
  cases content with
  | none =>
      cases accepted
      exact mirrored
  | some content =>
      cases accepted
      exact mirrored.register _

theorem ends_effect_compile (mirrored : b.Mirrored (.inMemory settings generator resolver))
    (resting : b.Resting) (input : CompileInput) :
    (Command.work (.inMemory settings generator resolver) (.compile input)).run.Ends
      ((Compiler.inMemory settings generator resolver).Effect b (.compile input)) b := by
  let c := Compiler.inMemory settings generator resolver
  cases coded : input.address.key resolver .code with
  | error e =>
      have refused : (c.compile input).run = .done (.error (.naming e)) :=
        Session.compile_unnamed coded
      refine ⟨.error (.naming e), b, ?_, .unkeyed coded⟩
      exact congrArg (fun job => Job.finish (Job.bind job _) b) refused
  | ok codeKey =>
      obtain ⟨contentKey, keyed⟩ : ∃ key, input.address.key resolver .content = .ok key :=
        Resolver.resolve_ok (Resolver.not_blank coded)
      cases accepted : b.accept resolver input.address contentKey input.content with
      | mk given e =>
          have mirrored' : e.Mirrored c := mirrored.accept accepted
          have rested : e.Resting := resting.accept accepted
          -- A renderer in the overlay is cached too, so one that is not cached is not found there.
          have missing (caching : settings.caching = true) (_ : input.content = none)
              (uncached : b.state.cache.get? codeKey = none) :
              b.site.overlay.code.get? codeKey = none := by
            refine Option.eq_none_iff_forall_ne_some.2 fun record there => ?_
            rw [mirrored.kept caching there] at uncached
            cases uncached
          refine Ends.mapExcept ((ends_compile coded keyed input.content ?_ ?_ missing).mono ?_)
          · rw [accepted]
            exact rested.free codeKey
          · rw [accepted]
            exact mirrored'.unread contentKey
          · rw [accepted]
            rintro r d (⟨caching, rfl, record, cached, rfl⟩ | ⟨missed, rfl, leaves⟩)
            · exact .recalled keyed coded accepted caching cached
            · exact .made keyed coded accepted missed leaves

/-- Every call comes to an end. -/
theorem ends_effect (mirrored : b.Mirrored (.inMemory settings generator resolver))
    (resting : b.Resting) (command : Command) :
    (command.work (.inMemory settings generator resolver)).run.Ends
      ((Compiler.inMemory settings generator resolver).Effect b command) b := by
  cases command with
  | compile input => exact ends_effect_compile mirrored resting input
  | register name content =>
      cases named : resolver.resolve name .content none none with
      | error e =>
          refine ⟨.error (.naming e), b, ?_, .unnamed named (.inl ⟨content, rfl⟩)⟩
          simp only [Command.work, Compiler.register, Compiler.inMemory, Store.memory, named]
          rfl
      | ok key => exact ⟨_, _, finish_register named content, .registered content named rfl⟩
  | unregister name =>
      cases named : resolver.resolve name .content none none with
      | error e =>
          refine ⟨.error (.naming e), b, ?_, .unnamed named (.inr rfl)⟩
          simp only [Command.work, Compiler.unregister, Compiler.inMemory, Store.memory, named]
          rfl
      | ok key =>
          refine (ends_unregister named).mono ?_
          rintro _ d ⟨rfl, state, overlay⟩
          exact .removed named state overlay
  | clear all =>
      refine (ends_clear all).mono ?_
      rintro _ d ⟨rfl, state, overlay⟩
      exact .cleared state overlay
  | scan => exact ⟨_, _, rfl, .aside id rfl rfl rfl⟩
  | cancel => exact ⟨_, _, rfl, .aside id rfl rfl rfl⟩
  | watch => exact ⟨_, _, rfl, .aside id rfl rfl rfl⟩
  | settle path token =>
      show Ends _ (Job.bind (ExceptT.run (Compiling.gets (Job.isCancelled token) >>= fun ended =>
        if ended = true then pure PUnit.unit else _ : Compiling Unit Unit)) _) b
      refine Ends.bind (Ends.bindExcept ⟨_, _, rfl, ?_⟩)
      dsimp only
      split
      · exact ⟨_, _, rfl, _, _, rfl, .aside id rfl rfl rfl⟩
      · exact ⟨_, _, rfl, _, _, rfl, .aside id rfl rfl rfl⟩

end

section

variable {c : Compiler Unit} {b d : Bench Unit} {command : Command}
  {answer : Except CompileError Answer}

theorem Compiler.Effect.mirrored (effect : c.Effect b command answer d) (h : b.Mirrored c)
    (resting : b.Resting) : d.Mirrored c := by
  cases effect with
  | unnamed named called => exact h
  | unkeyed coded => exact h
  | aside other registry cache overlay =>
      refine ⟨?_, ?_⟩
      · rw [overlay]
        exact h.unread
      · rw [overlay, cache]
        exact h.kept
  | recalled keyed coded accepted caching cached => exact h.accept accepted
  | made keyed coded accepted missed leaves =>
      exact (h.accept accepted).leaves (resting.accept accepted).sound.cache missed leaves
  | @registered name contentKey content stored d named stores =>
      have same := h.register (.make name contentKey content .explicit none none)
      rw [stores] at same
      exact same
  | removed named state overlay => exact h.unregister state overlay
  | cleared state overlay => exact Bench.mirrored_blank overlay

/-- What every call keeps that is among some calls, a run of them keeps. Such a run comes to an
end. -/
theorem serve_keeps (settings : CompilerSettings) (generator : Generator) (resolver : Resolver)
    (keeps : Bench Unit → Prop) (among : Command → Prop)
    (step : ∀ {command b answer d}, among command → b.Resting →
      (Compiler.inMemory settings generator resolver).Effect b command answer d →
        keeps b → keeps d)
    {calls : List Command} (listed : ∀ call ∈ calls, among call)
    (mirrored : b.Mirrored (.inMemory settings generator resolver)) (resting : b.Resting)
    (start : keeps b) :
    ∃ answers d, (Compiler.inMemory settings generator resolver).serve calls b =
        some (answers, d) ∧
      d.Mirrored (.inMemory settings generator resolver) ∧ d.Resting ∧ keeps d := by
  induction calls generalizing b with
  | nil => exact ⟨[], b, rfl, mirrored, resting, start⟩
  | cons call rest ih =>
      rw [List.forall_mem_cons] at listed
      obtain ⟨answer, d, ends, effect⟩ := ends_effect mirrored resting call
      have rested : d.Resting :=
        (Compiler.does_of_finish ends).resting Store.memory_lawful resting
      obtain ⟨answers, e, served, fine⟩ := ih listed.2 (effect.mirrored mirrored resting) rested
        (step listed.1 resting effect start)
      refine ⟨answer :: answers, e, ?_, fine⟩
      unfold Compiler.serve
      rw [ends]
      dsimp only
      rw [served]
      rfl

end

/-! ## Where records are filed -/

section

variable {r : Registry} {record : ContentRecord} {name gone : String}

/-- Every record is under a key of its name. -/
def Registry.Filed (r : Registry) : Prop :=
  ∀ key record, r.byKey.get? key = some record → key ∈ r.keysOf record.name

theorem Registry.filed_empty : (∅ : Registry).Filed := nofun

theorem Registry.Filed.register (filed : r.Filed) (given : ContentRecord) :
    (r.register given).2.Filed := by
  cases changed : (r.register given).1.2.changed with
  | false =>
      rw [register_unchanged changed]
      exact filed
  | true =>
      obtain ⟨overridden, -, registry⟩ := register_changed changed
      rw [registry]
      intro key record there
      have found := (KeyMap.get?_insert _ _ _ _).symm.trans there
      split at found
      · rename_i own
        cases found
        exact mem_keysOf_insert.2 (.inl ⟨rfl, own⟩)
      · exact mem_keysOf_insert.2 (.inr (filed key record found))

theorem Registry.get?_remove {key : String} : (r.remove gone).2.byKey.get? key = some record ↔
    r.byKey.get? key = some record ∧ key ∉ r.keysOf gone := by
  unfold remove
  rw [KeyMap.get?_filter, Option.filter_eq_some_iff]
  simp

/-- A removal leaves no record of the name. -/
theorem Registry.Filed.remove_name (filed : r.Filed) {key : String}
    (there : (r.remove gone).2.byKey.get? key = some record) : record.name ≠ gone := by
  obtain ⟨before, kept⟩ := get?_remove.1 there
  rintro rfl
  exact kept (filed key record before)

theorem Registry.Filed.remove (filed : r.Filed) (gone : String) : (r.remove gone).2.Filed := by
  intro key record there
  rw [keysOf_remove, if_neg (filed.remove_name there)]
  exact filed key record (get?_remove.1 there).1

theorem Bench.Filed.accept {resolver : Resolver} {b e : Bench Unit} {address : Address}
    {contentKey : String} {content : Option Content} {given : Option ContentRecord}
    (filed : b.state.registry.Filed)
    (accepted : b.accept resolver address contentKey content = (given, e)) :
    e.state.registry.Filed := by
  cases content with
  | none =>
      cases accepted
      exact filed
  | some content =>
      cases accepted
      rw [Bench.registry_register]
      exact filed.register _

theorem Compiler.Effect.filed {c : Compiler Unit} {b d : Bench Unit} {command : Command}
    {answer : Except CompileError Answer} (effect : c.Effect b command answer d)
    (filed : b.state.registry.Filed) : d.state.registry.Filed := by
  cases effect with
  | unnamed named called => exact filed
  | unkeyed coded => exact filed
  | aside other registry cache overlay =>
      rw [registry]
      exact filed
  | recalled keyed coded accepted caching cached => exact Bench.Filed.accept filed accepted
  | made keyed coded accepted missed leaves =>
      rw [leaves.registry]
      exact Bench.Filed.accept filed accepted
  | @registered name contentKey content stored d named stores =>
      have same := filed.register (.make name contentKey content .explicit none none)
      have registry : (b.register c.store.resolver
          (.make name contentKey content .explicit none none)).2.state.registry = _ :=
        Bench.registry_register _
      rw [stores] at registry
      rw [registry]
      exact same
  | removed named state overlay =>
      rw [state, Bench.registry_eraseName]
      exact filed.remove _
  | cleared state overlay =>
      rw [state]
      exact Registry.filed_empty

end

/-! ## After a removal -/

/-- The calls that neither register anything nor bring content along. -/
def Command.IsBare : Command → Prop
  | .compile input => input.content = none
  | .register _ _ => False
  | _ => True

/-- A renderer under a code key of a name that is not the name's own: it was compiled under another
name, or from a record that another name has under the key of the content. -/
inductive Compiler.Foreign (c : Compiler Unit) (name : String) (r : Registry) (codeKey : String)
    (renderer : CodeRecord) : Prop where
  | compiled (other : renderer.name ≠ name)
  | served {address : Address} {contentKey : String} {record : ContentRecord}
      (same : address.name = name)
      (keyed : address.key c.store.resolver .content = .ok contentKey)
      (coded : address.key c.store.resolver .code = .ok codeKey)
      (there : r.byKey.get? contentKey = some record) (other : record.name ≠ name)
      (made : c.MadeFrom record.content renderer)

/-- Nothing is left of a name but what other names had in the registry when it was removed. -/
structure Bench.Without (c : Compiler Unit) (name : String) (r : Registry) (b : Bench Unit) :
    Prop where
  index : b.state.registry.keysOf name = []
  records : ∀ {key record}, b.state.registry.byKey.get? key = some record →
    record.name ≠ name ∧ r.byKey.get? key = some record
  renderers : c.settings.caching = true → ∀ {codeKey renderer},
    b.state.cache.get? codeKey = some renderer → c.Foreign name r codeKey renderer

/-- The answers to a compile of a name that was removed. -/
inductive Compiler.Misses (c : Compiler Unit) (r : Registry) (b : Bench Unit) (address : Address)
    (contentKey codeKey : String) : Except CompileError Answer → Prop where
  | absent (unfiled : b.state.registry.byKey.get? contentKey = none)
      (uncached : c.settings.caching = true → b.state.cache.get? codeKey = none) :
      Misses c r b address contentKey codeKey
        (.error (.contentNotFound address.name contentKey c.settings.policy))
  | filed {record : ContentRecord} (there : b.state.registry.byKey.get? contentKey = some record)
      (other : record.name ≠ address.name) (before : r.byKey.get? contentKey = some record)
      (uncached : c.settings.caching = true → b.state.cache.get? codeKey = none) :
      Misses c r b address contentKey codeKey
        ((c.make address codeKey contentKey (some record)).map .code)
  | cached {renderer : CodeRecord} (caching : c.settings.caching = true)
      (there : b.state.cache.get? codeKey = some renderer)
      (foreign : c.Foreign address.name r codeKey renderer) :
      Misses c r b address contentKey codeKey (.ok (.code renderer))

section

variable {c : Compiler Unit} {b d : Bench Unit} {r : Registry} {command : Command}
  {answer : Except CompileError Answer} {name : String}

theorem Compiler.name_make {address : Address} {codeKey contentKey : String}
    {found : Option ContentRecord} {made : CodeRecord}
    (makes : c.make address codeKey contentKey found = .ok made) : made.name = address.name := by
  unfold make at makes
  split at makes
  · cases makes
  · split at makes
    · cases makes
    · cases makes
      rfl

theorem Bench.without_eraseName (filed : b.state.registry.Filed) :
    (Bench.eraseName c.store.resolver name b).Without c name
      (Bench.eraseName c.store.resolver name b).state.registry where
  index := by
    rw [Bench.registry_eraseName]
    exact Registry.keysOf_remove.trans (if_pos rfl)
  records there := by
    refine ⟨?_, there⟩
    rw [Bench.registry_eraseName] at there
    exact filed.remove_name there
  renderers _ _ _ there := .compiled (Bench.cached_eraseName.1 there).2.2

/-- What serves a name that was removed is under the key itself. -/
theorem Bench.Without.serving (without : b.Without c name r) {key : String} {plain : Bool} :
    b.state.registry.serving name key plain = b.state.registry.byKey.get? key := by
  cases there : b.state.registry.byKey.get? key with
  | some record => exact Registry.serving_known there
  | none =>
      rw [Registry.serving_unknown there, without.index]
      simp

/-- Until something is registered, a name that was removed stays away. -/
theorem Bench.Without.effect (without : b.Without c name r) (resting : b.Resting)
    (bare : command.IsBare) (effect : c.Effect b command answer d) : d.Without c name r := by
  cases effect with
  | unnamed named called => exact without
  | unkeyed coded => exact without
  | aside other registry cache overlay =>
      refine ⟨?_, ?_, ?_⟩
      · rw [registry]
        exact without.index
      · rw [registry]
        exact without.records
      · rw [cache]
        exact without.renderers
  | @recalled input codeKey contentKey e given record keyed coded accepted caching cached =>
      obtain ⟨address, content⟩ := input
      cases bare
      cases accepted
      exact without
  | @made input codeKey contentKey e d given keyed coded accepted missed leaves =>
      obtain ⟨address, content⟩ := input
      cases bare
      cases accepted
      refine ⟨?_, ?_, fun caching {other renderer} there => ?_⟩
      · rw [leaves.registry]
        exact without.index
      · rw [leaves.registry]
        exact without.records
      · rw [leaves.cache] at there
        cases makes : c.make address codeKey contentKey (Option.or none
            (b.state.registry.serving address.name contentKey address.isPlain)) with
        | error e =>
            rw [makes] at there
            exact without.renderers caching there
        | ok renderer =>
            obtain ⟨served, serves, made, rfl⟩ := Compiler.make_ok makes
            rw [makes, Compiler.get?_cacheAfter resting.sound.cache caching] at there
            split at there
            · rename_i own
              cases there
              by_cases same : address.name = name
              · rw [same, Option.none_or, without.serving] at serves
                obtain ⟨foreign, before⟩ := without.records serves
                exact .served same keyed (own ▸ coded) before foreign made
              · have named : renderer.name = address.name := Compiler.name_make makes
                exact .compiled (named ▸ same)
            · exact without.renderers caching there
  | registered content named stores => exact bare.elim
  | @removed gone contentKey d named state overlay =>
      refine ⟨?_, fun {key record} there => ?_, fun caching {codeKey renderer} there => ?_⟩
      · rw [state, Bench.registry_eraseName]
        refine List.eq_nil_iff_forall_not_mem.2 fun key listed => ?_
        have before := Registry.mem_keysOf_remove listed
        rw [without.index] at before
        exact List.not_mem_nil before
      · rw [state, Bench.registry_eraseName] at there
        exact without.records (Registry.get?_remove.1 there).1
      · rw [state] at there
        exact without.renderers caching (Bench.cached_eraseName.1 there).2.1
  | cleared state overlay =>
      refine ⟨?_, fun {key record} there => ?_, fun caching {codeKey renderer} there => ?_⟩
      · rw [state]
        rfl
      · rw [state] at there
        cases there
      · rw [state] at there
        cases there

/-- A compile without content finds nothing that is the name's own. -/
theorem Bench.Without.misses {address : Address} {contentKey codeKey : String}
    (without : b.Without c address.name r)
    (keyed : address.key c.store.resolver .content = .ok contentKey)
    (coded : address.key c.store.resolver .code = .ok codeKey)
    (effect : c.Effect b (.compile ⟨address, none⟩) answer d) :
    c.Misses r b address contentKey codeKey answer := by
  cases effect with
  | unnamed named called =>
      rcases called with ⟨content, same⟩ | same
      · cases same
      · cases same
  | unkeyed uncoded =>
      rw [coded] at uncoded
      cases uncoded
  | aside other registry cache overlay => exact absurd trivial other
  | recalled keyed' coded' accepted caching cached =>
      cases accepted
      cases coded.symm.trans coded'
      exact .cached caching cached (without.renderers caching cached)
  | made keyed' coded' accepted missed leaves =>
      cases accepted
      cases keyed.symm.trans keyed'
      cases coded.symm.trans coded'
      rw [Option.none_or, without.serving]
      cases there : b.state.registry.byKey.get? contentKey with
      | none => exact .absent there missed
      | some record =>
          obtain ⟨foreign, before⟩ := without.records there
          exact .filed there foreign before missed

/-- A removal that succeeds leaves nothing of the name. -/
theorem Compiler.Effect.without (effect : c.Effect b (.unregister name) (.ok .nothing) d)
    (filed : b.state.registry.Filed) : d.Without c name d.state.registry := by
  cases effect with
  | aside other registry cache overlay => exact absurd trivial other
  | removed named state overlay =>
      obtain ⟨index, records, renderers⟩ := Bench.without_eraseName (c := c) filed
      rw [← state] at index records renderers
      exact ⟨index, records, renderers⟩

end

/-- Whatever was done before, once a removal of a name has succeeded and until something is
registered, a compile of the name finds no content, unless a record of another name is under its
key, or a renderer that is not the name's own is cached under its code key. -/
theorem removed_name_is_absent (settings : CompilerSettings) (generator : Generator)
    (resolver : Resolver) {site : Site Unit} (blank : site.overlay = ∅) (before : List Command)
    (name : String) {after : List Command} (bare : ∀ call ∈ after, call.IsBare) :
    let c := Compiler.inMemory settings generator resolver
    ∃ answers b answer u, c.serve before (Compiler.start site) = some (answers, b) ∧
      (Command.work c (.unregister name)).run.finish b = some (answer, u) ∧
      (answer = .ok .nothing → ∃ answers' d, c.serve after u = some (answers', d) ∧
        ∀ address : Address, address.name = name → ∃ contentKey codeKey,
          address.key resolver .content = .ok contentKey ∧
          address.key resolver .code = .ok codeKey ∧
          (Command.work c (.compile ⟨address, none⟩)).run.Ends (fun answer _ =>
            c.Misses u.state.registry d address contentKey codeKey answer) d) := by
  intro c
  have keyed : site.Keyed := fun key record found => by
    rw [blank] at found
    exact nomatch found
  obtain ⟨answers, b, served, mirrored, resting, filed⟩ :=
    serve_keeps settings generator resolver (fun b => b.state.registry.Filed) (fun _ => True)
      (fun _ _ effect filed => effect.filed filed) (fun _ (_ : _ ∈ before) => trivial)
      (Bench.mirrored_blank blank) (Bench.resting_start keyed) Registry.filed_empty
  obtain ⟨answer, u, removes, removal⟩ := ends_effect mirrored resting (.unregister name)
  refine ⟨answers, b, answer, u, served, removes, ?_⟩
  rintro rfl
  have rested : u.Resting := (Compiler.does_of_finish removes).resting Store.memory_lawful resting
  have without : u.Without c name u.state.registry := removal.without filed
  obtain ⟨answers', d, served', mirrored', resting', left⟩ :=
    serve_keeps settings generator resolver (fun d => d.Without c name u.state.registry)
      Command.IsBare (fun bare resting effect without => without.effect resting bare effect) bare
      (removal.mirrored mirrored resting) rested without
  refine ⟨answers', d, served', ?_⟩
  rintro address rfl
  cases removal with
  | aside other registry cache overlay => exact absurd trivial other
  | removed named state overlay =>
      have full := Resolver.not_blank named
      obtain ⟨contentKey, keyed⟩ : ∃ key, address.key resolver .content = .ok key :=
        Resolver.resolve_ok full
      obtain ⟨codeKey, coded⟩ : ∃ key, address.key resolver .code = .ok key :=
        Resolver.resolve_ok full
      refine ⟨contentKey, codeKey, keyed, coded, ?_⟩
      exact (ends_effect mirrored' resting' _).mono fun effect => left.misses keyed coded effect

/-- What an exact removal would come to: no compile of the name without content finds any. -/
def Compiler.Forgets (c : Compiler Unit) (site : Site Unit) (before : List Command) (name : String)
    (after : List Command) : Prop :=
  ∀ answers b u answers' d, c.serve before (Compiler.start site) = some (answers, b) →
    (Command.work c (.unregister name)).run.finish b = some (.ok .nothing, u) →
    c.serve after u = some (answers', d) →
    ∀ address : Address, address.name = name → ∃ contentKey e,
      (Command.work c (.compile ⟨address, none⟩)).run.finish d =
        some (.error (.contentNotFound name contentKey c.settings.policy), e)

namespace Sample

def memory : Compiler Unit := .inMemory {} generator resolver

/-- A name with a variant. -/
def stored : List Command := [
  .register "a" (.text "plain"),
  .compile ⟨⟨"a", some "txt", none⟩, some (.text "text")⟩]

/-- Calls that neither register anything nor bring content along. -/
def pastime : List Command := [.scan, .compile ⟨⟨"a", none, none⟩, none⟩, .unregister "b"]

/-- Another name for the key of a plain name. -/
def longhand : List Command := [.register "a.html" (.text "x")]

/-- The bench after some calls, the removal of a name, and more calls. -/
def bereft (before after : List Command) : Option (Bench Unit) :=
  (memory.serve before (Compiler.start { own := () })).bind fun (_, b) =>
    ((Command.work memory (.unregister "a")).run.finish b).bind fun (answer, u) =>
      match answer with
      | .ok .nothing => (memory.serve after u).map (·.2)
      | _ => none

theorem bereft_eq_some {before after : List Command} {d : Bench Unit} :
    bereft before after = some d ↔ ∃ answers b u answers',
      memory.serve before (Compiler.start { own := () }) = some (answers, b) ∧
        (Command.work memory (.unregister "a")).run.finish b = some (.ok .nothing, u) ∧
        memory.serve after u = some (answers', d) := by
  constructor
  · intro left
    obtain ⟨⟨answers, b⟩, served, left⟩ := Option.bind_eq_some_iff.1 left
    obtain ⟨⟨answer, u⟩, removes, left⟩ := Option.bind_eq_some_iff.1 left
    dsimp only at left
    split at left
    · obtain ⟨⟨answers', d⟩, served', rfl⟩ := Option.map_eq_some_iff.1 left
      exact ⟨answers, b, u, answers', served, removes, served'⟩
    · cases left
  · rintro ⟨answers, b, u, answers', served, removes, served'⟩
    simp [bereft, served, removes, served']

end Sample

open Sample

theorem variant_is_absent :
    (∀ call ∈ pastime, call.IsBare) ∧
      ∃ d e, bereft stored pastime = some d ∧
        (Command.work memory (.compile ⟨⟨"a", some "txt", none⟩, none⟩)).run.finish d =
          some (.error (.contentNotFound "a" "partials/a.txt" .read), e) := by
  have bare : ∀ call ∈ pastime, call.IsBare := by simp [pastime, Command.IsBare]
  refine ⟨bare, ?_⟩
  -- Neither a record nor a renderer of another name is under the keys of the variant.
  have clean : (bereft stored pastime).map (fun d =>
      (d.state.registry.byKey.get? "partials/a.txt").isNone &&
        (d.state.cache.get? "partials/a.txt.compiled").isNone) = some true := by
    simp only [bereft, Command.work]
    unfold Compiler.unregister Bench.eraseName
    simp only [List.mergeSort_eq_insertionSort (α := String) (· ≤ ·)]
    decide +kernel
  obtain ⟨d, left, clean⟩ := Option.map_eq_some_iff.1 clean
  rw [Bool.and_eq_true, Option.isNone_iff_eq_none, Option.isNone_iff_eq_none] at clean
  obtain ⟨answers, b, u, answers', served, removes, served'⟩ := bereft_eq_some.1 left
  obtain ⟨_, _, _, _, same, same', absent⟩ :=
    removed_name_is_absent {} generator resolver (show ({ own := () } : Site Unit).overlay = ∅ from
      rfl) stored "a" bare
  cases served.symm.trans same
  cases removes.symm.trans same'
  obtain ⟨_, _, same, misses⟩ := absent rfl
  cases served'.symm.trans same
  obtain ⟨contentKey, codeKey, keyed, coded, answer, e, ends, misses⟩ :=
    misses ⟨"a", some "txt", none⟩ rfl
  cases keyed
  cases coded
  refine ⟨d, e, left, ends.trans ?_⟩
  cases misses with
  | absent => rfl
  | filed there => cases clean.1.symm.trans there
  | cached caching there => cases clean.2.symm.trans there

/-- A record of another name under the key of a name outlives the removal of the name. -/
theorem alias_outlives_removal : ¬memory.Forgets { own := () } longhand "a" [] := by
  intro forgets
  have found : ((bereft longhand []).bind fun d =>
      (Command.work memory (.compile ⟨⟨"a", none, none⟩, none⟩)).run.finish d).map
        (fun (answer, _) => source answer) = some (some "x") := by decide +kernel
  cases left : bereft longhand [] with
  | none =>
      rw [left] at found
      cases found
  | some d =>
      obtain ⟨answers, b, u, answers', served, removes, served'⟩ := bereft_eq_some.1 left
      obtain ⟨contentKey, e, missing⟩ :=
        forgets answers b u answers' d served removes served' ⟨"a", none, none⟩ rfl
      rw [left, Option.bind_some, missing] at found
      cases found

end TemplateCache
