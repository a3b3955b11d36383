import TemplateCache.Compiler.Session
import TemplateCache.Proofs.CodeCache
import TemplateCache.Proofs.Compiler.Flight

/-!
# Errands

What calls other than compiles do to the bench: they register and remove records, clear, and work
on the site. None of this makes a flight or a renderer; what they take away from the cache they
also bar from it. `Chore` lists what they do in single steps, `Sheds` is what each of these steps
keeps to, and `errand_keeps` says so of all these calls.
-/

namespace TemplateCache

variable {π α : Type}

namespace Bench

variable {b : Bench π} {keys : List String} {k name : String} {resolver : Resolver}

/-! ## Invalidating -/

theorem invalidate_fold (keys : List String) (b : Bench π) (k : String) :
    let d := keys.foldl (fun b key =>
      (b.onOverlay (·.eraseCode key)).onState fun s =>
        { s with flights := s.flights.detach key }) b
    d.state.cache = b.state.cache ∧ d.state.registry = b.state.registry ∧
      d.state.flights.all = b.state.flights.all ∧
      d.state.flights.current.get? k =
        (if k ∈ keys then none else b.state.flights.current.get? k) ∧
      d.site.overlay.code.get? k = (if k ∈ keys then none else b.site.overlay.code.get? k) := by
  induction keys generalizing b with
  | nil => simp
  | cons key rest ih =>
      obtain ⟨cache, registry, all, current, code⟩ :=
        ih ((b.onOverlay (·.eraseCode key)).onState fun s =>
          { s with flights := s.flights.detach key })
      refine ⟨cache, registry, all, current.trans ?_, code.trans ?_⟩
      · show (if k ∈ rest then none else (b.state.flights.current.erase key).get? k) = _
        by_cases own : k = key
        · simp [own]
        · simp [own]
      · show (if k ∈ rest then none else (b.site.overlay.code.erase key).get? k) = _
        by_cases own : k = key
        · simp [own]
        · simp [own]

@[simp] theorem cache_invalidate :
    (b.invalidate keys).state.cache = (b.state.cache.invalidate keys).2 :=
  (invalidate_fold keys _ "").1

@[simp] theorem registry_invalidate : (b.invalidate keys).state.registry = b.state.registry :=
  (invalidate_fold keys _ "").2.1

@[simp] theorem flights_invalidate :
    (b.invalidate keys).state.flights.all = b.state.flights.all :=
  (invalidate_fold keys _ "").2.2.1

@[simp] theorem current_invalidate : (b.invalidate keys).state.flights.current.get? k =
    if k ∈ keys then none else b.state.flights.current.get? k :=
  (invalidate_fold keys _ k).2.2.2.1

@[simp] theorem code_invalidate : (b.invalidate keys).site.overlay.code.get? k =
    if k ∈ keys then none else b.site.overlay.code.get? k :=
  (invalidate_fold keys _ k).2.2.2.2

@[simp] theorem content_invalidate :
    (b.invalidate keys).site.overlay.content = b.site.overlay.content := by
  suffices fold : ∀ b : Bench π, (keys.foldl (fun b key =>
      (b.onOverlay (·.eraseCode key)).onState fun s =>
        { s with flights := s.flights.detach key }) b).site.overlay.content =
      b.site.overlay.content from fold _
  induction keys with
  | nil => exact fun _ => rfl
  | cons key rest ih => exact fun b => ih _

theorem medium_invalidate (keys : List String) (b : Bench π) :
    (b.invalidate keys).site.environment = b.site.environment ∧
      (b.invalidate keys).site.own = b.site.own := by
  unfold invalidate
  dsimp only
  generalize same : b.onState _ = d
  have start : d.site = b.site := by rw [← same]; rfl
  rw [← start]
  clear same start
  induction keys generalizing d with
  | nil => exact ⟨rfl, rfl⟩
  | cons key rest ih => exact ih _

/-! ## Registering -/

theorem register_changed {record : ContentRecord}
    (changed : (b.state.registry.register record).1.2.changed = true) :
    (register resolver record b).2 =
      (b.onState fun s => { s with registry := (b.state.registry.register record).2 }).invalidate
        (codeKeys resolver (b.state.registry.register record).1.1) := by
  unfold register
  exact if_pos changed

theorem register_unchanged {record : ContentRecord}
    (same : (b.state.registry.register record).1.2.changed = false) :
    (register resolver record b).2 =
      b.onState fun s => { s with registry := (b.state.registry.register record).2 } := by
  unfold register
  exact if_neg (Bool.eq_false_iff.1 same)

theorem registry_register (record : ContentRecord) :
    (register resolver record b).2.state.registry = (b.state.registry.register record).2 := by
  unfold register
  dsimp only
  split
  · exact registry_invalidate
  · rfl

theorem medium_register (record : ContentRecord) :
    (register resolver record b).2.site.environment = b.site.environment ∧
      (register resolver record b).2.site.own = b.site.own := by
  unfold register
  dsimp only
  split
  · exact medium_invalidate _ _
  · exact ⟨rfl, rfl⟩

/-- The plain code key of a name is among those of its records without parameters. -/
theorem plain_mem_codeKeys {record : ContentRecord} {codeKey : String}
    (plain : record.params = none)
    (coded : resolver.resolve record.name .code none none = .ok codeKey) :
    codeKey ∈ codeKeys resolver record := by
  unfold codeKeys
  rw [plain, coded]
  dsimp only
  split
  · rename_i own
    rw [own]
    exact List.mem_singleton_self _
  · exact List.mem_cons_of_mem _ (List.mem_singleton_self _)

theorem own_mem_codeKeys {record : ContentRecord} :
    resolver.codeKeyOf record.key ∈ codeKeys resolver record := by
  unfold codeKeys
  dsimp only
  split
  · split
    · exact List.mem_singleton_self _
    · exact List.mem_cons_self
  · exact List.mem_singleton_self _

theorem mem_codeKeys {record : ContentRecord} {codeKey : String}
    (there : codeKey ∈ codeKeys resolver record) :
    resolver.codeKeyOf record.key = codeKey ∨
      resolver.resolve record.name .code none none = .ok codeKey := by
  unfold codeKeys at there
  dsimp only at there
  split at there
  · rename_i plain _ coded
    split at there
    · exact .inl (List.mem_singleton.1 there).symm
    · rcases List.mem_cons.1 there with own | other
      · exact .inl own.symm
      · rw [List.mem_singleton.1 other]
        exact .inr coded
  · exact .inl (List.mem_singleton.1 there).symm

/-! ## Removing -/

/-- The code keys that the removal of a name detaches: those of the records that are registered
under it, and the plain one. -/
def detached (resolver : Resolver) (name : String) (b : Bench π) : List String :=
  (b.state.registry.variants name).map (fun record => resolver.codeKeyOf record.key) ++
    (resolver.resolve name .code none none).toOption.toList

theorem cache_eraseName : ∃ keys, (∀ k, k ∈ keys ↔ k ∈ b.detached resolver name) ∧
    (eraseName resolver name b).state.cache =
      ((b.state.cache.invalidate keys).2).dropName name := by
  refine ⟨_, fun k => mem_sorted, ?_⟩
  exact congrArg (CodeCache.dropName · name) cache_invalidate

@[simp] theorem registry_eraseName : (eraseName resolver name b).state.registry =
    (b.state.registry.remove name).2 := registry_invalidate

@[simp] theorem flights_eraseName :
    (eraseName resolver name b).state.flights.all = b.state.flights.all := flights_invalidate

@[simp] theorem current_eraseName : (eraseName resolver name b).state.flights.current.get? k =
    if k ∈ b.detached resolver name then none else b.state.flights.current.get? k :=
  current_invalidate.trans (if_congr mem_sorted rfl rfl)

@[simp] theorem code_eraseName : (eraseName resolver name b).site.overlay.code.get? k =
    if k ∈ b.detached resolver name then none else b.site.overlay.code.get? k :=
  code_invalidate.trans (if_congr mem_sorted rfl rfl)

@[simp] theorem content_eraseName :
    (eraseName resolver name b).site.overlay.content = b.site.overlay.content :=
  content_invalidate

/-- Removing a name bars what began before from the keys that it detaches and from those under
which the name has renderers. -/
theorem isOutdated_eraseName {e : Nat} (begun : e ≤ b.state.cache.epoch) :
    (eraseName resolver name b).state.cache.isOutdated k e = true ↔
      k ∈ b.detached resolver name ∨ k ∈ b.state.cache.keysOf name ∨
        b.state.cache.isOutdated k e = true := by
  obtain ⟨keys, same, cache⟩ : ∃ keys, (∀ k, k ∈ keys ↔ k ∈ b.detached resolver name) ∧
    (eraseName resolver name b).state.cache =
      ((b.state.cache.invalidate keys).2).dropName name := cache_eraseName
  have later : e ≤ (b.state.cache.invalidate keys).2.epoch := by
    rw [CodeCache.epoch_invalidate]
    omega
  rw [cache, CodeCache.isOutdated_dropName later, CodeCache.isOutdated_invalidate begun,
    CodeCache.mem_keysOf, CodeCache.mem_keysOf, CodeCache.get?_invalidate]
  simp only [same]
  by_cases named : k ∈ b.detached resolver name
  · simp [named]
  · simp [named]

/-! ## Shedding -/

/-- Nothing is new on the bench but records, and nothing comes back. -/
structure Sheds (b d : Bench π) : Prop where
  flights : d.state.flights.all = b.state.flights.all
  current : ∀ {k n}, d.state.flights.current.get? k = some n →
    b.state.flights.current.get? k = some n
  code : Site.LosesCode b.site d.site
  cached : ∀ {k record}, d.state.cache.get? k = some record → b.state.cache.get? k = some record
  ages : b.state.cache.Ages d.state.cache
  sound : b.state.cache.Sound → d.state.cache.Sound
  shut : ∀ {k e}, e ≤ b.state.cache.epoch → b.state.cache.Shut k e → d.state.cache.Shut k e

namespace Sheds

variable {d d' : Bench π}

theorem trans (h : b.Sheds d) (h' : d.Sheds d') : b.Sheds d' where
  flights := h'.flights.trans h.flights
  current leads := h.current (h'.current leads)
  code := h.code.trans h'.code
  cached found := h.cached (h'.cached found)
  ages := h.ages.trans h'.ages
  sound start := h'.sound (h.sound start)
  shut begun start := h'.shut (Nat.le_trans begun h.ages.epoch) (h.shut begun start)

/-- Where flights and cache stay as they are, only the site matters. -/
theorem ofSite (flights : d.state.flights = b.state.flights)
    (cache : d.state.cache = b.state.cache) (code : Site.LosesCode b.site d.site) :
    b.Sheds d where
  flights := by rw [flights]
  current leads := by rwa [flights] at leads
  code := code
  cached found := by rwa [cache] at found
  ages := by
    rw [cache]
    exact CodeCache.ages_of_eq rfl rfl
  sound start := by rwa [cache]
  shut _ start := by rwa [cache]

theorem refl (b : Bench π) : b.Sheds b := ofSite rfl rfl fun _ _ => id

/-- What is shed step by step is shed. -/
theorem of_path (h : Relation.ReflTransGen Bench.Sheds b d) : b.Sheds d := by
  induction h with
  | refl => exact .refl b
  | tail _ last ih => exact ih.trans last

end Sheds

theorem sheds_invalidate : b.Sheds (b.invalidate keys) where
  flights := flights_invalidate
  current leads := by
    rw [current_invalidate] at leads
    split at leads
    · exact nomatch leads
    · exact leads
  code key record found := by
    rw [code_invalidate] at found
    split at found
    · exact nomatch found
    · exact found
  cached found := by
    rw [cache_invalidate] at found
    exact CodeCache.cached_invalidate found
  ages := by
    rw [cache_invalidate]
    exact CodeCache.ages_invalidate
  sound start := by
    rw [cache_invalidate]
    exact start.invalidate
  shut begun start := by
    rw [cache_invalidate]
    exact start.invalidate begun

theorem sheds_dropName :
    b.Sheds (b.onState fun s => { s with cache := s.cache.dropName name }) where
  flights := rfl
  current := id
  code _ _ := id
  cached := CodeCache.cached_invalidate
  ages := CodeCache.ages_invalidate
  sound start := start.invalidate
  shut begun start := start.invalidate begun

theorem sheds_register (record : ContentRecord) : b.Sheds (register resolver record b).2 := by
  have entered : b.Sheds (b.onState fun s =>
      { s with registry := (b.state.registry.register record).2 }) :=
    .ofSite rfl rfl fun _ _ => id
  unfold register
  dsimp only
  split
  · exact entered.trans sheds_invalidate
  · exact entered

theorem sheds_eraseName : b.Sheds (eraseName resolver name b) := by
  have removed : b.Sheds (b.onState fun s =>
      { s with registry := (b.state.registry.remove name).2 }) :=
    .ofSite rfl rfl fun _ _ => id
  exact (removed.trans sheds_invalidate).trans sheds_dropName

/-- Only the site may have changed. -/
def SameState (b d : Bench π) : Prop := d.state = b.state

/-- What clearing drops at once. -/
def cleared (b : Bench π) : Bench π :=
  b.onState fun s => { s with watchers := [], registry := ∅, cache := s.cache.clear }

theorem sheds_cleared : b.Sheds b.cleared where
  flights := rfl
  current := id
  code _ _ := id
  cached := nofun
  ages := CodeCache.ages_clear
  sound _ := CodeCache.sound_clear
  shut begun _ := CodeCache.shut_clear begun

/-! ## Chores -/

/-- What a step of a call can do to the bench that neither compiles nor clears. -/
inductive Chore (resolver : Resolver) : Bench π → Bench π → Prop where
  | apart {b d : Bench π} (registry : d.state.registry = b.state.registry)
      (cache : d.state.cache = b.state.cache) (flights : d.state.flights = b.state.flights)
      (code : Site.LosesCode b.site d.site) : Chore resolver b d
  | register {b : Bench π} (record : ContentRecord) :
      Chore resolver b (register resolver record b).2
  | erase {b : Bench π} (name : String) : Chore resolver b (eraseName resolver name b)
  | trans {b d e : Bench π} (first : Chore resolver b d) (second : Chore resolver d e) :
      Chore resolver b e

namespace Chore

variable {d : Bench π}

theorem refl (b : Bench π) : Chore resolver b b := .apart rfl rfl rfl fun _ _ => id

theorem registerAll (records : List ContentRecord) :
    Chore resolver b
      (records.foldl (fun b record => (Bench.register resolver record b).2) b) := by
  induction records generalizing b with
  | nil => exact .refl b
  | cons record rest ih => exact .trans (.register record) ih

theorem sheds (chore : Chore resolver b d) : b.Sheds d := by
  induction chore with
  | apart registry cache flights code => exact .ofSite flights cache code
  | register record => exact sheds_register record
  | erase name => exact sheds_eraseName
  | trans first second ih ih' => exact ih.trans ih'

end Chore

end Bench

/-! ## Commands -/

section

open Bench Job

variable {change : Bench π → Bench π → Prop}

theorem keeps_step {f : Bench π → α × Bench π} (h : ∀ b, change b (f b).2) :
    (Compiling.step f).run.Keeps change := keeps_lift (keeps_modifyGet h)

theorem keeps_gets (same : ∀ b, change b b) (f : Bench π → α) :
    (Compiling.gets f).run.Keeps change :=
  fun b => ⟨same b, trivial⟩

theorem keeps_modify {f : Bench π → Bench π} (h : ∀ b, change b (f b)) :
    (Compiling.modify f).run.Keeps change := fun b => ⟨h b, trivial⟩

theorem keeps_ofExcept (r : Except CompileError α) :
    (Compiling.ofExcept r).run.Keeps change := fun _ => trivial

theorem keeps_onSite {job : Job (Site π) α} {works : Site π → Site π → Prop}
    (h : job.Keeps works) (on : ∀ b site, works b.site site → change b (b.withSite site)) :
    (job.on sitePart).Keeps change :=
  h.on (fun _ _ => rfl) on

theorem keeps_storing {job : Storing π α} {works : Site π → Site π → Prop}
    (h : job.run.Keeps works) (on : ∀ b site, works b.site site → change b (b.withSite site)) :
    (Compiling.storing job).run.Keeps change := keeps_lift (keeps_onSite h on)

variable {c : Compiler π} {resolver : Resolver}

theorem chore_site (b : Bench π) (site : Site π) (loses : Site.LosesCode b.site site) :
    Chore resolver b (b.withSite site) := .apart rfl rfl rfl loses

theorem chore_sameCode (b : Bench π) (site : Site π) (same : Site.SameCode b.site site) :
    Chore resolver b (b.withSite site) := chore_site b site same.losesCode

theorem chore_newToken (settings : CompilerSettings) :
    (Compiling.step (Bench.newToken settings)).run.Keeps (Chore (π := π) resolver) :=
  keeps_step fun _ => .apart rfl rfl rfl fun _ _ => id

theorem register_chores (name : String) (content : Content) :
    (c.register name content).run.Keeps (Chore c.store.resolver) :=
  (keeps_ofExcept _).bindExcept fun _ => keeps_step fun _ => .register _

theorem unregister_chores (lawful : c.store.Lawful) (name : String) :
    (c.unregister name).run.Keeps (Chore c.store.resolver) := by
  refine (keeps_ofExcept _).bindExcept fun key => ?_
  refine (keeps_modify fun b => .erase name).bindExcept fun _ => ?_
  refine (chore_newToken _).bindExcept fun token => ?_
  refine (keeps_storing (lawful.unregister name token) chore_site).bindExcept fun r => ?_
  split
  · exact keeps_pure _
  · exact keeps_throw _

theorem scan_chores (lawful : c.store.Lawful) :
    c.scan.run.Keeps (Chore c.store.resolver) := by
  refine (chore_newToken _).bindExcept fun token => ?_
  refine .bindExcept (keeps_lift (keeps_onSite (lawful.scan token) chore_sameCode))
    fun discovery => ?_
  exact (keeps_modify fun b => .registerAll _).bindExcept fun _ => keeps_ofExcept _

/-- A cancellation concerns the clock only, and the token of what comes next. -/
theorem cancel_keeps (apart : ∀ {b d : Bench π}, d.state.registry = b.state.registry →
      d.state.cache = b.state.cache → d.state.flights = b.state.flights →
      Site.LosesCode b.site d.site → change b d) :
    (Compiling.modify (π := π) Compiler.cancel).run.Keeps change :=
  keeps_modify fun _ => apart rfl rfl rfl fun _ _ => id

/-- A watch begins by taking note of it. -/
theorem watch_keeps (apart : ∀ {b d : Bench π}, d.state.registry = b.state.registry →
      d.state.cache = b.state.cache → d.state.flights = b.state.flights →
      Site.LosesCode b.site d.site → change b d) : c.watch.run.Keeps change := by
  have same (b : Bench π) : change b b := apart rfl rfl rfl fun _ _ => id
  unfold Compiler.watch
  split
  · exact keeps_throw _
  · refine (keeps_gets same _).bindExcept fun b => ?_
    dsimp only
    split
    · exact keeps_pure _
    · split
      · exact fun _ => trivial
      · refine .bindExcept (keeps_modify fun b => ?_) fun _ => keeps_pure _
        exact apart rfl rfl rfl fun _ _ => id

theorem eventAt_chores (lawful : c.store.Lawful) (path : Path) (token : Token) :
    (c.eventAt path token).run.Keeps (Chore resolver) := by
  unfold Compiler.eventAt
  split
  · exact keeps_pure _
  · rename_i name _
    refine (keeps_gets .refl _).bindExcept fun isDir => ?_
    split
    · exact keeps_pure _
    · refine (keeps_storing (lawful.readSource path token) chore_sameCode).bindExcept fun r => ?_
      split
      · exact keeps_pure _
      · refine (keeps_storing (lawful.unregister name token) chore_site).bindExcept fun _ => ?_
        exact keeps_pure _

theorem settlePath_chores (lawful : c.store.Lawful) (path : Path) (token : Token) :
    (c.settlePath path token).run.Keeps (Chore c.store.resolver) := by
  refine (keeps_gets .refl _).bindExcept fun cancelled => ?_
  split
  · exact keeps_pure _
  · refine (eventAt_chores lawful path token).bindExcept fun event => ?_
    split
    · exact keeps_pure _
    · refine keeps_modify fun b => ?_
      split
      · exact .refl b
      · unfold Compiler.apply
        split
        · exact .register _
        · exact .erase _

/-- Every command does chores but a compile and a clearing. -/
theorem errand_chores (lawful : c.store.Lawful) {command : Command}
    (errand : ∀ input, command ≠ .compile input) (stays : ∀ all, command ≠ .clear all) :
    (command.work c).run.Keeps (Chore c.store.resolver) := by
  cases command with
  | compile input => exact absurd rfl (errand input)
  | register name content => exact (register_chores name content).mapExcept
  | unregister name => exact (unregister_chores lawful name).mapExcept
  | scan => exact (scan_chores lawful).mapExcept
  | clear all => exact absurd rfl (stays all)
  | cancel => exact (cancel_keeps .apart).mapExcept
  | watch => exact (watch_keeps .apart).mapExcept
  | settle path token => exact (settlePath_chores lawful path token).mapExcept

theorem clear_keeps (lawful : c.store.Lawful) (all : Bool) : (c.clear all).run.Keeps Sheds := by
  refine .bindExcept (keeps_modify fun b => ?_) fun _ => ?_
  · exact sheds_cleared.trans (.ofSite rfl rfl fun _ _ => id)
  · refine .bindExcept (keeps_step fun _ => .ofSite rfl rfl fun _ _ => id) fun token => ?_
    have stores := lawful.clear_keeps all token
    refine .bindExcept (keeps_storing stores fun _ _ loses => ?_) fun r => ?_
    · exact .ofSite rfl rfl loses
    · split
      · exact keeps_pure _
      · exact keeps_throw _

/-- Every command but a compile keeps to shedding. -/
theorem errand_keeps (lawful : c.store.Lawful) {command : Command}
    (errand : ∀ input, command ≠ .compile input) : (command.work c).run.Keeps Sheds := by
  by_cases clears : ∃ all, command = .clear all
  · obtain ⟨all, rfl⟩ := clears
    exact (clear_keeps lawful all).mapExcept
  · exact (errand_chores lawful errand fun all same => clears ⟨all, same⟩).mono Chore.sheds

/-! ## First stretches -/

/-- What the store does, and drawing a token, do not concern what the compiler remembers. -/
theorem quiet_storing (job : Storing π α) : (Compiling.storing job).run.Keeps SameState := by
  have any : job.run.Keeps fun _ _ => True := keeps_any job.run fun _ _ => trivial
  exact keeps_storing any fun _ _ _ => rfl

theorem quiet_newToken (settings : CompilerSettings) :
    (Compiling.step (Bench.newToken settings)).run.Keeps (SameState (π := π)) :=
  keeps_step fun _ => rfl

/-- Nothing but the site changes along the way. -/
theorem state_of_path {b d : Bench π} (path : Relation.ReflTransGen SameState b d) :
    d.state = b.state := by
  induction path with
  | refl => rfl
  | tail _ same ih => exact Eq.trans same ih

/-- The part of an unregistration that the store does. -/
def unregisterStored (c : Compiler π) (name contentKey : String) : Compiling π Unit := do
  let token ← Compiling.step (Bench.newToken c.settings)
  match ← Compiling.storing (c.store.unregister name token) with
  | .ok () => return ()
  | .error e => throw (.storeFor name contentKey e)

/-- An unregistration begins by removing the name, and goes on in the store. -/
theorem unregister_begins {name contentKey : String}
    (named : c.store.resolver.resolve name .content none none = .ok contentKey) :
    (Command.work c (.unregister name)).run.Begins (eraseName c.store.resolver name)
      SameState := by
  refine ⟨fun _ => ((fun _ => Answer.nothing) <$> unregisterStored c name contentKey).run, ?_,
    fun _ => ?_⟩
  · simp only [Command.work, Compiler.unregister, named]
    rfl
  · refine Keeps.mapExcept ((quiet_newToken _).bindExcept fun token => ?_)
    refine (quiet_storing _).bindExcept fun r => ?_
    split
    · exact keeps_pure _
    · exact keeps_throw _

/-- Ends all watches, and drops what is cleared at once. -/
def clearing (b : Bench π) : Bench π :=
  Clocked.setClock (b.state.watchers.foldl (fun clock w => clock.cancel w.token) (Clocked.clock b))
    b.cleared

/-- The part of a clearing that the store does. -/
def clearStore (c : Compiler π) (all : Bool) (token : Token) : Compiling π Unit := do
  match ← Compiling.storing (c.store.clear all token) with
  | .ok () => return ()
  | .error e => throw (.store e)

theorem clear_work (c : Compiler π) (all : Bool) :
    (Command.work c (.clear all)).run = .act clearing fun _ =>
      .act (fun b => (Bench.newToken c.settings b).2) fun b =>
        ((fun _ => Answer.nothing) <$> clearStore c all (Bench.newToken c.settings b).1).run :=
  rfl

theorem clearStore_begins (lawful : c.store.Lawful) (all : Bool) (token : Token) :
    (clearStore c all token).run.Begins
      (fun b => { b with site := { b.site with overlay := ∅ } }) Sheds := by
  have begun : (Job.on sitePart (c.store.clear all token).run).Begins
      (fun b => { b with site := { b.site with overlay := ∅ } }) Sheds :=
    (lawful.clear all token).on (fun _ _ => rfl) fun _ _ loses => .ofSite rfl rfl loses
  refine .bindExcept (begun.bind fun _ _ => trivial) fun r => ?_
  split
  · exact keeps_pure _
  · exact keeps_throw _

theorem clear_begins (c : Compiler π) (all : Bool) :
    (Command.work c (.clear all)).run.Begins clearing SameState := by
  refine ⟨_, clear_work c all, fun _ b => ⟨rfl, ?_⟩⟩
  refine Keeps.mapExcept ((quiet_storing _).bindExcept fun r => ?_) _
  split
  · exact keeps_pure _
  · exact keeps_throw _

/-- What a clearing does before it waits: besides the state, it clears the overlay. -/
theorem clear_stretch (lawful : c.store.Lawful) (all : Bool) (b : Bench π) :
    let d := ((Command.work c (.clear all)).run.advance b).2
    d.state = b.cleared.state ∧ ∀ key, d.site.overlay.code.get? key = none := by
  intro d
  refine ⟨(state_of_path ((clear_begins c all).advance b).1).trans rfl, fun key => ?_⟩
  have path := (clearStore_begins lawful all
    (Bench.newToken c.settings (clearing b)).1).mapExcept (f := fun _ => Answer.nothing) |>.advance
    (Bench.newToken c.settings (clearing b)).2
  cases found : d.site.overlay.code.get? key with
  | none => rfl
  | some record =>
      have before := (Sheds.of_path path.1).code key record found
      exact nomatch before

end

end TemplateCache
