import TemplateCache.Proofs.Compiler.Serial
import TemplateCache.Proofs.Store.Variants.Files

/-!
# Variants apart in compilers

Content that comes with parameters is a variant, all other content is common. A compiler keeps the
two apart by keys, and by the parameters of records: what it has under keys without a query is
common, and so is every record without parameters. A compile under a code key without a query
therefore returns renderers of common content only, whatever variants were registered, read and
compiled before.
-/

namespace TemplateCache

open Job

variable {π : Type} {generator : Generator} {options : Json.Value}

/-! ## What is kept -/

/-- A registry whose records are common where a request without parameters may be served by them. -/
def Registry.Sorted (k : Common generator options) (r : Registry) : Prop :=
  ∀ key record, r.byKey.get? key = some record → record.key = key ∧ k.Suits record

/-- A bench at which requests without parameters find common content only. -/
structure Bench.Sorted (k : Common generator options) (supply : Supply π) (b : Bench π) :
    Prop where
  site : b.site.Sorted k supply
  registry : b.state.registry.Sorted k
  cache : ∀ {key record}, b.state.cache.get? key = some record → k.Serves key record

namespace Registry

variable {k : Common generator options} {r : Registry} {given record : ContentRecord}
  {name key : String} {plain : Bool}

theorem Sorted.insert (h : r.Sorted k) (suits : k.Suits record) : (r.insert record).Sorted k := by
  intro key found there
  replace there : (r.byKey.insert record.key record).get? key = some found := there
  rw [KeyMap.get?_insert] at there
  split at there
  · cases there
    exact ⟨Eq.symm ‹_›, suits⟩
  · exact h key found there

theorem Sorted.register (h : r.Sorted k) (suits : k.Suits given) :
    (r.register given).2.Sorted k := by
  cases changed : (r.register given).1.2.changed with
  | false =>
      rw [register_unchanged changed]
      exact h
  | true =>
      obtain ⟨overridden, -, entered⟩ := register_changed changed
      rw [entered]
      exact h.insert suits

/-- What is under the key of a registration is common where the record that was given is. -/
theorem Sorted.registered (h : r.Sorted k) (suits : k.Suits given) :
    (r.register given).1.1.key = given.key ∧ k.Suits (r.register given).1.1 :=
  h.register suits _ _ register_stored

theorem Sorted.registerNew (h : r.Sorted k) (suits : k.Suits given) :
    (r.registerNew given).2.Sorted k := by
  unfold Registry.registerNew
  split
  · exact h
  · exact h.insert suits

/-- A record serves by its key, or by its name where it has no parameters. -/
theorem Sorted.serving (h : r.Sorted k) (bare : BareKey key)
    (serves : r.serving name key plain = some record) : k.content record.content := by
  cases known : r.byKey.get? key with
  | some own =>
      rw [serving_known known] at serves
      cases serves
      obtain ⟨same, suits⟩ := h _ _ known
      exact suits (.inl (same.symm ▸ bare))
  | none =>
      rw [serving_unknown known] at serves
      split at serves
      · obtain ⟨other, -, there⟩ := List.exists_of_findSome?_eq_some serves
        obtain ⟨there, none⟩ := Option.filter_eq_some_iff.1 there
        exact (h _ _ there).2 (.inr (Option.isNone_iff_eq_none.1 none))
      · exact nomatch serves

end Registry

namespace Bench

variable {k : Common generator options} {supply : Supply π} {b d : Bench π}
  {resolver : Resolver} {record : ContentRecord}

/-- Invalidating does not concern what a store has besides its overlay. -/
theorem surroundings_invalidate (keys : List String) (b : Bench π) :
    (b.invalidate keys).site.own = b.site.own ∧
      (b.invalidate keys).site.environment = b.site.environment := by
  suffices fold : ∀ b : Bench π, let d := keys.foldl (fun b key =>
      (b.onOverlay (·.eraseCode key)).onState fun s =>
        { s with flights := s.flights.detach key }) b
      d.site.own = b.site.own ∧ d.site.environment = b.site.environment from fold _
  induction keys with
  | nil => exact fun _ => ⟨rfl, rfl⟩
  | cons key rest ih => exact fun b => ih _

namespace Sorted

theorem withFlights (h : b.Sorted k supply) (f : Flights → Flights) :
    (b.withFlights f).Sorted k supply := ⟨h.site, h.registry, h.cache⟩

theorem invalidate (h : b.Sorted k supply) (keys : List String) :
    (b.invalidate keys).Sorted k supply where
  site := by
    obtain ⟨own, shared⟩ := surroundings_invalidate keys b
    have sheds : b.Sheds (b.invalidate keys) := sheds_invalidate
    refine ⟨fun key => ?_, fun key record there => h.site.code key record ?_, ?_, ?_⟩
    · rw [content_invalidate]
      exact h.site.content key
    · exact sheds.code key record there
    · rw [own]
      exact h.site.own
    · rw [shared]
      exact h.site.shared
  registry := by
    rw [registry_invalidate]
    exact h.registry
  cache there bare := by
    rw [cache_invalidate] at there
    exact h.cache (CodeCache.cached_invalidate there) bare

theorem register (h : b.Sorted k supply) (suits : k.Suits record) :
    (Bench.register resolver record b).2.Sorted k supply := by
  have entered : (b.onState fun s => { s with registry :=
      (b.state.registry.register record).2 }).Sorted k supply :=
    ⟨h.site, h.registry.register suits, h.cache⟩
  unfold Bench.register
  dsimp only
  split
  · exact entered.invalidate _
  · exact entered

theorem registerAll {records : List ContentRecord} (h : b.Sorted k supply)
    (suits : ∀ record ∈ records, k.Suits record) :
    (records.foldl (fun b record => (Bench.register resolver record b).2) b).Sorted k supply := by
  induction records generalizing b with
  | nil => exact h
  | cons record rest ih =>
      obtain ⟨first, later⟩ := List.forall_mem_cons.1 suits
      exact ih (h.register first) later

end Sorted

end Bench

/-! ## The parts of a compile -/

namespace Compiling

variable {k : Common generator options} {supply : Supply π} {α : Type} {good : α → Prop}

theorem yields_step {f : Bench π → α × Bench π}
    (h : ∀ b, b.Sorted k supply → (f b).2.Sorted k supply ∧ good (f b).1) :
    Yields (Bench.Sorted k supply) good (step f) := yields_lift h

theorem yields_gets {f : Bench π → α} (h : ∀ b, b.Sorted k supply → good (f b)) :
    Yields (Bench.Sorted k supply) good (gets f) :=
  yields_lift fun b sorted => ⟨sorted, h b sorted⟩

theorem yields_modify {f : Bench π → Bench π}
    (h : ∀ b, b.Sorted k supply → (f b).Sorted k supply) :
    Yields (Bench.Sorted k supply) (fun _ => True) (modify f) :=
  yields_lift fun b sorted => ⟨h b sorted, trivial⟩

theorem yields_naming (r : Except NameError α) :
    Yields (Bench.Sorted k supply) (fun v => r = .ok v) (naming r : Compiling π α) := by
  cases r with
  | ok v =>
      rintro w ⟨⟩
      rfl
  | error e => exact fun _ => nofun

theorem under_onSite {job : Job (Site π) α} (h : job.Under (Site.Sorted k supply) good) :
    (job.on Bench.sitePart).Under (Bench.Sorted k supply) good :=
  h.on (fun _ sorted => sorted.site) fun _ _ site sorted => ⟨site, sorted.registry, sorted.cache⟩

theorem yields_storing {job : Storing π α} (h : Yields (Site.Sorted k supply) good job) :
    Yields (Bench.Sorted k supply) (fun r => ∀ v, r = .ok v → good v) (storing job) :=
  yields_lift (under_onSite h)

end Compiling

section

open Compiling

variable {c : Compiler π} {k : Common c.generator c.settings.generator} {supply : Supply π}
  {address : Address} {codeKey contentKey : String}

theorem yields_newToken (sorts : c.store.Sorts k supply) :
    Yields (Bench.Sorted k supply) (fun _ => True)
      (Compiling.step (Bench.newToken c.settings)) := by
  refine yields_step fun b sorted => ⟨?_, trivial⟩
  exact ⟨sorted.site.setClock sorts.passes _, sorted.registry, sorted.cache⟩

theorem yields_storedCode (sorts : c.store.Sorts k supply)
    (coded : address.key c.store.resolver .code = .ok codeKey) (token : Token) :
    Yields (Bench.Sorted k supply) (k.FindsCode codeKey) (c.storedCode address codeKey token) := by
  unfold Compiler.storedCode
  split
  · refine (yields_storing (sorts.readCode token coded)).bind fun r fine => ?_
    split
    · exact yields_pure (fine _ rfl)
    · exact yields_throw _
    · exact yields_throw _
    · exact yields_pure fun _ => nofun
  · have kept : Yields (Bench.Sorted k supply)
        (fun o : Overlay => k.FindsRenderer codeKey (o.code.get? codeKey))
        (Compiling.gets (·.site.overlay)) :=
      yields_gets fun b sorted => sorted.site.code codeKey
    exact kept.bind fun o fine => yields_pure fine.code

theorem yields_load {name source : String} (common : BareKey codeKey → k.source source) :
    Yields (Bench.Sorted k supply) (k.FindsRenderer codeKey) (c.load name codeKey source) := by
  refine yields_step fun b sorted => ?_
  dsimp only
  split
  · exact ⟨⟨sorted.site, sorted.registry, sorted.cache⟩, fun _ => nofun⟩
  · rename_i renderer loads
    have renders (bare : BareKey codeKey) : k.Renders renderer :=
      .inr ⟨source, common bare, loads⟩
    refine ⟨⟨sorted.site.putCode renders, sorted.registry, sorted.cache⟩, ?_⟩
    rintro _ ⟨⟩
    exact ⟨rfl, renders⟩

/-- A renderer that is there already is common under a key without a query. -/
theorem yields_findCode (sorts : c.store.Sorts k supply)
    (coded : address.key c.store.resolver .code = .ok codeKey) (token : Token) :
    Yields (Bench.Sorted k supply) (k.FindsRenderer codeKey)
      (c.findCode address codeKey token) := by
  refine (yields_storedCode sorts coded token).bind fun code fine => ?_
  split
  · exact yields_pure fun _ => nofun
  · rename_i record
    obtain ⟨own, offers⟩ := fine _ rfl
    refine yields_pure fun _ same => ?_
    cases same
    exact ⟨own record rfl, offers⟩
  · exact yields_load (fine _ rfl).2

/-- What was found is handed on before it is looked at. -/
theorem yields_found {found : Option ContentRecord} {policy : AccessPolicy}
    (fine : k.Finds contentKey found) :
    Yields (Bench.Sorted k supply) (fun record => record.key = contentKey ∧ k.Suits record) (do
      match ← (pure found : Compiling π (Option ContentRecord)) with
      | some record => return record
      | none => throw (.contentNotFound address.name contentKey policy)) := by
  have handed : Yields (Bench.Sorted k supply) (k.Finds contentKey)
      (pure found : Compiling π (Option ContentRecord)) := yields_pure fine
  refine handed.bind fun found fine => ?_
  split
  · exact yields_pure (fine _ rfl)
  · exact yields_throw _

theorem yields_readContent (sorts : c.store.Sorts k supply)
    (keyed : address.key c.store.resolver .content = .ok contentKey)
    (loads : supply.loads address contentKey) (token : Token) :
    Yields (Bench.Sorted k supply) (fun record => record.key = contentKey ∧ k.Suits record)
      (c.readContent address contentKey token) := by
  unfold Compiler.readContent
  dsimp only
  split
  · refine (yields_storing (sorts.readContent token keyed loads)).bind fun r fine => ?_
    split
    · exact yields_found (fine _ rfl)
    · exact yields_throw _
  · have kept : Yields (Bench.Sorted k supply)
        (fun o : Overlay => k.Finds contentKey (o.content.get? contentKey))
        (Compiling.gets (·.site.overlay)) :=
      yields_gets fun b sorted => sorted.site.content contentKey
    exact kept.bind fun o fine => yields_found fine

/-- What is compiled under a key without a query is common. -/
theorem yields_findContent (sorts : c.store.Sorts k supply)
    (keyed : address.key c.store.resolver .content = .ok contentKey)
    (loads : supply.loads address contentKey) (since : Nat) (token : Token) :
    Yields (Bench.Sorted k supply) (fun record => BareKey contentKey → k.content record.content)
      (c.findContent address codeKey contentKey since token) := by
  have known : Yields (Bench.Sorted k supply) (fun registry => registry.Sorted k)
      (Compiling.gets (·.state.registry) : Compiling π Registry) :=
    yields_gets fun b sorted => sorted.registry
  refine known.bind fun registry sorted => ?_
  split
  · exact yields_pure fun bare => sorted.serving bare ‹_›
  -- What was read is registered too, unless its code key has been invalidated meanwhile.
  · refine (yields_readContent sorts keyed loads token).bind fun found ⟨own, suits⟩ => ?_
    refine Yields.seq (yields_modify fun b sorted => ?_) fun _ => yields_pure fun bare => ?_
    · split
      · exact sorted
      · exact ⟨sorted.site, sorted.registry.registerNew suits, sorted.cache⟩
    · exact suits (.inl (own ▸ bare))

theorem yields_storeCode (sorts : c.store.Sorts k supply)
    (coded : address.key c.store.resolver .code = .ok codeKey) {renderer : Renderer}
    (generates : BareKey codeKey → k.Generates renderer) (token : Token) :
    Yields (Bench.Sorted k supply) (fun record => record = ⟨codeKey, address.name, renderer⟩)
      (c.storeCode address codeKey renderer token) := by
  unfold Compiler.storeCode
  split
  · refine (yields_storing (sorts.writeCode token coded generates)).bind fun r fine => ?_
    split
    · exact yields_pure (fine _ rfl)
    · exact yields_throw _
  · exact yields_pure rfl

theorem Bench.Sorted.publish {b : Bench π} {record : CodeRecord} {since : Nat}
    (sorted : b.Sorted k supply) (renders : k.Serves record.key record) :
    (b.withCache fun cache => (cache.insert record since).2).Sorted k supply := by
  refine ⟨sorted.site, sorted.registry, fun {key found} there bare => ?_⟩
  replace there : (b.state.cache.insert record since).2.get? key = some found := there
  unfold CodeCache.insert at there
  split at there
  · exact sorted.cache there bare
  · replace there : (b.state.cache.entries.insert record.key record).get? key = some found := there
    rw [KeyMap.get?_insert] at there
    split at there
    · rename_i own
      cases there
      exact renders (own ▸ bare)
    · exact sorted.cache there bare

theorem Bench.Sorted.refresh {b : Bench π} {key : String} {since : Nat}
    (sorted : b.Sorted k supply) :
    (b.withCache fun cache => cache.refresh key since).Sorted k supply := by
  refine ⟨sorted.site, sorted.registry, fun {k found} there bare => ?_⟩
  refine sorted.cache ?_ bare
  replace there : (b.state.cache.refresh key since).get? k = some found := there
  unfold CodeCache.refresh at there
  split at there
  · exact there
  · exact there

/-- A renderer of common content is common, and remains so where it is kept. -/
theorem yields_compileContent (sorts : c.store.Sorts k supply)
    (coded : address.key c.store.resolver .code = .ok codeKey) {content : Content}
    (common : BareKey codeKey → k.content content) (since : Nat) (token : Token) :
    Yields (Bench.Sorted k supply) (k.Serves codeKey)
      (c.compileContent address codeKey contentKey content since token) := by
  have made : Yields (Bench.Sorted k supply)
      (fun r => ∀ renderer, r = .ok renderer → BareKey codeKey → k.Generates renderer)
      (c.generate content) := by
    refine yields_step fun b sorted => ⟨⟨sorted.site, sorted.registry, sorted.cache⟩, ?_⟩
    exact fun renderer generates bare => ⟨content, common bare, generates⟩
  refine made.bind fun r fine => ?_
  split
  · exact yields_throw _
  · rename_i renderer
    refine (yields_storeCode sorts coded (fine renderer rfl) token).bind fun record same => ?_
    subst same
    have renders (bare : BareKey codeKey) : k.Renders renderer := .inl (fine renderer rfl bare)
    refine Yields.seq (yields_modify fun b sorted => ?_) fun _ => yields_pure renders
    -- Without caching nothing is published, and only the key is no longer stale.
    by_cases caching : c.settings.caching = true
    · simp only [if_pos caching]
      exact sorted.publish renders
    · simp only [if_neg caching]
      exact sorted.refresh

theorem yields_compileRecord (sorts : c.store.Sorts k supply)
    (coded : address.key c.store.resolver .code = .ok codeKey) {given : Option ContentRecord}
    (common : ∀ record, given = some record → BareKey codeKey → k.content record.content)
    (loads : given = none → ∀ key, address.key c.store.resolver .content = .ok key →
      supply.loads address key) (since : Nat) (token : Token) :
    Yields (Bench.Sorted k supply) (k.Serves codeKey)
      (c.compileRecord address codeKey given since token) := by
  refine (yields_naming _).bind fun contentKey keyed => ?_
  dsimp only
  split
  · rename_i record
    exact yields_compileContent sorts coded (common record rfl) since token
  · refine Yields.bind (yields_findContent sorts keyed (loads rfl _ keyed) since token)
      fun found fine => ?_
    refine yields_compileContent sorts coded (fun bare => fine ?_) since token
    exact Address.bareKey_content coded keyed bare

/-- A renderer that is there is published, and made anew otherwise. -/
theorem yields_stored {stored : Option CodeRecord} {since : Nat} {anew : Compiling π CodeRecord}
    (fine : k.FindsRenderer codeKey stored)
    (h : Yields (Bench.Sorted k supply) (k.Serves codeKey) anew) :
    Yields (Bench.Sorted k supply) (k.Serves codeKey)
      (match stored with
      | some record => do
        Compiling.modify (·.onState fun s => { s with cache := (s.cache.insert record since).2 })
        return record
      | none => anew) := by
  split
  · rename_i record
    obtain ⟨own, renders⟩ := fine record rfl
    refine Yields.seq (yields_modify fun b sorted => ?_) fun _ => yields_pure renders
    exact sorted.publish (own ▸ renders)
  · exact h

/-- A compile that has to make or load a renderer makes or loads a common one. -/
theorem yields_compileAnew (sorts : c.store.Sorts k supply)
    (coded : address.key c.store.resolver .code = .ok codeKey) {given : Option ContentRecord}
    (common : ∀ record, given = some record → BareKey codeKey → k.content record.content)
    (loads : given = none → ∀ key, address.key c.store.resolver .content = .ok key →
      supply.loads address key) (since : Nat) :
    Yields (Bench.Sorted k supply) (k.Serves codeKey)
      (c.compileAnew address codeKey given since) := by
  refine (yields_newToken sorts).seq fun token => ?_
  refine (yields_gets (fun _ _ => trivial : ∀ b : Bench π, b.Sorted k supply → True)).seq
    fun cache => ?_
  have anew := yields_compileRecord sorts coded common loads since token
  dsimp only
  split
  · exact (yields_findCode sorts coded token).bind fun stored fine => yields_stored fine anew
  · have nothing : Yields (Bench.Sorted k supply) (k.FindsRenderer codeKey)
        (pure none : Compiling π (Option CodeRecord)) := yields_pure fun _ => nofun
    exact nothing.bind fun stored fine => yields_stored fine anew

/-- Content that is given without parameters is common. -/
theorem yields_registerGiven {input : CompileInput}
    (coded : input.address.key c.store.resolver .code = .ok codeKey)
    (common : ∀ content, input.content = some content → input.address.isBare = true →
      k.content content) :
    Yields (Bench.Sorted k supply) (fun given => given.isSome = input.content.isSome ∧
      ∀ record, given = some record → BareKey codeKey → k.content record.content)
      (c.registerGiven input) := by
  unfold Compiler.registerGiven
  split
  · rename_i nothing
    exact yields_pure ⟨by rw [nothing]; rfl, fun _ => nofun⟩
  · rename_i content full
    refine (yields_naming _).bind fun contentKey keyed => ?_
    have suits : k.Suits (input.record contentKey content) :=
      Common.suits_make keyed (common content full)
    have registers : Yields (Bench.Sorted k supply)
        (fun record => record.key = contentKey ∧ k.Suits record)
        (Compiling.step (Bench.register c.store.resolver (input.record contentKey content))) :=
      yields_step fun b sorted => ⟨sorted.register suits, sorted.registry.registered suits⟩
    refine Under.bind registers fun r fine => ?_
    cases r with
    | error e => exact fun _ => nofun
    | ok stored =>
        obtain ⟨own, suits⟩ := fine stored rfl
        rintro _ ⟨⟩
        refine ⟨by rw [full]; rfl, ?_⟩
        rintro record ⟨⟩ bare
        exact suits (.inl (own ▸ Address.bareKey_content coded keyed bare))

end

end TemplateCache
