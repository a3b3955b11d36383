import TemplateCache.Proofs.Compiler.Query
import TemplateCache.Proofs.Compiler.Leftovers
import TemplateCache.Proofs.Store.Atomic

/-!
# The policy is a wall

Two compilers with the same settings work over different media, from the same overlay. Where the
policy does not let a compile read, what they do depends on what they remember and on the overlay
only, so they answer all queries alike: the tokens they draw differ, and so may the outcome of a
write, but as long as no write fails nothing else of the media is seen. Where the policy does not
let a compile write, the media are as they were.

`Agree` compares a run of each. It is proved for one function of the compile after the other, in the
order of the calls.
-/

namespace TemplateCache

open Job

variable {π π' α β : Type}

/-! ## Two compilers -/

/-- Compilers that differ in nothing but their media. -/
structure Compiler.Peers (c : Compiler π) (c' : Compiler π') : Prop where
  settings : c'.settings = c.settings
  generator : c'.generator = c.generator
  resolver : c'.store.resolver = c.store.resolver

/-- The benches of two compilers that remember the same, with the same overlay. -/
structure Bench.Twin (b : Bench π) (b' : Bench π') : Prop where
  registry : b'.state.registry = b.state.registry
  cache : b'.state.cache = b.state.cache
  overlay : b'.site.overlay = b.site.overlay

/-- Others do as they like with the media, and leave the compiler and the overlay alone. -/
structure Bench.Behind (b d : Bench π) : Prop where
  state : d.state = b.state
  overlay : Site.SameOverlay b.site d.site

/-- The outcome is that the store has failed to write what the policy lets a compile write. -/
def Compiler.Unkept (c : Compiler π) (r : Except CompileError α) : Prop :=
  c.settings.policy.mayWrite = true ∧ ∃ address codeKey renderer token s t reason,
    (c.store.writeCode address renderer token).run.Runs Site.SameOverlay s (.error reason) t ∧
      r = .error (.storeFor address.name codeKey reason)

/-- The outcomes are the same and leave twin benches, unless a write has failed. -/
def Compiler.Concur (c : Compiler π) (c' : Compiler π') (r r' : Except CompileError α)
    (d : Bench π) (d' : Bench π') : Prop :=
  r' = r ∧ d.Twin d' ∨ c.Unkept r ∨ c'.Unkept r'

/-- From twin benches, an operation of each compiler comes to the same. -/
def Compiling.Agree (c : Compiler π) (c' : Compiler π') (x : Compiling π α) (y : Compiling π' α) :
    Prop :=
  ∀ (b d : Bench π) (b' d' : Bench π') (r r' : Except CompileError α), b.Twin b' →
    x.run.Runs Bench.Behind b r d → y.run.Runs Bench.Behind b' r' d' → c.Concur c' r r' d d'

namespace Bench

variable {b d : Bench π} {b' d' : Bench π'}

theorem Behind.refl (b : Bench π) : b.Behind b := ⟨rfl, rfl⟩

theorem Behind.elsewhere (h : b.Behind d) : b.Elsewhere d := ⟨h.state, h.overlay.sameCode⟩

theorem Twin.behind (twin : b.Twin b') (h : b.Behind d) (h' : b'.Behind d') : d.Twin d' where
  registry := by rw [h.state, h'.state, twin.registry]
  cache := by rw [h.state, h'.state, twin.cache]
  overlay := h'.overlay.trans (twin.overlay.trans h.overlay.symm)

theorem Twin.withFlights (twin : b.Twin b') (f g : Flights → Flights) :
    (b.withFlights f).Twin (b'.withFlights g) := ⟨twin.registry, twin.cache, twin.overlay⟩

/-- What a compiler does with its memory keeps a relation of benches: they have one registry, and
stay related where both change in the same way. -/
structure Tracks (rel : Bench π → Bench π' → Prop) : Prop where
  registry : ∀ {b b'}, rel b b' → b'.state.registry = b.state.registry
  withRegistry : ∀ {b b'} (r : Registry), rel b b' →
    rel (b.onState fun s => { s with registry := r }) (b'.onState fun s => { s with registry := r })
  withCache : ∀ {b b'} (f : CodeCache → CodeCache), rel b b' → rel (b.withCache f) (b'.withCache f)
  withFlights : ∀ {b b'} (f : Flights → Flights), rel b b' →
    rel (b.withFlights f) (b'.withFlights f)
  onOverlay : ∀ {b b'} (f : Overlay → Overlay), rel b b' → rel (b.onOverlay f) (b'.onOverlay f)

section

variable {rel : Bench π → Bench π' → Prop} (tracks : Tracks rel)
include tracks

theorem Tracks.invalidate (related : rel b b') (keys : List String) :
    rel (b.invalidate keys) (b'.invalidate keys) := by
  have dropped := tracks.withCache (fun cache => (cache.invalidate keys).2) related
  exact List.foldl_rel dropped fun key _ e e' still =>
    tracks.withFlights (·.detach key) (tracks.onOverlay (·.eraseCode key) still)

/-- A registration has the same outcome on both benches. -/
theorem Tracks.register (related : rel b b') (resolver : Resolver) (record : ContentRecord) :
    (Bench.register resolver record b').1 = (Bench.register resolver record b).1 ∧
      rel (Bench.register resolver record b).2 (Bench.register resolver record b').2 := by
  unfold Bench.register
  rw [tracks.registry related]
  refine ⟨rfl, ?_⟩
  have entered := tracks.withRegistry (b.state.registry.register record).2 related
  dsimp only
  split
  · exact tracks.invalidate entered _
  · exact entered

theorem Tracks.accept (related : rel b b') (resolver : Resolver) (address : Address)
    (contentKey : String) (content : Option Content) :
    (b'.accept resolver address contentKey content).1 =
        (b.accept resolver address contentKey content).1 ∧
      rel (b.accept resolver address contentKey content).2
        (b'.accept resolver address contentKey content).2 := by
  cases content with
  | none => exact ⟨rfl, related⟩
  | some content =>
      obtain ⟨same, still⟩ := tracks.register related resolver
        ((CompileInput.mk address (some content)).record contentKey content)
      exact ⟨congrArg some same, still⟩

end

theorem tracks_twin : Tracks (Twin : Bench π → Bench π' → Prop) where
  registry twin := twin.registry
  withRegistry _ twin := ⟨rfl, twin.cache, twin.overlay⟩
  withCache f twin := ⟨twin.registry, congrArg f twin.cache, twin.overlay⟩
  withFlights f twin := twin.withFlights f f
  onOverlay f twin := ⟨twin.registry, twin.cache, congrArg f twin.overlay⟩

end Bench

/-! ## Rules of agreement -/

section

variable {c : Compiler π} {c' : Compiler π'} {r : Except CompileError α}

theorem Compiler.Unkept.fails (h : c.Unkept r) : ∃ e, r = .error e := by
  obtain ⟨-, address, codeKey, renderer, token, s, t, reason, -, same⟩ := h
  exact ⟨_, same⟩

/-- What fails for a write goes on failing for it. -/
theorem Compiler.Unkept.error {e : CompileError} (h : c.Unkept (.error e : Except _ α)) :
    c.Unkept (.error e : Except _ β) := by
  obtain ⟨writes, address, codeKey, renderer, token, s, t, reason, fails, same⟩ := h
  cases same
  exact ⟨writes, address, codeKey, renderer, token, s, t, reason, fails, rfl⟩

theorem Compiler.Concur.map {r' : Except CompileError α} {d : Bench π} {d' : Bench π'}
    (h : c.Concur c' r r' d d') (f : α → β) : c.Concur c' (r.map f) (r'.map f) d d' := by
  rcases h with ⟨rfl, twin⟩ | unkept | unkept
  · exact .inl ⟨rfl, twin⟩
  · obtain ⟨e, rfl⟩ := unkept.fails
    exact .inr (.inl unkept.error)
  · obtain ⟨e, rfl⟩ := unkept.fails
    exact .inr (.inr unkept.error)

end

namespace Compiling

variable {c : Compiler π} {c' : Compiler π'}

theorem Agree.bind {x : Compiling π α} {y : Compiling π' α} {f : α → Compiling π β}
    {g : α → Compiling π' β} (h : Agree c c' x y) (hf : ∀ v, Agree c c' (f v) (g v)) :
    Agree c c' (x >>= f) (y >>= g) := by
  intro b d b' d' r r' twin runs runs'
  rcases runs.of_bindExcept with ⟨v, u, first, second⟩ | ⟨e, first, rfl⟩
  · rcases runs'.of_bindExcept with ⟨v', u', first', second'⟩ | ⟨e', first', rfl⟩
    · rcases h _ _ _ _ _ _ twin first first' with ⟨same, twins⟩ | unkept | unkept
      · cases same
        exact hf _ _ _ _ _ _ _ twins second second'
      · exact nomatch unkept.fails
      · exact nomatch unkept.fails
    · rcases h _ _ _ _ _ _ twin first first' with ⟨same, -⟩ | unkept | unkept
      · exact nomatch same
      · exact nomatch unkept.fails
      · exact .inr (.inr unkept.error)
  · rcases runs'.of_bindExcept with ⟨v', u', first', second'⟩ | ⟨e', first', rfl⟩
    · rcases h _ _ _ _ _ _ twin first first' with ⟨same, -⟩ | unkept | unkept
      · exact nomatch same
      · exact .inr (.inl unkept.error)
      · exact nomatch unkept.fails
    · rcases h _ _ _ _ _ _ twin first first' with ⟨same, twins⟩ | unkept | unkept
      · cases same
        exact .inl ⟨rfl, twins⟩
      · exact .inr (.inl unkept.error)
      · exact .inr (.inr unkept.error)

theorem Agree.map {x : Compiling π α} {y : Compiling π' α} (h : Agree c c' x y) (f : α → β) :
    Agree c c' (f <$> x) (f <$> y) := by
  intro b d b' d' r r' twin runs runs'
  obtain ⟨found, works, rfl⟩ := runs.of_map
  obtain ⟨found', works', rfl⟩ := runs'.of_map
  exact (h _ _ _ _ _ _ twin works works').map f

theorem agree_ofExcept (r : Except CompileError α) :
    Agree c c' (ofExcept r) (ofExcept r) := by
  intro b d b' d' _ _ twin runs runs'
  cases runs
  cases runs'
  exact .inl ⟨rfl, twin⟩

theorem agree_pure (v : α) : Agree c c' (pure v) (pure v) := agree_ofExcept (.ok v)

theorem agree_throw (e : CompileError) :
    Agree c c' (throw e : Compiling π α) (throw e) := agree_ofExcept (.error e)

/-- Steps may have values that are not the same, if what follows does not depend on them. -/
theorem agree_steps {f : Bench π → α × Bench π} {g : Bench π' → α × Bench π'}
    {next : α → Compiling π β} {next' : α → Compiling π' β}
    (h : ∀ {b b'}, b.Twin b' → (f b).2.Twin (g b').2)
    (hf : ∀ v v', Agree c c' (next v) (next' v')) :
    Agree c c' (step f >>= next) (step g >>= next') :=
  fun _ _ _ _ _ _ twin runs runs' =>
    hf _ _ _ _ _ _ _ _ (h twin) (runs_step runs) (runs_step runs')

theorem agree_step {f : Bench π → α × Bench π} {g : Bench π' → α × Bench π'}
    (h : ∀ {b b'}, b.Twin b' → (g b').1 = (f b).1 ∧ (f b).2.Twin (g b').2) :
    Agree c c' (step f) (step g) := by
  intro b d b' d' r r' twin runs runs'
  cases runs with
  | act rest =>
      cases rest
      cases runs' with
      | act rest =>
          cases rest
          exact .inl ⟨congrArg Except.ok (h twin).1, (h twin).2⟩

theorem agree_gets {f : Bench π → α} {g : Bench π' → α}
    (h : ∀ {b b'}, b.Twin b' → g b' = f b) : Agree c c' (gets f) (gets g) :=
  agree_step (f := fun b => (f b, b)) (g := fun b => (g b, b)) fun twin => ⟨h twin, twin⟩

theorem agree_modify {f : Bench π → Bench π} {g : Bench π' → Bench π'}
    (h : ∀ {b b'}, b.Twin b' → (f b).Twin (g b')) : Agree c c' (modify f) (modify g) :=
  agree_step (f := fun b => ((), f b)) (g := fun b => ((), g b)) fun twin => ⟨rfl, h twin⟩

end Compiling

/-! ## Compiles without reading -/

namespace Compiler

open Compiling

variable {c : Compiler π} {c' : Compiler π'} {address : Address} {codeKey contentKey : String}
  {given : Option ContentRecord} {since : Nat} {token token' : Token}

section

variable (peers : c.Peers c') (unread : c.settings.policy.mayRead = false)

include peers unread

theorem agree_storedCode : Agree c c' (c.storedCode address codeKey token)
    (c'.storedCode address codeKey token') := by
  unfold storedCode
  simp only [peers.settings, unread, Bool.false_eq_true, if_false]
  exact (agree_gets fun twin => twin.overlay).bind fun o => agree_pure _

theorem agree_findCode : Agree c c' (c.findCode address codeKey token)
    (c'.findCode address codeKey token') := by
  unfold findCode
  refine (agree_storedCode peers unread).bind fun found => ?_
  split
  · exact agree_pure _
  · exact agree_pure _
  · rename_i source
    unfold load
    rw [peers.generator, peers.settings]
    refine agree_step fun twin => ?_
    dsimp only
    split
    · exact ⟨rfl, twin.registry, twin.cache, twin.overlay⟩
    · exact ⟨rfl, twin.registry, twin.cache, congrArg (Overlay.putCode · _) twin.overlay⟩

theorem agree_readContent : Agree c c' (c.readContent address contentKey token)
    (c'.readContent address contentKey token') := by
  simp only [readContent_eq, peers.settings, unread, Bool.false_eq_true, if_false]
  refine (agree_gets fun twin => twin.overlay).bind fun o => ?_
  cases o.content.get? contentKey with
  | some record => exact agree_pure record
  | none =>
      unfold deliver
      rw [peers.settings]
      exact agree_throw _

theorem agree_findContent : Agree c c' (c.findContent address codeKey contentKey since token)
    (c'.findContent address codeKey contentKey since token') := by
  unfold findContent
  refine (agree_gets fun twin => twin.registry).bind fun registry => ?_
  split
  · exact agree_pure _
  · refine (agree_readContent peers unread).bind fun found => ?_
    refine (agree_modify fun twin => ?_).bind fun _ => agree_pure _
    rw [twin.cache]
    split
    · exact twin
    · exact ⟨congrArg (fun r => (Registry.registerNew r found).2) twin.registry, twin.cache,
        twin.overlay⟩

end

/-- Where a write does not fail, the renderer is in the overlay. -/
theorem runs_storeCode (commits : c.store.Commits) {renderer : Renderer} {b d : Bench π}
    {r : Except CompileError CodeRecord} (coded : address.key c.store.resolver .code = .ok codeKey)
    (runs : (c.storeCode address codeKey renderer token).run.Runs Bench.Behind b r d) :
    c.Unkept r ∨ r = .ok ⟨codeKey, address.name, renderer⟩ ∧ d.state = b.state ∧
      d.site.overlay = if c.settings.policy.mayWrite
        then b.site.overlay.putCode ⟨codeKey, address.name, renderer⟩ else b.site.overlay := by
  have stays {b d : Bench π} (changed : b.Behind d) :
      d.state = b.state ∧ Site.SameOverlay b.site d.site := ⟨changed.state, changed.overlay⟩
  unfold storeCode at runs
  split at runs
  · rename_i writes
    rcases runs.of_bindExcept with ⟨found, u, first, second⟩ | ⟨e, fails, -⟩
    case inr =>
      obtain ⟨_, failed, -⟩ := runs_storing stays fails
      exact nomatch failed
    obtain ⟨_, same, works, kept⟩ := runs_storing stays first
    cases same
    have outcome := commits.writeCode address renderer token works
    cases found with
    | error e =>
        cases second
        exact .inl ⟨writes, address, codeKey, renderer, token, _, _, e, works, rfl⟩
    | ok record =>
        cases second
        obtain ⟨⟨key, named, rfl⟩, v, around, put⟩ := outcome
        cases coded.symm.trans named
        refine .inr ⟨rfl, kept, ?_⟩
        rw [if_pos writes, put]
        exact congrArg (Overlay.putCode · _) (around.same (f := Site.overlay) id id)
  · cases runs
    rename_i spared
    exact .inr ⟨rfl, rfl, (if_neg spared).symm⟩

section

variable (peers : c.Peers c') (commits : c.store.Commits) (commits' : c'.store.Commits)
  (coded : address.key c.store.resolver .code = .ok codeKey)

include peers commits commits' coded

theorem agree_storeCode {renderer : Renderer} :
    Agree c c' (c.storeCode address codeKey renderer token)
      (c'.storeCode address codeKey renderer token') := by
  intro b d b' d' r r' twin runs runs'
  rcases runs_storeCode commits coded runs with unkept | ⟨rfl, state, overlay⟩
  · exact .inr (.inl unkept)
  · have coded' : address.key c'.store.resolver .code = .ok codeKey := by
      rw [peers.resolver, coded]
    rcases runs_storeCode commits' coded' runs' with unkept | ⟨rfl, state', overlay'⟩
    · exact .inr (.inr unkept)
    · refine .inl ⟨rfl, ?_, ?_, ?_⟩
      · rw [state, state', twin.registry]
      · rw [state, state', twin.cache]
      · rw [overlay, overlay', twin.overlay, peers.settings]

theorem agree_compileContent {content : Content} :
    Agree c c' (c.compileContent address codeKey contentKey content since token)
      (c'.compileContent address codeKey contentKey content since token') := by
  unfold compileContent
  refine Agree.bind ?_ fun generated => ?_
  · unfold generate
    rw [peers.generator, peers.settings]
    exact agree_step fun twin => ⟨rfl, twin.registry, twin.cache, twin.overlay⟩
  · split
    · exact agree_throw _
    · refine (agree_storeCode peers commits commits' coded).bind fun record => ?_
      rw [peers.settings]
      refine (agree_modify fun twin => ?_).bind fun _ => agree_pure _
      refine ⟨twin.registry, ?_, twin.overlay⟩
      exact congrArg (fun cache => if c.settings.caching then
        (CodeCache.insert cache record since).2 else cache.refresh codeKey since) twin.cache

variable (unread : c.settings.policy.mayRead = false)

include unread

theorem agree_compileRecord : Agree c c' (c.compileRecord address codeKey given since token)
    (c'.compileRecord address codeKey given since token') := by
  unfold compileRecord
  rw [peers.resolver]
  refine Agree.bind (agree_ofExcept _) fun contentKey => ?_
  have made (record : ContentRecord) :
      Agree c c' (c.compileContent address codeKey contentKey record.content since token)
        (c'.compileContent address codeKey contentKey record.content since token') :=
    agree_compileContent peers commits commits' coded
  dsimp only
  split
  · exact Agree.bind (agree_pure _) made
  · exact (agree_findContent peers unread).bind made

theorem agree_conclude (found : Option CodeRecord) :
    Agree c c' (c.conclude address codeKey given since token found)
      (c'.conclude address codeKey given since token' found) := by
  cases found with
  | some record =>
      refine (agree_modify fun twin => ?_).bind fun _ => agree_pure _
      exact ⟨twin.registry,
        congrArg (fun cache => (CodeCache.insert cache record since).2) twin.cache, twin.overlay⟩
  | none => exact agree_compileRecord peers commits commits' coded unread

/-- A compile without reading is the same for both compilers, but for the token that it draws. -/
theorem agree_compileAnew : Agree c c' (c.compileAnew address codeKey given since)
    (c'.compileAnew address codeKey given since) := by
  rw [compileAnew_eq, compileAnew_eq, peers.settings]
  refine agree_steps (fun twin => ⟨twin.registry, twin.cache, twin.overlay⟩) fun token token' => ?_
  refine (agree_gets fun twin => twin.cache).bind fun cache => ?_
  refine Agree.bind ?_ (agree_conclude peers commits commits' coded unread)
  split
  · exact agree_findCode peers unread
  · exact agree_pure _

end

section

variable {b d : Bench π} {b' d' : Bench π'} {r r' : Except CompileError CodeRecord}

/-- On resting benches, both do the work themselves. -/
theorem agree_share {work : Compiling π CodeRecord} {work' : Compiling π' CodeRecord}
    (agree : Agree c c' work work') (twin : b.Twin b') (resting : b.Resting)
    (resting' : b'.Resting) (runs : (share codeKey work).run.Runs Bench.Behind b r d)
    (runs' : (share codeKey work').run.Runs Bench.Behind b' r' d') : c.Concur c' r r' d d' := by
  obtain ⟨u, v, changed, works, left⟩ :=
    runs_share_new (fun changed => changed.state) (resting.free codeKey) runs
  obtain ⟨u', v', changed', works', left'⟩ :=
    runs_share_new (fun changed => changed.state) (resting'.free codeKey) runs'
  have boarded : u.Twin u' := (twin.withFlights _ _).behind changed changed'
  rcases agree _ _ _ _ _ _ boarded works works' with ⟨same, flown⟩ | unkept
  · rw [left, left']
    exact .inl ⟨same, flown.withFlights _ _⟩
  · exact .inr unkept

/-- What compiles register first is the same, and so is what they find cached then. -/
theorem agree_compile (peers : c.Peers c') (commits : c.store.Commits)
    (commits' : c'.store.Commits) (unread : c.settings.policy.mayRead = false)
    {input : CompileInput} (coded : input.address.key c.store.resolver .code = .ok codeKey)
    (twin : b.Twin b') (resting : b.Resting) (resting' : b'.Resting)
    (runs : (c.compile input).run.Runs Bench.Behind b r d)
    (runs' : (c'.compile input).run.Runs Bench.Behind b' r' d') : c.Concur c' r r' d d' := by
  obtain ⟨contentKey, keyed⟩ : ∃ key, input.address.key c.store.resolver .content = .ok key :=
    Resolver.resolve_ok (Resolver.not_blank coded)
  have coded' : input.address.key c'.store.resolver .code = .ok codeKey := by
    rw [peers.resolver, coded]
  have keyed' : input.address.key c'.store.resolver .content = .ok contentKey := by
    rw [peers.resolver, keyed]
  obtain ⟨same, twins⟩ :=
    Bench.tracks_twin.accept twin c.store.resolver input.address contentKey input.content
  have rested : (b.accept c.store.resolver input.address contentKey input.content).2.Resting :=
    resting.accept rfl
  have rested' : (b'.accept c.store.resolver input.address contentKey input.content).2.Resting :=
    resting'.accept rfl
  replace runs := runs_compile coded keyed runs
  replace runs' := runs_compile coded' keyed' runs'
  rw [peers.resolver, peers.settings] at runs'
  dsimp only at runs runs'
  rw [same] at runs'
  generalize b.accept c.store.resolver input.address contentKey input.content = accepted at *
  generalize b'.accept c.store.resolver input.address contentKey input.content = accepted' at *
  rw [twins.cache] at runs'
  rcases runs with ⟨record, caching, cached, rfl, rfl⟩ | ⟨missed, shares⟩
  · rcases runs' with ⟨record', -, cached', rfl, rfl⟩ | ⟨missed', -⟩
    · cases cached.symm.trans cached'
      exact .inl ⟨rfl, twins⟩
    · exact nomatch cached.symm.trans (missed' caching)
  · rcases runs' with ⟨record', caching, cached', -, -⟩ | ⟨-, shares'⟩
    · exact nomatch cached'.symm.trans (missed caching)
    · exact agree_share (agree_compileAnew peers commits commits' coded unread) twins rested
        rested' shares shares'

end

end Compiler

/-! ## Queries -/

/-- Queries of twin benches are answered alike, unless a write fails. -/
theorem Query.agree {c : Compiler π} {c' : Compiler π'} (peers : c.Peers c')
    (commits : c.store.Commits) (commits' : c'.store.Commits)
    (unread : c.settings.policy.mayRead = false) {b d : Bench π} {b' d' : Bench π'}
    {answer answer' : Except CompileError Answer} (twin : b.Twin b') (resting : b.Resting)
    (resting' : b'.Resting) (query : Query)
    (runs : (query.work c).run.Runs Bench.Behind b answer d)
    (runs' : (query.work c').run.Runs Bench.Behind b' answer' d') :
    c.Concur c' answer answer' d d' := by
  cases query with
  | register name content =>
      have agree : Compiling.Agree c c' (c.register name content) (c'.register name content) := by
        unfold Compiler.register
        rw [peers.resolver]
        refine (Compiling.agree_ofExcept _).bind fun key => ?_
        exact Compiling.agree_step fun twin => Bench.tracks_twin.register twin _ _
      exact agree.map _ _ _ _ _ _ _ twin runs runs'
  | compile input =>
      cases coded : input.address.key c.store.resolver .code with
      | error e =>
          have coded' : input.address.key c'.store.resolver .code = .error e := by
            rw [peers.resolver, coded]
          have does : c.Does (.compile input) b answer d := runs.mono Bench.Behind.elsewhere
          have does' : c'.Does (.compile input) b' answer' d' := runs'.mono Bench.Behind.elsewhere
          obtain ⟨rfl, rfl⟩ := does.unnamed coded
          obtain ⟨rfl, rfl⟩ := does'.unnamed coded'
          exact .inl ⟨rfl, twin⟩
      | ok codeKey =>
          obtain ⟨r, works, rfl⟩ := runs.of_map
          obtain ⟨r', works', rfl⟩ := runs'.of_map
          exact (Compiler.agree_compile peers commits commits' unread coded twin resting resting'
            works works').map _
  | registered name =>
      have agree : Compiling.Agree c c' (Compiling.gets (·.state.registry.get? name))
          (Compiling.gets (·.state.registry.get? name)) :=
        Compiling.agree_gets fun twin => by rw [twin.registry]
      exact agree.map _ _ _ _ _ _ _ twin runs runs'

namespace Compiler

variable {c : Compiler π} {c' : Compiler π'} {queries : List Query} {b d : Bench π}
  {b' d' : Bench π'} {answers answers' : List (Except CompileError Answer)}

theorem Serves.agree (peers : c.Peers c') (commits : c.store.Commits)
    (commits' : c'.store.Commits) (lawful : c.store.Lawful) (lawful' : c'.store.Lawful)
    (unread : c.settings.policy.mayRead = false) (twin : b.Twin b') (resting : b.Resting)
    (resting' : b'.Resting) (serves : c.Serves Bench.Behind queries b answers d)
    (serves' : c'.Serves Bench.Behind queries b' answers' d')
    (kept : ∀ answer ∈ answers, ¬c.Unkept answer)
    (kept' : ∀ answer ∈ answers', ¬c'.Unkept answer) : answers' = answers ∧ d.Twin d' := by
  induction serves generalizing b' answers' with
  | nil =>
      cases serves'
      exact ⟨rfl, twin⟩
  | @cons query queries b u v d answer answers before works rest ih =>
      cases serves' with
      | @cons _ _ _ u' v' _ answer' answers' before' works' rest' =>
          have rested : u.Resting := before.elsewhere.sheds.resting resting
          have rested' : u'.Resting := before'.elsewhere.sheds.resting resting'
          rcases query.agree peers commits commits' unread (twin.behind before before') rested
            rested' works works' with ⟨rfl, twins⟩ | unkept | unkept
          · obtain ⟨rfl, ends⟩ := ih twins
              (Query.resting lawful rested (works.mono Bench.Behind.elsewhere))
              (Query.resting lawful' rested' (works'.mono Bench.Behind.elsewhere)) rest'
              (fun answer there => kept answer (List.mem_cons_of_mem _ there))
              (fun answer there => kept' answer (List.mem_cons_of_mem _ there))
            exact ⟨rfl, ends⟩
          · exact absurd unkept (kept _ List.mem_cons_self)
          · exact absurd unkept (kept' _ List.mem_cons_self)

/-- What the media hold makes no difference to what two compilers answer: from twin benches, all
queries are answered, and as long as no write fails they are answered alike, whatever happens to the
media meanwhile. -/
def Blind (c : Compiler π) (c' : Compiler π') : Prop :=
  ∀ (queries : List Query) (b : Bench π) (b' : Bench π'), b.Twin b' → b.Resting → b'.Resting →
    (∃ answers d, c.Serves Bench.Behind queries b answers d) ∧
      (∃ answers d, c'.Serves Bench.Behind queries b' answers d) ∧
      ∀ answers d answers' d', c.Serves Bench.Behind queries b answers d →
        c'.Serves Bench.Behind queries b' answers' d' →
        (∀ answer ∈ answers, ¬c.Unkept answer) → (∀ answer ∈ answers', ¬c'.Unkept answer) →
        answers' = answers ∧ d.Twin d'

/-- All queries are answered, and if nobody else writes to the media, they are as before then. -/
def Harmless (c : Compiler π) : Prop :=
  ∀ (queries : List Query) (b : Bench π),
    (b.Resting → ∃ answers d, c.Serves (fun b d => b.site.Unwritten d.site) queries b answers d) ∧
      ∀ answers d, c.Serves (fun b d => b.site.Unwritten d.site) queries b answers d →
        b.site.Unwritten d.site

end Compiler

/-- The stores that there are. -/
inductive Store.Offered : {π : Type} → Store π → Prop where
  | memory (resolver : Resolver) : Offered (memory resolver)
  | delayed (resolver : Resolver) (delay : Nat) : Offered (delayed resolver delay)
  | keyValue (resolver : Resolver) (pageSize : Nat) : Offered (keyValue resolver pageSize)
  | files (sources : Sources) : Offered (files sources)
  | remote (r : Remote) : Offered (remote r)

theorem Store.Offered.contracts {store : Store π} (offered : store.Offered) :
    store.Lawful ∧ store.Commits ∧ store.Fenced := by
  cases offered with
  | memory resolver => exact ⟨memory_lawful, memory_commits, memory_fenced⟩
  | delayed resolver delay => exact ⟨delayed_lawful _, delayed_commits _, delayed_fenced _⟩
  | keyValue resolver pageSize =>
      exact ⟨keyValue_lawful _, keyValue_commits _, keyValue_fenced _⟩
  | files sources => exact ⟨files_lawful _, files_commits _, files_fenced _⟩
  | remote r => exact ⟨remote_lawful _, remote_commits _, remote_fenced _⟩

/-- A compiler whose policy is not to read does not see what the media hold, and one whose policy is
not to write does not change it. -/
theorem Compiler.policy_is_a_wall {c : Compiler π} {c' : Compiler π'} (offered : c.store.Offered)
    (offered' : c'.store.Offered) (peers : c.Peers c') :
    (c.settings.policy = .none ∨ c.settings.policy = .write → c.Blind c') ∧
      (c.settings.policy = .none ∨ c.settings.policy = .read → c.Harmless) := by
  obtain ⟨lawful, commits, fenced⟩ := offered.contracts
  obtain ⟨lawful', commits', fenced'⟩ := offered'.contracts
  refine ⟨fun policy queries b b' twin resting resting' => ?_, fun policy queries b => ?_⟩
  · have unread : c.settings.policy.mayRead = false := by
      rcases policy with policy | policy <;> rw [policy] <;> rfl
    refine ⟨?_, ?_, fun answers d answers' d' serves serves' => ?_⟩
    · obtain ⟨answers, d, alone⟩ := exists_serveAlone lawful fenced resting queries
      exact ⟨answers, d, serves_of_alone .refl (fun _ _ => ⟨rfl, rfl⟩) alone⟩
    · obtain ⟨answers, d, alone⟩ := exists_serveAlone lawful' fenced' resting' queries
      exact ⟨answers, d, serves_of_alone .refl (fun _ _ => ⟨rfl, rfl⟩) alone⟩
    · exact serves.agree peers commits commits' lawful lawful' unread twin resting resting' serves'
  · have unwritten : c.settings.policy.mayWrite = false := by
      rcases policy with policy | policy <;> rw [policy] <;> rfl
    refine ⟨fun resting => ?_, fun answers d serves => serves.unwritten fenced unwritten⟩
    obtain ⟨answers, d, alone⟩ := exists_serveAlone lawful fenced resting queries
    exact ⟨answers, d, serves_of_alone (fun _ => .refl _) (fun _ _ => .of_media rfl rfl rfl) alone⟩

/-! ## A sample -/

namespace Sample

/-- An engine with a text under the name `a`. -/
def engine : Engine :=
  Engine.put {} "partials" "partials/a.html"
    (Store.KeyValue.contentDocument ⟨"a", none, none⟩ (.text "secret")).toUTF8.toList

def stockroom : Bench Written :=
  Compiler.start { own := [], environment := { engine := engine } }

/-- A name that is not known, the same name with a text, and what is registered then. -/
def questions : List Query := [
  .compile ⟨⟨"a", none, none⟩, none⟩,
  .compile ⟨⟨"a", none, none⟩, some (.text "hello")⟩,
  .registered "a"]

/-- Whether an answer is no failure of a store. -/
def isStored : Except CompileError Answer → Bool
  | .error (.storeFor ..) => false
  | _ => true

theorem kept_of_isStored {c : Compiler π} {answers : List (Except CompileError Answer)}
    (stored : answers.all isStored = true) : ∀ answer ∈ answers, ¬c.Unkept answer := by
  rintro answer there ⟨-, address, codeKey, renderer, token, s, t, reason, -, rfl⟩
  exact nomatch List.all_eq_true.1 stored _ there

/-- A compiler over an engine with a policy. -/
def restrained (policy : AccessPolicy) : Compiler Written :=
  compiler (Store.keyValue resolver 10) policy

theorem resting_stockroom : stockroom.Resting := Bench.resting_start fun _ _ => nofun

theorem resting_blank : blank.Resting := Bench.resting_start fun _ _ => nofun

end Sample

open Sample

/-- The text in the engine makes no difference to a compiler that does not read, and a compiler that
does not write leaves it there. -/
theorem secret_is_not_seen :
    (∃ answers d d', (restrained .write).Serves Bench.Behind questions stockroom answers d ∧
      (restrained .write).Serves Bench.Behind questions blank answers d' ∧ d.Twin d') ∧
    ∃ answers d,
      (restrained .read).Serves (fun b d => b.site.Unwritten d.site) questions stockroom answers d ∧
        stockroom.site.Unwritten d.site := by
  have offered : (Store.keyValue resolver 10).Offered := .keyValue _ _
  have alone (b : Bench Written) (ends : ((restrained .write).serveAlone questions b).map
      (·.1.all isStored) = some true) : ∃ answers d,
        (restrained .write).Serves Bench.Behind questions b answers d ∧
          answers.all isStored = true := by
    obtain ⟨⟨answers, d⟩, alone, stored⟩ := Option.map_eq_some_iff.1 ends
    exact ⟨answers, d, Compiler.serves_of_alone .refl (fun _ _ => ⟨rfl, rfl⟩) alone, stored⟩
  obtain ⟨answers, d, serves, stored⟩ := alone stockroom (by decide)
  obtain ⟨answers', d', serves', stored'⟩ := alone blank (by decide)
  have twin : stockroom.Twin blank := ⟨rfl, rfl, rfl⟩
  have writes : (restrained .write).Peers (restrained .write) := ⟨rfl, rfl, rfl⟩
  have reads : (restrained .read).Peers (restrained .read) := ⟨rfl, rfl, rfl⟩
  refine ⟨?_, ?_⟩
  · have blind := (Compiler.policy_is_a_wall offered offered writes).1 (.inr rfl)
    obtain ⟨rfl, twins⟩ := (blind questions _ _ twin resting_stockroom resting_blank).2.2 _ _ _ _
      serves serves' (kept_of_isStored stored) (kept_of_isStored stored')
    exact ⟨_, d, d', serves, serves', twins⟩
  · have harmless := (Compiler.policy_is_a_wall offered offered reads).2 (.inr rfl)
    obtain ⟨answers, d, serves⟩ := (harmless questions stockroom).1 resting_stockroom
    exact ⟨answers, d, serves, (harmless questions stockroom).2 _ _ serves⟩

/-- With leave to read, the first compile finds the text, and without it the name is not known. -/
example :
    ((restrained .read).serveAlone questions stockroom).map (·.1.map (·.toOption.isSome)) =
      some [true, true, true] ∧
    ((restrained .write).serveAlone questions stockroom).map (·.1.map (·.toOption.isSome)) =
      some [false, true, true] := by decide +kernel

end TemplateCache
