import TemplateCache.Proofs.Compiler.Leftovers
import TemplateCache.Proofs.Compiler.Serial
import TemplateCache.Proofs.Naming
import TemplateCache.Proofs.Store.Atomic

/-!
# Compiles that fail

A compile can fail at almost each of its steps. Apart from the registration of the content that it
brings, which comes first, what it has done to the renderers by then is nothing: the cache with its
stale marks and the renderers in the overlay are as they were, and its flight is gone.

`Spares kind` says that an operation leaves the renderers and the flights alone if it has an outcome
of some kind. Most operations do so in any case. A search for stored code does unless it finds some,
and what comes at the end of a compile does if it fails.
-/

namespace TemplateCache

open Job

variable {π α β : Type}

/-- The renderers are as they were, cached or in the overlay, and so are the flights. -/
structure Bench.Spared (b d : Bench π) : Prop where
  cache : d.state.cache = b.state.cache
  flights : d.state.flights = b.state.flights
  code : Site.SameCode b.site d.site

/-- The operation spares the renderers if it has an outcome of this kind. -/
def Compiling.Spares (kind : Except CompileError α → Prop) (x : Compiling π α) : Prop :=
  ∀ (b d : Bench π) (r : Except CompileError α),
    x.run.Runs Bench.Elsewhere b r d → kind r → b.Spared d

/-- Any outcome. -/
def Compiling.Ends (_ : Except CompileError α) : Prop := True

/-- A failure. -/
def Compiling.Fails (r : Except CompileError α) : Prop := ∃ e, r = .error e

/-- Anything but a renderer. -/
def Compiling.Misses (r : Except CompileError (Option CodeRecord)) : Prop :=
  ∀ record, r ≠ .ok (some record)

namespace Bench.Spared

variable {b d e : Bench π}

theorem refl (b : Bench π) : b.Spared b := ⟨rfl, rfl, rfl⟩

theorem trans (h : b.Spared d) (h' : d.Spared e) : b.Spared e :=
  ⟨h'.cache.trans h.cache, h'.flights.trans h.flights, h'.code.trans h.code⟩

end Bench.Spared

namespace Compiling

variable {kind : Except CompileError α → Prop} {kind' : Except CompileError β → Prop}

theorem Spares.mono {other : Except CompileError α → Prop} {x : Compiling π α}
    (h : x.Spares kind) (imp : ∀ {r}, other r → kind r) : x.Spares other :=
  fun _ _ _ runs is => h _ _ _ runs (imp is)

/-- What follows an operation has to spare the renderers only where the operation did. Elsewhere it
must not have an outcome of the kind. -/
theorem Spares.bind {x : Compiling π α} {f : α → Compiling π β} (h : x.Spares kind)
    (failed : ∀ e, kind (.error e))
    (hf : ∀ v, kind (.ok v) ∧ (f v).Spares kind' ∨
      ∀ (b d : Bench π) (r), (f v).run.Runs Bench.Elsewhere b r d → ¬kind' r) :
    (x >>= f).Spares kind' := by
  intro b d r runs is
  rcases runs.of_bindExcept with ⟨v, u, first, second⟩ | ⟨e, first, rfl⟩
  · rcases hf v with ⟨spared, spares⟩ | never
    · exact (h _ _ _ first spared).trans (spares _ _ _ second is)
    · exact absurd is (never _ _ _ second)
  · exact h _ _ _ first (failed e)

/-- An operation that spares the renderers in any case. -/
theorem Spares.seq {x : Compiling π α} {f : α → Compiling π β} (h : x.Spares Ends)
    (hf : ∀ v, (f v).Spares kind') : (x >>= f).Spares kind' :=
  h.bind (fun _ => trivial) fun v => .inl ⟨trivial, hf v⟩

theorem spares_ofExcept (r : Except CompileError α) : Spares (π := π) kind (ofExcept r) := by
  intro b d _ runs _
  cases runs
  exact .refl b

theorem spares_pure (v : α) : Spares (π := π) kind (pure v) := spares_ofExcept (.ok v)

theorem spares_throw (e : CompileError) : Spares (π := π) kind (throw e) :=
  spares_ofExcept (.error e)

theorem spares_step {f : Bench π → α × Bench π} (h : ∀ b : Bench π, b.Spared (f b).2) :
    (step f).Spares kind := by
  intro b d r runs _
  cases runs with
  | act rest =>
      cases rest
      exact h b

theorem spares_gets (f : Bench π → α) : (gets f).Spares kind := by
  intro b d r runs _
  cases runs with
  | act rest =>
      cases rest
      exact .refl b

theorem spares_modify {kind : Except CompileError Unit → Prop} {f : Bench π → Bench π}
    (h : ∀ b : Bench π, b.Spared (f b)) : (modify f).Spares kind := by
  intro b d r runs _
  cases runs with
  | act rest =>
      cases rest
      exact h b

/-- A store spares the renderers where it leaves those in its overlay alone. -/
theorem spares_storing {job : Storing π α} {kind : Except StoreError α → Prop}
    (h : ∀ {s t r}, job.run.Runs Site.SameCode s r t → kind r → Site.SameCode s t) :
    (storing job).Spares fun r => ∀ found, r = .ok found → kind found := by
  intro b d r runs is
  have stays {b d : Bench π} (changed : b.Elsewhere d) :
      d.state = b.state ∧ Site.SameCode b.site d.site := ⟨changed.state, changed.code⟩
  obtain ⟨found, rfl, works, same⟩ := runs_storing stays runs
  exact ⟨by rw [same], by rw [same], h works (is found rfl)⟩

/-- What ends with a success does not fail. -/
theorem modify_returns {f : Bench π → Bench π} {v : α} {b d : Bench π}
    {r : Except CompileError α}
    (runs : (modify f >>= fun _ => pure v : Compiling π α).run.Runs Bench.Elsewhere b r d) :
    ¬Fails r := by
  rintro ⟨e, rfl⟩
  cases runs_modify runs

end Compiling

/-- Reading code leaves the renderers alone, whether the overlay has it or not. -/
theorem Store.Lawful.runs_readCode {store : Store π} (lawful : store.Lawful) {address : Address}
    {codeKey : String} {token : Token} {s t : Site π} {r : Except StoreError (Option StoredCode)}
    (coded : address.key store.resolver .code = .ok codeKey)
    (runs : (store.readCode address token).run.Runs Site.SameCode s r t) : Site.SameCode s t := by
  cases found : s.overlay.code.get? codeKey with
  | some record =>
      obtain ⟨-, rfl⟩ := (lawful.readCode_kept token coded found).runs runs
      rfl
  | none =>
      exact ((lawful.readCode token coded found).runs (Site.SameCode s) runs
        (fun step same => step.trans same) (fun changed same => changed.trans same) rfl).1

/-- Code that could not be written is not in the overlay. -/
theorem Store.Commits.runs_writeCode {store : Store π} (commits : store.Commits)
    {address : Address} {renderer : Renderer} {token : Token} {s t : Site π} {e : StoreError}
    (runs : (store.writeCode address renderer token).run.Runs Site.SameCode s (.error e) t) :
    Site.SameCode s t :=
  (commits.writeCode address renderer token runs).same (f := fun s => s.overlay.code) id
    Site.SameOverlay.sameCode

namespace Compiler

open Compiling

variable {c : Compiler π} {address : Address} {codeKey contentKey : String}
  {given : Option ContentRecord} {since : Nat} {token : Token}

section

variable (lawful : c.store.Lawful) (coded : address.key c.store.resolver .code = .ok codeKey)

include lawful coded

theorem spares_storedCode : (c.storedCode address codeKey token).Spares Ends := by
  unfold storedCode
  split
  · have read : (storing (c.store.readCode address token)).Spares fun r =>
        ∀ found, r = .ok found → True :=
      spares_storing fun runs _ => lawful.runs_readCode coded runs
    refine Spares.seq (read.mono fun _ _ _ => trivial) fun found => ?_
    split
    · exact spares_pure _
    · exact spares_throw _
    · exact spares_throw _
    · exact spares_pure _
  · exact Spares.seq (spares_gets _) fun _ => spares_pure _

/-- A search for stored code changes the overlay only where it loads some. -/
theorem spares_findCode : (c.findCode address codeKey token).Spares Misses := by
  unfold findCode
  refine Spares.seq (spares_storedCode lawful coded) fun found => ?_
  split
  · exact spares_pure _
  · exact spares_pure _
  · rename_i source
    intro b d r runs misses
    cases runs with
    | act rest =>
        cases rest
        revert misses
        dsimp only
        cases c.generator.load source c.settings.generator with
        | error e => exact fun _ => ⟨rfl, rfl, rfl⟩
        | ok renderer => exact fun misses => absurd rfl (misses _)

end

section

variable (lawful : c.store.Lawful)

include lawful

theorem spares_readContent : (c.readContent address contentKey token).Spares Ends := by
  have delivered (found : Option ContentRecord) :
      (c.deliver address contentKey found).Spares Ends := by
    cases found with
    | some record => exact spares_pure record
    | none => exact spares_throw _
  rw [readContent_eq]
  split
  · have read : (storing (c.store.readContent address token)).Spares fun r =>
        ∀ found, r = .ok found → True :=
      spares_storing fun {s t r} runs _ =>
        ((lawful.readContent address token s).runs (Site.SameCode s) runs
          (fun step same => step.trans same) (fun changed same => changed.trans same) rfl).1
    refine Spares.seq (read.mono fun _ _ _ => trivial) fun r => ?_
    split
    · exact delivered _
    · exact spares_throw _
  · exact Spares.seq (spares_gets _) fun _ => delivered _

/-- Content that was read is registered, which is nothing to the renderers. -/
theorem spares_findContent :
    (c.findContent address codeKey contentKey since token).Spares Ends := by
  unfold findContent
  refine Spares.seq (spares_gets _) fun registry => ?_
  split
  · exact spares_pure _
  · refine Spares.seq (spares_readContent lawful) fun found => ?_
    refine Spares.seq (spares_modify fun b => ?_) fun _ => spares_pure _
    split
    · exact .refl b
    · exact ⟨rfl, rfl, rfl⟩

end

/-- A renderer that the store fails to keep is not in its overlay. -/
theorem spares_storeCode (commits : c.store.Commits) {renderer : Renderer} :
    (c.storeCode address codeKey renderer token).Spares Fails := by
  unfold storeCode
  split
  · have written : (storing (c.store.writeCode address renderer token)).Spares fun r =>
        ∀ found, r = .ok found → ∃ e, found = .error e := by
      refine spares_storing ?_
      rintro s t _ runs ⟨e, rfl⟩
      exact commits.runs_writeCode runs
    refine written.bind (fun _ _ => nofun) fun found => ?_
    cases found with
    | error e =>
        refine .inl ⟨?_, spares_throw _⟩
        rintro _ ⟨⟩
        exact ⟨e, rfl⟩
    | ok record =>
        right
        rintro b d r runs ⟨e, rfl⟩
        cases runs
  · exact spares_pure _

theorem spares_compileContent (commits : c.store.Commits) {content : Content} :
    (c.compileContent address codeKey contentKey content since token).Spares Fails := by
  unfold compileContent
  refine Spares.seq (spares_step fun b => ⟨rfl, rfl, rfl⟩) fun generated => ?_
  split
  · exact spares_throw _
  · exact (spares_storeCode commits).bind (fun e => ⟨e, rfl⟩) fun record =>
      .inr fun _ _ _ runs => modify_returns runs

variable (lawful : c.store.Lawful) (commits : c.store.Commits)

include lawful commits

theorem spares_compileRecord :
    (c.compileRecord address codeKey given since token).Spares Fails := by
  unfold compileRecord
  refine Spares.seq (spares_ofExcept _) fun contentKey => ?_
  dsimp only
  split
  · exact Spares.seq (spares_pure _) fun record => spares_compileContent commits
  · exact (spares_findContent lawful).seq fun record => spares_compileContent commits

theorem spares_compileAnew (coded : address.key c.store.resolver .code = .ok codeKey) :
    (c.compileAnew address codeKey given since).Spares Fails := by
  rw [compileAnew_eq]
  refine Spares.seq (spares_step fun b => ⟨rfl, rfl, rfl⟩) fun token => ?_
  refine Spares.seq (spares_gets _) fun cache => ?_
  have searched : Spares Misses (if c.settings.caching && given.isNone && !cache.isStale codeKey
      then c.findCode address codeKey token else pure none) := by
    split
    · exact spares_findCode lawful coded
    · exact spares_pure none
  refine searched.bind (fun _ _ => nofun) fun found => ?_
  cases found with
  | some record => exact .inr fun _ _ _ runs => modify_returns runs
  | none => exact .inl ⟨fun _ => nofun, spares_compileRecord lawful commits⟩

/-- Whatever a compile fails for, the renderers are as its registration of the content that it
brought has left them, and no key leads to its flight any more. -/
theorem failed_compile_spares_renderers {input : CompileInput} {e : CompileError} {b d : Bench π}
    (fails : c.Does (.compile input) b (.error e) d) :
    (∃ reason, input.address.key c.store.resolver .code = .error reason ∧ e = .naming reason ∧
        d = b) ∨
      ∃ codeKey contentKey, input.address.key c.store.resolver .code = .ok codeKey ∧
        input.address.key c.store.resolver .content = .ok contentKey ∧
        let registered := (b.accept c.store.resolver input.address contentKey input.content).2
        d.state.cache = registered.state.cache ∧
          d.site.overlay.code = registered.site.overlay.code ∧
          d.state.flights.current.get? codeKey = none := by
  cases coded : input.address.key c.store.resolver .code with
  | error reason =>
      obtain ⟨same, answer⟩ := fails.unnamed coded
      cases answer
      exact .inl ⟨reason, rfl, rfl, same⟩
  | ok codeKey =>
      right
      obtain ⟨contentKey, keyed⟩ : ∃ key, input.address.key c.store.resolver .content = .ok key :=
        Resolver.resolve_ok (Resolver.not_blank coded)
      refine ⟨codeKey, contentKey, rfl, keyed, ?_⟩
      obtain ⟨r, runs, failed⟩ := Runs.of_map fails
      cases r with
      | ok record => exact nomatch failed
      | error e =>
          rcases runs_compile coded keyed runs with ⟨record, -, -, same, -⟩ | ⟨-, shares⟩
          · exact nomatch same
          obtain ⟨u, changed, ⟨record, -, same, -⟩ | ⟨v, works, rfl⟩⟩ :=
            runs_share (fun changed => changed.state) shares
          · exact nomatch same
          have spared := spares_compileAnew lawful commits coded _ _ _ works ⟨e, rfl⟩
          refine ⟨?_, spared.code.trans changed.code, ?_⟩
          · refine spared.cache.trans ?_
            rw [changed.state]
            rfl
          · refine Flights.current_leave_own ?_
            show v.state.flights.current.get? codeKey = _
            rw [spared.flights, changed.state]
            exact Flights.current_join.trans (if_pos rfl)

end Compiler

/-! ## A sample -/

namespace Sample

/-- The bench of a compiler that has compiled, whose engine does not take documents any more. -/
def jammed : Bench Written :=
  { published with
    site := { published.site with
      environment := { published.site.environment with
        engine := { published.site.environment.engine with
          faults := [⟨some .put, none, none, .unavailable "down"⟩] } } } }

/-- A new text for the name `a`. -/
def revision : CompileInput := ⟨⟨"a", none, none⟩, some (.text "new")⟩

end Sample

open Sample

/-- The renderer of the old text is gone with the registration of the new one, and no other one has
come in its place. -/
theorem unwritten_renderer_is_absent :
    ∃ e d, shared.Does (.compile revision) jammed (.error e) d ∧
      d.state.cache.get? "partials/a.html.compiled" = none ∧
      d.state.cache.isStale "partials/a.html.compiled" = true ∧
      d.site.overlay.code.get? "partials/a.html.compiled" = none ∧
      d.state.flights.current.get? "partials/a.html.compiled" = none := by
  have fails : (((Command.compile revision).work shared).run.finish jammed).map
      (·.1.toOption.isNone) = some true := by decide +kernel
  obtain ⟨⟨answer, d⟩, ends, failed⟩ := Option.map_eq_some_iff.1 fails
  cases answer with
  | ok answer => exact nomatch failed
  | error e =>
      have does : shared.Does (.compile revision) jammed (.error e) d :=
        Compiler.does_of_finish ends
      refine ⟨e, d, does, ?_⟩
      rcases Compiler.failed_compile_spares_renderers (Store.keyValue_lawful 10)
        (Store.keyValue_commits 10) does with
        ⟨reason, coded, -⟩ | ⟨codeKey, contentKey, coded, keyed, cache, code, left⟩
      · exact nomatch coded
      · cases coded
        cases keyed
        rw [cache, code]
        exact ⟨by decide +kernel, by decide +kernel, by decide +kernel, left⟩

end TemplateCache
