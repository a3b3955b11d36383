import TemplateCache.Proofs.Compiler.Level
import TemplateCache.Proofs.Store.Shadow

/-!
# Stored code that is of no use

A compile that reads code and fails to, or reads source that cannot be loaded, goes on as if there
were no code. Two runs are compared: one over a medium that has such code, and one over a medium
that has none under the key and else the same content. Both find the same before anything is
generated, generate from the same content, and ask for the same write. As long as that write has the
same outcome for both, so has the compile, and both are left with the same registry, the same
renderers and the same overlay.
-/

namespace TemplateCache

open Job

variable {π α : Type}

/-- What an operation that runs alone comes to. -/
def Storing.outcome (x : Storing π α) (s : Site π) : Option (Except StoreError α) :=
  (x.run.finish s).map (·.1)

/-- The same store, but it hands a renderer back instead of writing it. -/
def Store.handingBack (store : Store π) : Store π :=
  { store with
    writeCode := fun address renderer _ => do
      let key ← Storing.naming (address.key store.resolver .code)
      return ⟨key, address.name, renderer⟩ }

namespace Compiler

open Compiling

/-- Reading code has failed without being ended, or has come upon source that cannot be loaded. -/
def isUnusable (c : Compiler π) : Except StoreError (Option StoredCode) → Bool
  | .error (.cancelled _) => false
  | .error (.timedOut _ _) => false
  | .error _ => true
  | .ok (some (.text _ _ source)) =>
    match c.generator.load source c.settings.generator with
    | .error _ => true
    | .ok _ => false
  | .ok _ => false

/-- What an attempt that begins on a bench would read as the code of an address. -/
def codeRead (c : Compiler π) (address : Address) (b : Bench π) :
    Option (Except StoreError (Option StoredCode)) :=
  (c.store.readCode address (Bench.newToken c.settings b).1).outcome
    (Bench.newToken c.settings b).2.site

/-- A read of the code of an address comes to something that is of no use. -/
def Breaks (c : Compiler π) (address : Address) (b : Bench π) : Prop :=
  ∃ found, c.codeRead address b = some found ∧ c.isUnusable found = true

/-- A read of the code of an address finds none. -/
def Lacks (c : Compiler π) (address : Address) (b : Bench π) : Prop :=
  c.codeRead address b = some (.ok none)

/-- As the policy asks, a compile comes to write a renderer from a site. Over a store that hands
renderers back, it generates one, returns it, and leaves that site. -/
def Brings (c : Compiler π) (input : CompileInput) (b : Bench π) (renderer : Renderer)
    (site : Site π) : Prop :=
  c.settings.policy.mayWrite = true ∧ ∃ record d,
    (({ c with store := c.store.handingBack } : Compiler π).compile input).run.finish b =
        some (.ok record, d) ∧
      b.state.generated < d.state.generated ∧ record.renderer = renderer ∧ d.site = site

/-- A write that compiles on both benches come to has one outcome. -/
def WritesAlike (c : Compiler π) (input : CompileInput) (b b' : Bench π) : Prop :=
  ∀ renderer site site', c.Brings input b renderer site → c.Brings input b' renderer site' →
    (c.store.writeCode input.address renderer (Bench.newToken c.settings b).1).outcome site' =
      (c.store.writeCode input.address renderer (Bench.newToken c.settings b).1).outcome site

/-- An attempt looks for stored code, unless it knows better. -/
def inquire (c : Compiler π) (address : Address) (codeKey : String) (given : Option ContentRecord)
    (token : Token) : Compiling π (Option CodeRecord) :=
  Compiling.gets (·.state.cache) >>= fun cache =>
    if c.settings.caching && given.isNone && !cache.isStale codeKey
      then c.findCode address codeKey token else pure none

/-- What an attempt has when nothing is left to be looked for: stored code, or a record to generate
from. -/
def supply (c : Compiler π) (address : Address) (codeKey contentKey : String)
    (given : Option ContentRecord) (since : Nat) (token : Token) :
    Compiling π (CodeRecord ⊕ ContentRecord) :=
  c.inquire address codeKey given token >>= fun found =>
    match found, given with
    | some record, _ => return .inl record
    | none, some record => return .inr record
    | none, none =>
      c.findContent address codeKey contentKey since token >>= fun record => return .inr record

/-- What an attempt makes of it. -/
def use (c : Compiler π) (address : Address) (codeKey contentKey : String) (since : Nat)
    (token : Token) : CodeRecord ⊕ ContentRecord → Compiling π CodeRecord
  | .inl record => do
    Compiling.modify (·.onState fun s => { s with cache := (s.cache.insert record since).2 })
    return record
  | .inr record => c.compileContent address codeKey contentKey record.content since token

section

variable {c : Compiler π} {address : Address} {codeKey contentKey : String}
  {given : Option ContentRecord} {since : Nat} {token : Token}

theorem attempt_eq (keyed : address.key c.store.resolver .content = .ok contentKey) :
    c.attempt address codeKey given since token =
      c.supply address codeKey contentKey given since token >>=
        c.use address codeKey contentKey since token := by
  have looks : c.attempt address codeKey given since token =
      c.inquire address codeKey given token >>= c.conclude address codeKey given since token :=
    (bindExcept_assoc _ _ _).symm
  unfold supply
  rw [looks, bindExcept_assoc]
  refine congrArg (Bind.bind (c.inquire address codeKey given token)) (funext fun found => ?_)
  cases found with
  | some record => rfl
  | none =>
      unfold conclude compileRecord
      rw [keyed]
      cases given with
      | some record => rfl
      | none =>
          exact (bindExcept_assoc (c.findContent address codeKey contentKey since token)
            (fun record => pure (.inr record)) (c.use address codeKey contentKey since token)).symm

theorem supply_searches :
    (c.supply address codeKey contentKey given since token).run.Keeps Bench.Searches := by
  have looks : (c.inquire address codeKey given token).run.Keeps Bench.Searches := by
    refine (keeps_gets .refl _).bindExcept fun cache => ?_
    split
    · exact findCode_searches
    · exact keeps_pure _
  refine looks.bindExcept fun found => ?_
  split
  · exact keeps_pure _
  · exact keeps_pure _
  · exact findContent_searches.bindExcept fun _ => keeps_pure _

end

/-! ## Meeting before anything is generated -/

section

variable {c : Compiler π} {same : Environment → Environment → Prop} {address : Address}
  {codeKey contentKey : String} {given : Option ContentRecord} {since : Nat} {token : Token}
  {b b' : Bench π}

/-- What is read from a store on level sites is the same, if the content is. -/
theorem meet_storing {job : Storing π α} (timeless : Timeless same) (h : job.Same same)
    (level : b.Level same b') : Meet (Bench.Level same) Eq ((storing job).run.finish b)
      ((storing job).run.finish b') := by
  rw [finish_storing, finish_storing]
  apply (h.finish (Site.timely timeless) level.site).map
  rintro ⟨r, s⟩ ⟨_, s'⟩ rfl sites
  exact ⟨rfl, level.state, sites⟩

/-- Code that is missing or of no use counts as none. -/
theorem finish_findCode {found : Except StoreError (Option StoredCode)} {s : Site π}
    (reads : c.settings.policy.mayRead = true)
    (useless : c.isUnusable found = true ∨ found = .ok none)
    (ends : (c.store.readCode address token).run.finish b.site = some (found, s)) :
    ∃ loaded, (c.findCode address codeKey token).run.finish b =
      some (.ok none, ⟨{ b.state with loaded := loaded }, s⟩) := by
  have asks : (storing (c.store.readCode address token)).run.finish b =
      some (.ok found, ⟨b.state, s⟩) := by
    rw [finish_storing, ends]
    rfl
  unfold findCode storedCode
  rw [if_pos reads, bindExcept_assoc, finish_bind_ok asks]
  rcases useless with unusable | rfl
  case inr => exact ⟨b.state.loaded, rfl⟩
  cases found with
  | error e =>
      cases e with
      | cancelled operation => cases unusable
      | timedOut operation after => cases unusable
      | _ => exact ⟨b.state.loaded, rfl⟩
  | ok found =>
      rcases found with _ | record | ⟨key, name, source⟩
      · cases unusable
      · cases unusable
      · unfold isUnusable at unusable
        dsimp only at unusable
        cases loads : c.generator.load source c.settings.generator with
        | ok renderer =>
            rw [loads] at unusable
            cases unusable
        | error e =>
            have loading : (c.load address.name codeKey source).run.finish ⟨b.state, s⟩ =
                some (.ok none, ⟨{ b.state with loaded := b.state.loaded + 1 }, s⟩) := by
              unfold load
              rw [loads]
              rfl
            exact ⟨_, loading⟩

/-- Without leave to read, only the overlay is asked for code. -/
theorem finish_findCode_unread (unread : ¬c.settings.policy.mayRead = true) :
    (c.findCode address codeKey token).run.finish b =
      some (.ok (b.site.overlay.code.get? codeKey), b) := by
  unfold findCode storedCode
  rw [if_neg unread, bindExcept_assoc, finish_bind_ok (finish_gets _)]
  cases b.site.overlay.code.get? codeKey with
  | none => rfl
  | some record => rfl

variable (compares : c.store.Compares address same)

include compares

theorem meet_findCode
    (useless : ∃ found, (c.store.readCode address token).outcome b.site = some found ∧
      c.isUnusable found = true)
    (lacking : (c.store.readCode address token).outcome b'.site = some (.ok none))
    (level : b.Level same b') : Meet (Bench.Level same) Eq
      ((c.findCode address codeKey token).run.finish b)
      ((c.findCode address codeKey token).run.finish b') := by
  by_cases reads : c.settings.policy.mayRead = true
  · obtain ⟨found, read, unusable⟩ := useless
    obtain ⟨⟨_, s⟩, ends, rfl⟩ := Option.map_eq_some_iff.1 read
    obtain ⟨⟨_, s'⟩, ends', missing⟩ := Option.map_eq_some_iff.1 lacking
    have sites : s.Level same s' := by
      have reading : (c.store.readCode address token).Even same := compares.readCode
      have both := reading.finish (Site.timely compares.timeless) level.site
      rw [ends, ends'] at both
      cases both with
      | some both => exact both.2
    obtain ⟨loaded, first⟩ := finish_findCode reads (.inl unusable) ends
    obtain ⟨loaded', second⟩ := finish_findCode reads (.inr missing) ends'
    rw [first, second]
    obtain ⟨_, state⟩ := level.state
    refine .some ⟨rfl, ⟨loaded', ?_⟩, sites⟩
    dsimp only
    rw [state]
  · rw [finish_findCode_unread reads, finish_findCode_unread reads, level.site.overlay]
    exact .some ⟨rfl, level⟩

theorem meet_readContent (level : b.Level same b') : Meet (Bench.Level same) Eq
    ((c.readContent address contentKey token).run.finish b)
    ((c.readContent address contentKey token).run.finish b') := by
  have delivered {d d' : Bench π} (found : Option ContentRecord) (level : d.Level same d') :
      Meet (Bench.Level same) Eq ((c.deliver address contentKey found).run.finish d)
        ((c.deliver address contentKey found).run.finish d') := by
    cases found with
    | some record => exact .some ⟨rfl, level⟩
    | none => exact .some ⟨rfl, level⟩
  rw [readContent_eq]
  split
  · apply (meet_storing compares.timeless compares.readContent level).bindExcept id
    intro found d d' _ _ level
    cases found with
    | ok found => exact delivered found level
    | error e => exact .some ⟨rfl, level⟩
  · rw [finish_bind_ok (finish_gets _), finish_bind_ok (finish_gets _), level.site.overlay]
    exact delivered _ level

theorem meet_findContent (level : b.Level same b') : Meet (Bench.Level same) Eq
    ((c.findContent address codeKey contentKey since token).run.finish b)
    ((c.findContent address codeKey contentKey since token).run.finish b') := by
  unfold findContent
  rw [finish_bind_ok (finish_gets _), finish_bind_ok (finish_gets _), level.twin.registry]
  split
  · exact .some ⟨rfl, level⟩
  · apply (meet_readContent compares level).bindExcept id
    intro record d d' _ _ level
    exact .some ⟨rfl, level.note codeKey since record⟩

/-- What an attempt begins with. -/
theorem meet_supply (useless : given = none → ∃ found,
      (c.store.readCode address token).outcome b.site = some found ∧ c.isUnusable found = true)
    (lacking : given = none →
      (c.store.readCode address token).outcome b'.site = some (.ok none))
    (level : b.Level same b') : Meet (Bench.Level same) Eq
      ((c.supply address codeKey contentKey given since token).run.finish b)
      ((c.supply address codeKey contentKey given since token).run.finish b') := by
  have looks : Meet (Bench.Level same) Eq
      ((c.inquire address codeKey given token).run.finish b)
      ((c.inquire address codeKey given token).run.finish b') := by
    unfold inquire
    rw [finish_bind_ok (finish_gets _), finish_bind_ok (finish_gets _), level.twin.cache]
    split
    · rename_i asks
      have bare : given = none :=
        Option.isNone_iff_eq_none.1 (Bool.and_eq_true_iff.1 (Bool.and_eq_true_iff.1 asks).1).2
      exact meet_findCode compares (useless bare) (lacking bare) level
    · exact .some ⟨rfl, level⟩
  apply looks.bindExcept id
  intro found d d' _ _ level
  split
  · exact .some ⟨rfl, level⟩
  · exact .some ⟨rfl, level⟩
  · apply (meet_findContent compares level).bindExcept id
    intro record d d' _ _ level
    exact .some ⟨rfl, level⟩

end

/-! ## Meeting in a write -/

section

variable {c : Compiler π} {same : Environment → Environment → Prop} {address : Address}
  {codeKey contentKey : String} {given : Option ContentRecord} {since : Nat} {token : Token}
  {b b' : Bench π}

/-- A write that runs alone puts the record that it returns into the overlay, and nothing if it
fails. -/
theorem written_of_finish (commits : c.store.Commits) {renderer : Renderer} {s t : Site π}
    {r : Except StoreError CodeRecord}
    (ends : (c.store.writeCode address renderer token).run.finish s = some (r, t)) :
    t.overlay = r.toOption.elim s.overlay s.overlay.putCode ∧ ∀ record, r = .ok record →
      ∃ key, address.key c.store.resolver .code = .ok key ∧
        record = ⟨key, address.name, renderer⟩ := by
  have runs : (c.store.writeCode address renderer token).run.Runs Site.SameOverlay s r t :=
    runs_of_finish (fun _ => rfl) (fun _ _ => rfl) (fun _ _ => rfl) ends
  have outcome := commits.writeCode address renderer token runs
  cases r with
  | error e => exact ⟨outcome.same (f := Site.overlay) id id, nofun⟩
  | ok record =>
      obtain ⟨fine, u, around, rfl⟩ := outcome
      refine ⟨congrArg (Overlay.putCode · record) (around.same (f := Site.overlay) id id), ?_⟩
      rintro _ ⟨⟩
      exact fine

/-- Writes of one renderer that come to the same leave the same overlay. -/
theorem meet_storeCode (commits : c.store.Commits) {renderer : Renderer}
    (level : b.Level same b') (writes : c.settings.policy.mayWrite = true →
      (c.store.writeCode address renderer token).outcome b'.site =
        (c.store.writeCode address renderer token).outcome b.site) :
    Meet Bench.Twin Eq ((c.storeCode address codeKey renderer token).run.finish b)
      ((c.storeCode address codeKey renderer token).run.finish b') := by
  unfold storeCode
  split
  · rename_i asked
    replace writes := writes asked
    have written : Meet Site.SameOverlay Eq
        ((c.store.writeCode address renderer token).run.finish b.site)
        ((c.store.writeCode address renderer token).run.finish b'.site) := by
      unfold Storing.outcome at writes
      cases ends : (c.store.writeCode address renderer token).run.finish b.site with
      | none =>
          rw [ends] at writes
          rw [Option.map_eq_none_iff.1 writes]
          exact .none
      | some p =>
          rw [ends] at writes
          obtain ⟨p', ends', results⟩ := Option.map_eq_some_iff.1 writes
          rw [ends']
          refine .some ⟨results.symm, ?_⟩
          unfold Site.SameOverlay
          rw [(written_of_finish commits ends).1, (written_of_finish commits ends').1, results,
            level.site.overlay]
    have stored : Meet Bench.Twin Eq
        ((storing (c.store.writeCode address renderer token)).run.finish b)
        ((storing (c.store.writeCode address renderer token)).run.finish b') := by
      rw [finish_storing, finish_storing]
      apply written.map
      rintro ⟨r, s⟩ ⟨_, s'⟩ rfl overlays
      exact ⟨rfl, level.twin.registry, level.twin.cache, overlays⟩
    apply stored.bindExcept id
    intro found d d' _ _ twin
    cases found with
    | ok record => exact .some ⟨rfl, twin⟩
    | error e => exact .some ⟨rfl, twin⟩
  · exact .some ⟨rfl, level.twin⟩

theorem meet_compileContent (commits : c.store.Commits) {content : Content}
    (level : b.Level same b') (writes : ∀ renderer,
      c.generator.generate content c.settings.generator = .ok renderer →
      c.settings.policy.mayWrite = true →
      (c.store.writeCode address renderer token).outcome b'.site =
        (c.store.writeCode address renderer token).outcome b.site) :
    Meet Bench.Twin Eq
      ((c.compileContent address codeKey contentKey content since token).run.finish b)
      ((c.compileContent address codeKey contentKey content since token).run.finish b') := by
  have counted : b.countGenerated.Level same b'.countGenerated :=
    level.onState fun _ loaded => ⟨loaded, rfl⟩
  unfold compileContent generate
  rw [finish_bind_ok (finish_step _), finish_bind_ok (finish_step _)]
  dsimp only
  cases made : c.generator.generate content c.settings.generator with
  | error e => exact .some ⟨rfl, counted.twin⟩
  | ok renderer =>
      apply (meet_storeCode commits counted (writes renderer made)).bindExcept id
      intro record d d' _ _ twin
      refine .some ⟨rfl, twin.registry, ?_, twin.overlay⟩
      exact congrArg (fun cache => if c.settings.caching then
        (CodeCache.insert cache record since).2 else cache.refresh codeKey since) twin.cache

/-- What an attempt generates if it begins on a bench, and where it stands then. -/
def Generates (c : Compiler π) (address : Address) (codeKey contentKey : String)
    (given : Option ContentRecord) (since : Nat) (b : Bench π) (renderer : Renderer)
    (d : Bench π) : Prop :=
  ∃ record,
    (c.supply address codeKey contentKey given since (Bench.newToken c.settings b).1).run.finish
        (Bench.newToken c.settings b).2 = some (.ok (.inr record), d) ∧
      c.generator.generate record.content c.settings.generator = .ok renderer

theorem finish_compileAnew (keyed : address.key c.store.resolver .content = .ok contentKey) :
    (c.compileAnew address codeKey given since).run.finish b =
      (c.supply address codeKey contentKey given since (Bench.newToken c.settings b).1 >>=
        c.use address codeKey contentKey since (Bench.newToken c.settings b).1).run.finish
          (Bench.newToken c.settings b).2 := by
  rw [← attempt_eq keyed]
  unfold Compiler.attempt
  rw [compileAnew_eq]
  exact finish_bind_ok (finish_step _)

theorem meet_compileAnew (compares : c.store.Compares address same)
    (keyed : address.key c.store.resolver .content = .ok contentKey)
    (level : b.Level same b') (breaks : given = none → c.Breaks address b)
    (lacks : given = none → c.Lacks address b') (writes : ∀ renderer d d',
      c.Generates address codeKey contentKey given since b renderer d →
      c.Generates address codeKey contentKey given since b' renderer d' →
      c.settings.policy.mayWrite = true →
      (c.store.writeCode address renderer (Bench.newToken c.settings b).1).outcome d'.site =
        (c.store.writeCode address renderer (Bench.newToken c.settings b).1).outcome d.site) :
    Meet Bench.Twin Eq ((c.compileAnew address codeKey given since).run.finish b)
      ((c.compileAnew address codeKey given since).run.finish b') := by
  obtain ⟨token, drawn⟩ := level.newToken compares.timeless c.settings
  rw [finish_compileAnew keyed, finish_compileAnew keyed]
  unfold Breaks codeRead at breaks
  unfold Lacks codeRead at lacks
  unfold Generates at writes
  rw [token] at lacks writes ⊢
  apply (meet_supply compares breaks lacks drawn).bindExcept Bench.Level.twin
  intro found d d' ends ends' level
  cases found with
  | inl record =>
      refine .some ⟨rfl, level.twin.registry, ?_, level.twin.overlay⟩
      exact congrArg (fun cache => (CodeCache.insert cache record since).2) level.twin.cache
  | inr record =>
      apply meet_compileContent compares.offered.contracts.2.1 level
      intro renderer made asked
      exact writes renderer d d' ⟨record, ends, made⟩ ⟨record, ends', made⟩ asked

theorem Generates.generated {renderer : Renderer} {d : Bench π}
    (generates : c.Generates address codeKey contentKey given since b renderer d) :
    d.state.generated = b.state.generated := by
  obtain ⟨record, supplied, -⟩ := generates
  have runs : (c.supply address codeKey contentKey given since
      (Bench.newToken c.settings b).1).run.Runs Bench.Behind (Bench.newToken c.settings b).2 _ d :=
    runs_of_finish .refl (fun _ _ => ⟨rfl, rfl⟩) (fun _ _ => rfl) supplied
  refine ((supply_searches _).runs (fun t => t.state.generated = b.state.generated) runs
    (fun searches kept => ?_) (fun changed kept => ?_) rfl).1
  · obtain ⟨registry, loaded, state⟩ := searches
    rw [state]
    exact kept
  · rw [changed.state]
    exact kept

/-- Over a store that hands renderers back, an attempt ends where it would write. -/
theorem Generates.handedBack (coded : address.key c.store.resolver .code = .ok codeKey)
    (keyed : address.key c.store.resolver .content = .ok contentKey)
    (asked : c.settings.policy.mayWrite = true) {renderer : Renderer} {d : Bench π}
    (generates : c.Generates address codeKey contentKey given since b renderer d) :
    (({ c with store := c.store.handingBack } : Compiler π).compileAnew address codeKey given
        since).run.finish b =
      some (.ok ⟨codeKey, address.name, renderer⟩,
        c.publish codeKey since ⟨codeKey, address.name, renderer⟩ d.countGenerated) := by
  obtain ⟨record, supplied, made⟩ := generates
  refine (finish_compileAnew (c := { c with store := c.store.handingBack }) keyed).trans ?_
  refine (finish_bind_ok (x := c.supply address codeKey contentKey given since _) supplied).trans ?_
  have handed (token : Token) (d : Bench π) :
      (storing (c.store.handingBack.writeCode address renderer token)).run.finish d =
        some (.ok (.ok ⟨codeKey, address.name, renderer⟩), d) := by
    rw [finish_storing]
    unfold Store.handingBack
    dsimp only
    rw [coded]
    rfl
  unfold use compileContent generate
  rw [finish_bind_ok (finish_step _)]
  dsimp only
  rw [made]
  dsimp only
  unfold storeCode
  rw [if_pos asked, bindExcept_assoc, finish_bind_ok (handed _ _)]
  rfl

end

/-! ## Whole compiles -/

section

variable {c : Compiler π} {same : Environment → Environment → Prop} {input : CompileInput}
  {codeKey contentKey : String} {b b' : Bench π}

/-- Nothing is registered first if there is nothing to register. -/
theorem accept_bare {resolver : Resolver} {address : Address} {content : Option Content}
    {given : Option ContentRecord} {accepted : Bench π}
    (accepts : b.accept resolver address contentKey content = (given, accepted))
    (bare : given = none) : accepted = b := by
  cases content with
  | none =>
      cases accepts
      rfl
  | some content =>
      subst bare
      cases accepts

theorem prepares_of_accept {resolver : Resolver} {address : Address} {content : Option Content}
    {given : Option ContentRecord} {accepted : Bench π}
    (accepts : b.accept resolver address contentKey content = (given, accepted)) :
    b.Prepares accepted := by
  have prepares : b.Prepares (b.accept resolver address contentKey content).2 :=
    Bench.prepares_accept
  rw [accepts] at prepares
  exact prepares

/-- A write that an attempt of a compile comes to is one that the compile comes to. -/
theorem brings_of_generates (coded : input.address.key c.store.resolver .code = .ok codeKey)
    (keyed : input.address.key c.store.resolver .content = .ok contentKey)
    {given : Option ContentRecord} {accepted : Bench π} {number caller : Nat} {boarded : Flights}
    (accepts : b.accept c.store.resolver input.address contentKey input.content = (given, accepted))
    (missed : (if c.settings.caching then accepted.state.cache.get? codeKey else none) = none)
    (joins : accepted.state.flights.join codeKey = ((number, caller), boarded))
    (due : boarded.isDue number caller = true) (unlanded : (boarded.flight number).result = none)
    (asked : c.settings.policy.mayWrite = true) {renderer : Renderer} {d : Bench π}
    (generates : c.Generates input.address codeKey contentKey given accepted.state.cache.epoch
      (accepted.withFlights fun _ => boarded) renderer d) : c.Brings input b renderer d.site := by
  have handed := generates.handedBack coded keyed asked
  have generated := generates.generated
  have before := (prepares_of_accept accepts).generated
  have ends := finish_compile_due (c := { c with store := c.store.handingBack }) coded keyed
    accepts missed joins due unlanded
  rw [handed] at ends
  refine ⟨asked, _, _, ends, ?_, rfl, rfl⟩
  show b.state.generated < d.state.generated + 1
  rw [generated, ← before]
  exact Nat.lt_succ_self _

/-- From level benches, callers board the same flight, and both work or neither does. -/
theorem meet_share {work : Compiling π CodeRecord} (level : b.Level same b')
    (works : ∀ {number caller boarded},
      b.state.flights.join codeKey = ((number, caller), boarded) →
      boarded.isDue number caller = true → (boarded.flight number).result = none →
      Meet Bench.Twin Eq (work.run.finish (b.withFlights fun _ => boarded))
        (work.run.finish (b'.withFlights fun _ => boarded))) :
    Meet Bench.Twin Eq ((share codeKey work).run.finish b)
      ((share codeKey work).run.finish b') := by
  rcases joins : b.state.flights.join codeKey with ⟨⟨number, caller⟩, boarded⟩
  have joins' : b'.state.flights.join codeKey = ((number, caller), boarded) := by
    rw [level.flights, joins]
  have twin := level.twin
  rw [finish_share joins, finish_share joins']
  split
  · rename_i due
    cases unlanded : (boarded.flight number).result with
    | some record => exact .some ⟨rfl, twin.registry, twin.cache, twin.overlay⟩
    | none =>
        apply (works joins due unlanded).map
        rintro ⟨r, d⟩ ⟨_, d'⟩ rfl flown
        exact ⟨rfl, flown.registry, flown.cache, flown.overlay⟩
  · exact .none

/-- What both compiles are given is accepted first, and then both have the same to do. -/
theorem meet_compile (compares : c.store.Compares input.address same) (level : b.Level same b')
    (breaks : c.Breaks input.address b) (lacks : c.Lacks input.address b')
    (writes : c.WritesAlike input b b')
    (coded : input.address.key c.store.resolver .code = .ok codeKey)
    (keyed : input.address.key c.store.resolver .content = .ok contentKey) :
    Meet Bench.Twin Eq ((c.compile input).run.finish b) ((c.compile input).run.finish b') := by
  obtain ⟨alike, levels⟩ :=
    Bench.tracks_level.accept level c.store.resolver input.address contentKey input.content
  rw [finish_compile coded keyed, finish_compile coded keyed]
  rcases accepts : b.accept c.store.resolver input.address contentKey input.content with
    ⟨given, accepted⟩
  rcases accepts' : b'.accept c.store.resolver input.address contentKey input.content with
    ⟨given', accepted'⟩
  rw [accepts, accepts'] at alike levels
  cases alike
  dsimp only at levels ⊢
  rw [levels.twin.cache]
  cases missed : if c.settings.caching then accepted.state.cache.get? codeKey else none with
  | some record => exact .some ⟨rfl, levels.twin⟩
  | none =>
      apply meet_share levels
      intro number caller boarded joins due unlanded
      apply meet_compileAnew compares keyed (levels.withFlights fun _ => boarded)
      · intro bare
        rw [accept_bare accepts bare]
        exact breaks
      · intro bare
        rw [accept_bare accepts' bare]
        exact lacks
      · intro renderer d d' generates generates' asked
        have token : (Bench.newToken c.settings (accepted.withFlights fun _ => boarded)).1 =
            (Bench.newToken c.settings b).1 := (prepares_of_accept accepts).newToken c.settings
        have joins' : accepted'.state.flights.join codeKey = ((number, caller), boarded) := by
          rw [levels.flights, joins]
        rw [token]
        rw [← levels.twin.cache] at generates'
        have missed' : (if c.settings.caching then accepted'.state.cache.get? codeKey
            else none) = none := by
          rw [levels.twin.cache, missed]
        exact writes renderer d.site d'.site
          (brings_of_generates coded keyed accepts missed joins due unlanded asked generates)
          (brings_of_generates coded keyed accepts' missed' joins' due unlanded asked generates')

/-- Code that cannot be used does no harm. A compile over a medium with such code, and a compile
over one with none, but else the same content of the address, come to the same outcome, and leave
the same registry, renderers and overlay, provided a write that both come to has one outcome.
Between calls, they do come to an end. -/
theorem unusable_code_is_harmless (compares : c.store.Compares input.address same)
    (level : b.Level same b') (breaks : c.Breaks input.address b)
    (lacks : c.Lacks input.address b')
    (writes : c.WritesAlike input b b') :
    Meet Bench.Twin Eq ((c.compile input).run.finish b) ((c.compile input).run.finish b') ∧
      (b.Resting → ∃ r d, (c.compile input).run.finish b = some (r, d)) := by
  constructor
  · cases coded : input.address.key c.store.resolver .code with
    | error e =>
        rw [Session.compile_unnamed coded]
        exact .some ⟨rfl, level.twin⟩
    | ok codeKey =>
        obtain ⟨contentKey, keyed⟩ : ∃ key, input.address.key c.store.resolver .content = .ok key :=
          Resolver.resolve_ok (Resolver.not_blank coded)
        exact meet_compile compares level breaks lacks writes coded keyed
  · intro resting
    obtain ⟨r, d, ends, -⟩ := compile_ends compares.offered.contracts.2.2 resting input
    exact ⟨r, d, ends⟩

end

end Compiler

/-! ## A sample -/

namespace Sample

/-- The document of code for the name `a` is no text. -/
def spoiled : Bench Written :=
  Compiler.start { own := [], environment := {
    engine := engine.put Collection.code.name "partials/a.html.compiled" [0xff] } }

theorem resting_spoiled : spoiled.Resting := Bench.resting_start fun _ _ => nofun

/-- What is under the code keys of an engine makes no difference to its content. -/
theorem sameContent_put {address : Address} {e : Environment} (key : String)
    (document : List UInt8) : Store.KeyValue.SameContent resolver address
      { e with engine := e.engine.put Collection.code.name key document } e where
  delay := rfl
  fetch k _ := by
    have apart : (e.engine.put Collection.code.name key document).get? Collection.content.name k =
        e.engine.get? Collection.content.name k := by
      rw [Store.KeyValue.get?_put, if_neg nofun]
    have faults : (e.engine.put Collection.code.name key document).fault? .get
        Collection.content.name k = e.engine.fault? .get Collection.content.name k := rfl
    unfold Store.KeyValue.fetch Engine.attempt
    rw [faults]
    cases e.engine.fault? .get Collection.content.name k with
    | some error => rfl
    | none => exact congrArg Except.ok apart.symm

/-- A compile of the name `a`, of which there is content in the engine. -/
def lookup : CompileInput := ⟨⟨"a", none, none⟩, none⟩

/-- Whether a compile comes to a write that succeeds. -/
def writes (c : Compiler π) (input : CompileInput) (b : Bench π) : Bool :=
  match (({ c with store := c.store.handingBack } : Compiler π).compile input).run.finish b with
  | some (.ok record, d) =>
    ((c.store.writeCode input.address record.renderer (Bench.newToken c.settings b).1).outcome
      d.site).any (·.toOption.isSome)
  | _ => false

/-- A write that succeeds returns the record that is written. -/
theorem outcome_of_writes {c : Compiler π} {input : CompileInput} {b : Bench π} {codeKey : String}
    (commits : c.store.Commits) (coded : input.address.key c.store.resolver .code = .ok codeKey)
    (succeeds : writes c input b = true) {renderer : Renderer} {site : Site π}
    (brings : c.Brings input b renderer site) :
    (c.store.writeCode input.address renderer (Bench.newToken c.settings b).1).outcome site =
      some (.ok ⟨codeKey, input.address.name, renderer⟩) := by
  obtain ⟨-, record, d, ends, -, rfl, rfl⟩ := brings
  unfold writes at succeeds
  rw [ends] at succeeds
  obtain ⟨_, came, fine⟩ := (Option.any_eq_true _ _).1 succeeds
  obtain ⟨⟨r, t⟩, written, rfl⟩ := Option.map_eq_some_iff.1 came
  cases r with
  | error e => cases fine
  | ok kept =>
      obtain ⟨key, named, rfl⟩ := (Compiler.written_of_finish commits written).2 kept rfl
      cases coded.symm.trans named
      exact came

end Sample

open Sample

/-- A document of code that is no text makes no difference, and the compile writes its own. -/
theorem spoiled_code_is_ignored :
    (restrained .readWrite).Breaks lookup.address spoiled ∧
      Meet Bench.Twin Eq (((restrained .readWrite).compile lookup).run.finish spoiled)
        (((restrained .readWrite).compile lookup).run.finish stockroom) ∧
      ∃ r d, ((restrained .readWrite).compile lookup).run.finish spoiled = some (r, d) := by
  have compares : (restrained .readWrite).store.Compares lookup.address
    (Store.KeyValue.SameContent resolver lookup.address) := .keyValue _ _
  have level : spoiled.Level (Store.KeyValue.SameContent resolver lookup.address) stockroom :=
    ⟨⟨0, rfl⟩, rfl, rfl, rfl, sameContent_put (e := stockroom.site.environment) _ _⟩
  have breaks : (restrained .readWrite).Breaks lookup.address spoiled :=
    (Option.any_eq_true _ _).1 (by decide +kernel)
  have commits : (restrained .readWrite).store.Commits := compares.offered.contracts.2.1
  have coded : lookup.address.key resolver .code = .ok "partials/a.html.compiled" := rfl
  obtain ⟨same, ends⟩ := Compiler.unusable_code_is_harmless compares level breaks rfl
    fun renderer site site' brings brings' =>
      (outcome_of_writes commits coded (by decide +kernel) brings').trans
        (outcome_of_writes commits coded (by decide +kernel) brings).symm
  exact ⟨breaks, same, ends resting_spoiled⟩

/-- There is one renderer more, and it is cached. -/
example : (((restrained .readWrite).compile lookup).run.finish spoiled).map (fun (r, d) =>
    (r.toOption.isSome, d.state.generated,
      (d.state.cache.get? "partials/a.html.compiled").isSome)) = some (true, 1, true) := by
  decide +kernel

end TemplateCache
