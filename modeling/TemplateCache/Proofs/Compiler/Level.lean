import TemplateCache.Proofs.Compiler.Boarding
import TemplateCache.Proofs.Store.Parity

/-!
# Compiles on level benches

Level benches remember the same, on sites that are level. What a compile does before it is given a
renderer comes to the same from both and leaves them level. A compile that runs alone is put
together from its parts here: it accepts what it is given, has a flight to itself, draws its token,
and looks for code before it looks for content.
-/

namespace TemplateCache

open Job

variable {π α : Type} {same : Environment → Environment → Prop}

/-- Benches that remember the same, but for how often source was loaded. -/
structure Bench.Level (same : Environment → Environment → Prop) (b b' : Bench π) : Prop where
  state : ∃ loaded, b'.state = { b.state with loaded := loaded }
  site : b.site.Level same b'.site

namespace Bench.Level

variable {b b' : Bench π}

theorem twin (level : b.Level same b') : b.Twin b' := by
  obtain ⟨loaded, state⟩ := level.state
  constructor
  · rw [state]
  · rw [state]
  · exact level.site.overlay

theorem flights (level : b.Level same b') : b'.state.flights = b.state.flights := by
  obtain ⟨loaded, state⟩ := level.state
  rw [state]

theorem onState (level : b.Level same b') {f : CompilerState → CompilerState}
    (apart : ∀ s loaded, ∃ loaded', f { s with loaded := loaded } =
      { f s with loaded := loaded' }) :
    (b.onState f).Level same (b'.onState f) := by
  obtain ⟨loaded, state⟩ := level.state
  obtain ⟨loaded', goes⟩ := apart b.state loaded
  exact ⟨⟨loaded', (congrArg f state).trans goes⟩, level.site⟩

theorem withFlights (level : b.Level same b') (f : Flights → Flights) :
    (b.withFlights f).Level same (b'.withFlights f) :=
  level.onState fun _ loaded => ⟨loaded, rfl⟩

theorem note (level : b.Level same b') (codeKey : String) (since : Nat) (found : ContentRecord) :
    (b.note codeKey since found).Level same (b'.note codeKey since found) := by
  unfold Bench.note
  rw [level.twin.cache]
  split
  · exact level
  · exact level.onState fun _ loaded => ⟨loaded, rfl⟩

theorem newToken (level : b.Level same b') (timeless : Timeless same)
    (settings : CompilerSettings) :
    (Bench.newToken settings b').1 = (Bench.newToken settings b).1 ∧
      (Bench.newToken settings b).2.Level same (Bench.newToken settings b').2 := by
  obtain ⟨loaded, state⟩ := level.state
  have clock : Clocked.clock b' = Clocked.clock b := level.site.clock
  unfold Bench.newToken
  rw [clock, state]
  exact ⟨rfl, ⟨loaded, state⟩, (Site.timely timeless).passes _ level.site⟩

end Bench.Level

theorem Bench.tracks_level : Tracks (Level same : Bench π → Bench π → Prop) where
  registry level := level.twin.registry
  withRegistry _ level := level.onState fun _ loaded => ⟨loaded, rfl⟩
  withCache _ level := level.onState fun _ loaded => ⟨loaded, rfl⟩
  withFlights f level := level.withFlights f
  onOverlay f level := ⟨level.state, congrArg f level.site.overlay, level.site.own,
    level.site.clock, level.site.media⟩

/-! ## Parts of a compile that runs alone -/

namespace Compiling

variable {b : Bench π}

theorem finish_step (f : Bench π → α × Bench π) :
    (step f).run.finish b = some (.ok (f b).1, (f b).2) := rfl

theorem finish_lift (job : Job (Bench π) α) : (ExceptT.lift job : Compiling π α).run.finish b =
    (job.finish b).map fun (v, d) => (.ok v, d) := by
  refine (finish_bind job (fun v => Job.done (.ok v : Except CompileError _)) b).trans ?_
  cases job.finish b with
  | none => rfl
  | some result => rfl

/-- What a store does, it does on its site. -/
theorem finish_storing (job : Storing π α) : (storing job).run.finish b =
    (job.run.finish b.site).map fun (r, s) => (.ok r, { b with site := s }) := by
  have works : (job.run.on Bench.sitePart).finish b =
      (job.run.finish b.site).map fun (r, s) => (r, { b with site := s }) :=
    finish_on (fun _ _ => rfl) (fun _ _ _ => rfl) (fun _ => rfl) (fun _ => rfl) (fun _ _ => rfl)
      job.run b
  refine (finish_lift _).trans ?_
  rw [works]
  cases job.run.finish b.site with
  | none => rfl
  | some result => rfl

end Compiling

namespace Compiler

open Compiling

variable {c : Compiler π} {input : CompileInput} {codeKey contentKey : String} {b : Bench π}

/-- A compile accepts what it is given, and looks into the cache before it boards a flight. -/
theorem finish_compile (coded : input.address.key c.store.resolver .code = .ok codeKey)
    (keyed : input.address.key c.store.resolver .content = .ok contentKey) :
    let accepted := b.accept c.store.resolver input.address contentKey input.content
    (c.compile input).run.finish b =
      match if c.settings.caching then accepted.2.state.cache.get? codeKey else none with
      | some record => some (.ok record, accepted.2)
      | none => (share codeKey (c.compileAnew input.address codeKey accepted.1
          accepted.2.state.cache.epoch)).run.finish accepted.2 := by
  intro accepted
  unfold compile
  refine (finish_bind_ok (finish_naming coded)).trans ?_
  refine (finish_bind_ok (finish_registerGiven keyed)).trans ?_
  refine (finish_bind_ok (finish_gets _)).trans ?_
  refine (finish_bind_ok (finish_gets _)).trans ?_
  split
  · rename_i record found
    rw [found]
    rfl
  · rename_i missed
    rw [missed]

/-- The flight of a caller lands, or it is the turn of the next one. -/
def alight (codeKey : String) (number : Nat) (r : Except CompileError CodeRecord) (b : Bench π) :
    Bench π :=
  b.withFlights fun f => (match r with
    | .ok record => f.land number record
    | .error _ => f.handOver number).leave codeKey number

/-- A caller that is due takes the result of its flight, or does the work itself. Another one would
wait for good. -/
theorem finish_share {work : Compiling π CodeRecord} {number caller : Nat} {boarded : Flights}
    (joins : b.state.flights.join codeKey = ((number, caller), boarded)) :
    (share codeKey work).run.finish b =
      if boarded.isDue number caller then
        match (boarded.flight number).result with
        | some record => some (.ok record, b.withFlights fun _ => boarded.leave codeKey number)
        | none => (work.run.finish (b.withFlights fun _ => boarded)).map fun (r, d) =>
            (r, alight codeKey number r d)
      else none := by
  have boards : (b.state.flights.board codeKey).1 = number := congrArg (fun s => s.1.1) joins
  have enters : ((b.state.flights.board codeKey).2.enter number) = (caller, boarded) := by
    subst boards
    exact congrArg (fun s => (s.1.2, s.2)) joins
  unfold share
  refine (finish_bind_ok (finish_step _)).trans ?_
  dsimp only
  rw [boards, enters]
  dsimp only
  have waits : (ExceptT.lift (Job.await fun b => b.state.flights.isDue number caller) :
      Compiling π Unit).run.finish (b.withFlights fun _ => boarded) =
        if boarded.isDue number caller then some (.ok (), b.withFlights fun _ => boarded)
        else none := rfl
  by_cases due : boarded.isDue number caller
  · rw [if_pos due] at waits ⊢
    refine (finish_bind_ok waits).trans ?_
    refine (finish_bind_ok (finish_gets _)).trans ?_
    have flown : ((b.withFlights fun _ => boarded).state.flights.flight number).result =
      (boarded.flight number).result := rfl
    rw [flown]
    cases (boarded.flight number).result with
    | some record => rfl
    | none =>
        refine (finish_bind (ExceptT.lift work.run : Compiling π _).run _ _).trans ?_
        rw [finish_lift]
        cases work.run.finish (b.withFlights fun _ => boarded) with
        | none => rfl
        | some result =>
            rcases result with ⟨r, d⟩
            cases r with
            | ok record => rfl
            | error e => rfl
  · rw [if_neg due] at waits ⊢
    refine (finish_bind _ _ _).trans ?_
    exact congrArg (Option.bind · _) waits

/-- A compile that is due in its flight does the work itself. -/
theorem finish_compile_due {given : Option ContentRecord} {accepted : Bench π}
    {number caller : Nat} {boarded : Flights}
    (coded : input.address.key c.store.resolver .code = .ok codeKey)
    (keyed : input.address.key c.store.resolver .content = .ok contentKey)
    (accepts : b.accept c.store.resolver input.address contentKey input.content = (given, accepted))
    (missed : (if c.settings.caching then accepted.state.cache.get? codeKey else none) = none)
    (joins : accepted.state.flights.join codeKey = ((number, caller), boarded))
    (due : boarded.isDue number caller = true)
    (unlanded : (boarded.flight number).result = none) :
    (c.compile input).run.finish b =
      ((c.compileAnew input.address codeKey given accepted.state.cache.epoch).run.finish
        (accepted.withFlights fun _ => boarded)).map fun (r, d) =>
          (r, alight codeKey number r d) := by
  refine (finish_compile coded keyed).trans ?_
  rw [accepts]
  dsimp only
  rw [missed]
  dsimp only
  rw [finish_share joins, if_pos due, unlanded]

end Compiler
end TemplateCache
