import TemplateCache.Proofs.Compiler.Trace
import TemplateCache.Proofs.Job.Finish
import TemplateCache.Proofs.Job.Runs
import TemplateCache.Proofs.Registry

/-!
# Calls one after the other

A call that runs to completion has the compiler to itself, but whenever it waits, others use the
store or its medium. Between such calls no key leads to a flight, so a compile takes its turn at
once and shares nothing.
-/

namespace TemplateCache

variable {π : Type}

namespace Bench

/-- Time goes by, and others who use the store or its medium do as they like. They leave the
renderers in the overlay alone, which only compilers put there. -/
structure Elsewhere (b d : Bench π) : Prop where
  state : d.state = b.state
  code : Site.SameCode b.site d.site

/-- Between calls no key leads to a flight. -/
structure Resting (b : Bench π) : Prop where
  sound : b.Sound
  free : ∀ key, b.state.flights.current.get? key = none

end Bench

namespace Compiler

/-- A call that is made on a bench, its answer, and the bench that it leaves. -/
def Does (c : Compiler π) (command : Command) (b : Bench π) (answer : Except CompileError Answer)
    (d : Bench π) : Prop :=
  (command.work c).run.Runs Bench.Elsewhere b answer d

/-- Calls one after the other, each of which fits the benches before and after it. -/
inductive Serial (c : Compiler π) (fits : Command → Bench π → Bench π → Prop) (b : Bench π) :
    Bench π → Prop where
  | refl : Serial c fits b b
  | call {d e : Bench π} {command : Command} {answer : Except CompileError Answer}
      (before : Serial c fits b d) (does : c.Does command d answer e)
      (fitting : fits command d e) : Serial c fits b e
  | elsewhere {d e : Bench π} (before : Serial c fits b d) (changed : d.Elsewhere e) :
      Serial c fits b e

end Compiler

namespace Bench

variable {b d e : Bench π}

theorem Elsewhere.refl (b : Bench π) : b.Elsewhere b := ⟨rfl, rfl⟩

theorem Elsewhere.sheds (h : b.Elsewhere d) : b.Sheds d :=
  .ofSite (by rw [h.state]) (by rw [h.state]) h.code.losesCode

theorem Elsewhere.chore {resolver : Resolver} (h : b.Elsewhere d) : Chore resolver b d :=
  .apart (by rw [h.state]) (by rw [h.state]) (by rw [h.state]) h.code.losesCode

theorem Sheds.resting (h : b.Sheds d) (resting : b.Resting) : d.Resting where
  sound := h.keeps_sound resting.sound
  free key := by
    cases leads : d.state.flights.current.get? key with
    | none => rfl
    | some n => exact nomatch (resting.free key).symm.trans (h.current leads)

theorem resting_start {site : Site π} (keyed : site.Keyed) : (Compiler.start site).Resting where
  sound := ⟨Flights.keyed_empty, keyed _ _, CodeCache.sound_empty⟩
  free _ := rfl

end Bench

/-! ## Compiles that are alone -/

/-- A compile that is alone sits in the only flight that a key leads to, and the flight has no
result as long as it waits. -/
structure Stage.Solo (codeKey : String) (b : Bench π) (a : Stage) : Prop where
  apart : ∀ key, key ≠ codeKey → b.state.flights.current.get? key = none
  seat : ∀ {t}, a.ticket? = some t → b.state.flights.current.get? codeKey = some t.number
  free : a.ticket? = none → b.state.flights.current.get? codeKey = none
  empty : ∀ {t}, a = .waiting t → (b.state.flights.flight t.number).result = none

section

variable {c : Compiler π} {input : CompileInput} {codeKey k : String} {a a' : Stage}
  {b b' d : Bench π}

theorem Stage.Solo.of_flights (solo : a.Solo codeKey b)
    (current : b'.state.flights.current = b.state.flights.current)
    (same : a'.ticket? = a.ticket?) (rests : ∀ t, a' ≠ .waiting t) : a'.Solo codeKey b' where
  apart key other := by
    rw [current]
    exact solo.apart key other
  seat sits := by
    rw [current]
    exact solo.seat (same ▸ sits)
  free unseated := by
    rw [current]
    exact solo.free (same ▸ unseated)
  empty waits := absurd waits (rests _)

theorem solo_of_free (free : ∀ key, b.state.flights.current.get? key = none)
    (unseated : a.ticket? = none) : a.Solo codeKey b where
  apart key _ := free key
  seat sits := by
    rw [unseated] at sits
    exact nomatch sits
  free _ := free codeKey
  empty waits := by
    rw [waits] at unseated
    exact nomatch unseated

theorem Stage.Solo.all_free (solo : a.Solo codeKey b) (unseated : a.ticket? = none) (key : String) :
    b.state.flights.current.get? key = none := by
  by_cases own : key = codeKey
  · rw [own]
    exact solo.free unseated
  · exact solo.apart key own

theorem Move.solo (m : Move c input codeKey a b a' b') (solo : a.Solo codeKey b) :
    a'.Solo codeKey b' := by
  cases m with
  | give full key =>
      refine solo_of_free (fun k => Option.eq_none_iff_forall_ne_some.2 fun n leads => ?_) rfl
      have before := (Bench.sheds_register _).current leads
      rw [solo.all_free rfl k] at before
      exact nomatch before
  -- No key led to a flight, so the compile boards a new one.
  | board missed =>
      have free := solo.free rfl
      refine ⟨fun k other => ?_, fun sits => ?_, nofun, fun waits => ?_⟩
      · exact Flights.current_join.trans ((if_neg other).trans (solo.apart k other))
      · cases sits
        exact Flights.current_join.trans (if_pos rfl)
      · cases waits
        show ((b.state.flights.join codeKey).2.flight (b.state.flights.join codeKey).1.1).result = _
        rw [Flights.join_new free, Flights.flight_join_new free]
  | leave =>
      refine solo_of_free (fun k => ?_) rfl
      by_cases own : k = codeKey
      · rw [own]
        exact Flights.current_leave_own (solo.seat rfl)
      · refine Option.eq_none_iff_forall_ne_some.2 fun n leads => ?_
        exact nomatch (solo.apart k own).symm.trans (Flights.current_leave leads)
  | found =>
      unfold Bench.note
      split
      · exact solo.of_flights rfl rfl nofun
      · exact solo.of_flights rfl rfl nofun
  | land => exact solo.of_flights rfl rfl nofun
  | handOver => exact solo.of_flights rfl rfl nofun
  | _ => exact solo.of_flights rfl rfl nofun

/-- What holds throughout a compile that is alone. -/
structure Stage.Undisturbed (codeKey : String) (b : Bench π) (a : Stage) : Prop where
  bench : b.Sound
  stage : a.Sound codeKey b
  solo : a.Solo codeKey b

theorem Move.undisturbed (m : Move c input codeKey a b a' b') (h : a.Undisturbed codeKey b) :
    a'.Undisturbed codeKey b' :=
  ⟨m.keeps_sound h.bench, m.keeps_stage h.bench h.stage, m.solo h.solo⟩

theorem Bench.Elsewhere.undisturbed (changed : b.Elsewhere d) (h : a.Undisturbed codeKey b) :
    a.Undisturbed codeKey d where
  bench := changed.sheds.keeps_sound h.bench
  stage := h.stage.later changed.sheds.later
  solo := by
    have same := changed.state
    exact ⟨same ▸ h.solo.apart, same ▸ h.solo.seat, same ▸ h.solo.free, same ▸ h.solo.empty⟩

theorem Bench.Resting.undisturbed (resting : b.Resting) : Stage.asked.Undisturbed codeKey b :=
  ⟨resting.sound, stage_sound_asked, solo_of_free resting.free rfl⟩

/-- A compile that runs to completion ends in a stage of which an invariant of its moves holds. -/
theorem Compiler.Does.compiled (lawful : c.store.Lawful) {answer : Except CompileError Answer}
    (does : c.Does (.compile input) b answer d)
    (named : input.address.key c.store.resolver .code = .ok codeKey) (resting : b.Resting)
    (inv : Stage → Bench π → Prop)
    (moves : ∀ {a a' : Stage} {b b' : Bench π}, Move c input codeKey a b a' b' →
      a.Undisturbed codeKey b → inv a b → inv a' b')
    (other : ∀ {a : Stage} {b b' : Bench π}, b.Elsewhere b' → inv a b → inv a b')
    (start : inv .asked b) :
    ∃ result, answer = result.map .code ∧ inv (.finished result) d ∧ d.Resting := by
  obtain ⟨a, ⟨h, fine⟩, result, rfl, rfl⟩ := (Session.work_follows lawful named).runs
    (fun a b => a.Undisturbed codeKey b ∧ inv a b) does
    (fun m h => ⟨Move.undisturbed m h.1, moves m h.1 h.2⟩)
    (fun changed h => ⟨changed.undisturbed h.1, other changed h.2⟩) ⟨resting.undisturbed, start⟩
  exact ⟨result, rfl, fine, h.bench, h.solo.all_free rfl⟩

/-- A call for a name without a code key changes nothing. -/
theorem Compiler.Does.unnamed {answer : Except CompileError Answer} {e : NameError}
    (does : c.Does (.compile input) b answer d)
    (unnamed : input.address.key c.store.resolver .code = .error e) :
    d = b ∧ answer = .error (.naming e) := by
  have work : (Command.work c (.compile input)).run = .done (.error (.naming e)) := by
    have refused := Session.compile_unnamed unnamed
    exact congrArg (fun job => Job.bind job _) refused
  unfold Compiler.Does at does
  rw [work] at does
  cases does
  exact ⟨rfl, rfl⟩

end

/-- The record of the content that comes with a compile, once it is registered. -/
def Bench.accept {π : Type} (resolver : Resolver) (address : Address) (contentKey : String)
    (content : Option Content) (b : Bench π) : Option ContentRecord × Bench π :=
  match content with
  | none => (none, b)
  | some content =>
    let record := (CompileInput.mk address (some content)).record contentKey content
    (some (Bench.register resolver record b).1, (Bench.register resolver record b).2)

theorem Bench.Resting.accept {π : Type} {resolver : Resolver} {address : Address}
    {contentKey : String} {content : Option Content} {given : Option ContentRecord}
    {b d : Bench π} (resting : b.Resting)
    (accepted : b.accept resolver address contentKey content = (given, d)) : d.Resting := by
  cases content with
  | none =>
      cases accepted
      exact resting
  | some content =>
      cases accepted
      exact (Bench.sheds_register _).resting resting

namespace Compiling

section

variable {α β : Type} {others : Bench π → Bench π → Prop} {b d : Bench π}
  {r : Except CompileError β}

theorem runs_step {f : Bench π → α × Bench π} {next : α → Compiling π β}
    (runs : (step f >>= next).run.Runs others b r d) :
    (next (f b).1).run.Runs others (f b).2 r d := by
  cases runs with
  | act rest => exact rest

theorem runs_gets {f : Bench π → α} {next : α → Compiling π β}
    (runs : (gets f >>= next).run.Runs others b r d) : (next (f b)).run.Runs others b r d := by
  cases runs with
  | act rest => exact rest

theorem runs_modify {f : Bench π → Bench π} {next : Unit → Compiling π β}
    (runs : (modify f >>= next).run.Runs others b r d) : (next ()).run.Runs others (f b) r d := by
  cases runs with
  | act rest => exact rest

theorem runs_await {ready : Bench π → Bool} {next : Unit → Compiling π β}
    (runs : (ExceptT.lift (Job.await ready) >>= next : Compiling π β).run.Runs others b r d) :
    ∃ u, others b u ∧ (next ()).run.Runs others u r d := by
  cases runs with
  | wait changed due rest => exact ⟨_, changed, rest⟩

/-- What a store does, it does on its site, and what others do meanwhile is seen there. -/
theorem runs_storing {job : Storing π α} {r : Except CompileError (Except StoreError α)}
    {aside : Site π → Site π → Prop}
    (stays : ∀ {b d}, others b d → d.state = b.state ∧ aside b.site d.site)
    (runs : (storing job).run.Runs others b r d) :
    ∃ found, r = .ok found ∧ job.run.Runs aside b.site found d.site ∧ d.state = b.state := by
  obtain ⟨found, rfl, works⟩ := Job.Runs.of_lift runs
  have aside : job.run.Runs aside (Bench.sitePart.get b) found (Bench.sitePart.get d) :=
    works.of_on (fun _ _ => rfl) (fun _ => rfl) fun changed => (stays changed).2
  refine ⟨found, rfl, aside, ?_⟩
  exact ((Job.under_any.on (fun _ _ => trivial) fun _ _ _ same => same).runs works
    (fun changed same => (stays changed).1.trans same) rfl).1

end

variable {π α : Type} {b : Bench π}

theorem finish_gets (f : Bench π → α) : (gets f).run.finish b = some (.ok (f b), b) := rfl

theorem finish_naming {v : α} {r : Except NameError α} (named : r = .ok v) :
    (naming r : Compiling π α).run.finish b = some (.ok v, b) := by
  rw [named]
  rfl

end Compiling

/-! ## Sharing with nobody -/

section

open Job

variable {others : Bench π → Bench π → Prop} {work : Compiling π CodeRecord} {codeKey : String}
  {b d : Bench π} {r : Except CompileError CodeRecord}

/-- Who boards a flight that has landed takes its result. Otherwise it does the work itself when it
has its turn, and lands the flight or hands it over. Either way it leaves the flight. -/
theorem runs_share (stays : ∀ {b d}, others b d → d.state = b.state)
    (runs : (Compiler.share codeKey work).run.Runs others b r d) :
    let number := (b.state.flights.join codeKey).1.1
    ∃ u, others (b.withFlights fun f => (f.join codeKey).2) u ∧
      ((∃ record, (b.state.flights.flight number).result = some record ∧ r = .ok record ∧
          d = u.withFlights fun f => f.leave codeKey number) ∨
        ∃ v, work.run.Runs others u r v ∧
          d = v.withFlights fun f =>
            (match r with
              | .ok record => f.land number record
              | .error _ => f.handOver number).leave codeKey number) := by
  unfold Compiler.share at runs
  dsimp only at runs
  replace runs := Compiling.runs_step runs
  obtain ⟨u, changed, runs⟩ := Compiling.runs_await runs
  refine ⟨u, changed, ?_⟩
  replace runs := Compiling.runs_gets runs
  have flown : u.state.flights.flight (b.state.flights.board codeKey).1 =
      (b.state.flights.join codeKey).2.flight (b.state.flights.join codeKey).1.1 := by
    rw [stays changed]
    rfl
  dsimp only at runs
  rw [flown, Flights.result_join] at runs
  cases landed : (b.state.flights.flight (b.state.flights.join codeKey).1.1).result with
  | some record =>
      rw [landed] at runs
      cases Compiling.runs_modify runs
      exact .inl ⟨record, rfl, rfl, rfl⟩
  | none =>
      rw [landed] at runs
      rcases runs.of_bindExcept with ⟨result, v, works, runs⟩ | ⟨e, fails, -⟩
      case inr =>
        obtain ⟨_, failed, -⟩ := Runs.of_lift fails
        exact nomatch failed
      obtain ⟨made, same, works⟩ := Runs.of_lift works
      cases same
      -- The flight lands or is handed over, and is left.
      cases Compiling.runs_modify (Compiling.runs_modify runs)
      refine .inr ⟨v, works, ?_⟩
      cases r with
      | ok record => rfl
      | error e => rfl

/-- A compile that finds no flight to share does its work itself. -/
theorem runs_share_new (stays : ∀ {b d}, others b d → d.state = b.state)
    (free : b.state.flights.current.get? codeKey = none)
    (runs : (Compiler.share codeKey work).run.Runs others b r d) :
    ∃ u v, others (b.withFlights fun f => (f.join codeKey).2) u ∧
      work.run.Runs others u r v ∧ d = v.withFlights fun _ => d.state.flights := by
  obtain ⟨u, changed, ⟨record, landed, -, -⟩ | ⟨v, works, left⟩⟩ := runs_share stays runs
  · rw [Flights.join_new free, Flights.flight_beyond (Nat.le_refl _)] at landed
    exact nomatch landed
  · exact ⟨u, v, changed, works, by rw [left]; rfl⟩

/-- A compile that finds no flight to share has the first turn in a new one. -/
theorem ends_share {ok : Except CompileError CodeRecord → Bench π → Prop}
    (free : b.state.flights.current.get? codeKey = none)
    (h : work.run.Ends (fun r d => ∀ f, ok r (d.withFlights f))
      (b.withFlights fun f => (f.join codeKey).2)) :
    (Compiler.share codeKey work).run.Ends ok b := by
  have flown : (b.state.flights.join codeKey).2.flight (b.state.flights.board codeKey).1 =
      { key := codeKey, holder := some (b.state.flights.join codeKey).1.2 } := by
    rw [← Flights.flight_join_new free, ← Flights.join_new free]
    rfl
  -- Nobody else is in the flight, so the turn is due at once and there is no result yet.
  have due : (b.state.flights.join codeKey).2.isDue (b.state.flights.board codeKey).1
      (b.state.flights.join codeKey).1.2 = true := by
    unfold Flights.isDue
    rw [flown]
    simp
  unfold Compiler.share
  refine Ends.bindExcept ⟨_, _, rfl, ?_⟩
  refine Ends.bindExcept ⟨.ok (), b.withFlights fun f => (f.join codeKey).2, ?_, ?_⟩
  · show (if Wait.isOver _ (b.withFlights fun f => (f.join codeKey).2) then _ else _) = _
    rw [if_pos]
    · rfl
    · exact due
  refine Ends.after (Compiling.finish_gets _) ?_
  have unsettled : ((b.withFlights fun f => (f.join codeKey).2).state.flights.flight
    (b.state.flights.board codeKey).1).result = none := congrArg Flight.result flown
  dsimp only [id]
  rw [unsettled]
  refine Ends.bindExcept (Ends.bind (h.mono fun {r d} fine => ⟨_, _, rfl, ?_⟩))
  cases r with
  | ok record =>
      exact ⟨_, _, rfl, fine fun f => (f.land (b.state.flights.board codeKey).1 record).leave
        codeKey (b.state.flights.board codeKey).1⟩
  | error e =>
      exact ⟨_, _, rfl, fine fun f => (f.handOver (b.state.flights.board codeKey).1).leave
        codeKey (b.state.flights.board codeKey).1⟩

end

/-- Calls that run alone are among those that run to completion. -/
theorem Compiler.does_of_finish {c : Compiler π} {command : Command} {b d : Bench π}
    {answer : Except CompileError Answer}
    (ends : (command.work c).run.finish b = some (answer, d)) : c.Does command b answer d :=
  Job.runs_of_finish .refl (fun _ _ => ⟨rfl, rfl⟩) (fun _ _ => rfl) ends

section

variable {c : Compiler π} {input : CompileInput} {contentKey : String} {b : Bench π}

theorem Compiler.finish_registerGiven
    (keyed : input.address.key c.store.resolver .content = .ok contentKey) :
    (c.registerGiven input).run.finish b =
      some (.ok (b.accept c.store.resolver input.address contentKey input.content).1,
        (b.accept c.store.resolver input.address contentKey input.content).2) := by
  rcases input with ⟨address, content⟩
  unfold Compiler.registerGiven
  cases content with
  | none => rfl
  | some content =>
      simp only [keyed]
      rfl

theorem Compiler.runs_registerGiven {others : Bench π → Bench π → Prop} {d : Bench π}
    {r : Except CompileError (Option ContentRecord)}
    (keyed : input.address.key c.store.resolver .content = .ok contentKey)
    (runs : (c.registerGiven input).run.Runs others b r d) :
    r = .ok (b.accept c.store.resolver input.address contentKey input.content).1 ∧
      d = (b.accept c.store.resolver input.address contentKey input.content).2 := by
  rcases input with ⟨address, content⟩
  unfold Compiler.registerGiven at runs
  cases content with
  | none =>
      cases runs
      exact ⟨rfl, rfl⟩
  | some content =>
      simp only [keyed] at runs
      cases runs with
      | act rest =>
          cases rest
          exact ⟨rfl, rfl⟩

end

/-! ## Parts of a compile -/

namespace Compiler

variable (c : Compiler π) (address : Address) (codeKey contentKey : String)
  (given : Option ContentRecord) (since : Nat) (token : Token)

/-- What a search for content comes to. -/
def deliver : Option ContentRecord → Compiling π ContentRecord
  | some record => return record
  | none => throw (.contentNotFound address.name contentKey c.settings.policy)

/-- Takes the stored renderer that a compile has found, or makes one. -/
def conclude : Option CodeRecord → Compiling π CodeRecord
  | some record => do
    Compiling.modify (·.onState fun s => { s with cache := (s.cache.insert record since).2 })
    return record
  | none => c.compileRecord address codeKey given since token

theorem readContent_eq :
    c.readContent address contentKey token =
      if c.settings.policy.mayRead then
        Compiling.storing (c.store.readContent address token) >>= fun found =>
          match found with
          | .ok found => c.deliver address contentKey found
          | .error e => throw (.storeFor address.name contentKey e)
      else
        Compiling.gets (·.site.overlay) >>= fun o =>
          c.deliver address contentKey (o.content.get? contentKey) := by
  unfold readContent
  dsimp only
  split
  · congr
  · congr

theorem compileAnew_eq :
    c.compileAnew address codeKey given since =
      c.newToken >>= fun token => Compiling.gets (·.state.cache) >>= fun cache =>
        (if c.settings.caching && given.isNone && !cache.isStale codeKey
          then c.findCode address codeKey token else pure none) >>=
        c.conclude address codeKey given since token := by
  unfold compileAnew
  refine congrArg (bind _) (funext fun token => congrArg (bind _) (funext fun cache => ?_))
  dsimp only
  split
  · rfl
  · rfl

end Compiler

/-- A compile returns the cached renderer, or takes part in a flight where there is none. -/
theorem Compiler.runs_compile {c : Compiler π} {input : CompileInput} {codeKey contentKey : String}
    {others : Bench π → Bench π → Prop} {b d : Bench π} {r : Except CompileError CodeRecord}
    (coded : input.address.key c.store.resolver .code = .ok codeKey)
    (keyed : input.address.key c.store.resolver .content = .ok contentKey)
    (runs : (c.compile input).run.Runs others b r d) :
    let accepted := b.accept c.store.resolver input.address contentKey input.content
    (∃ record, c.settings.caching = true ∧ accepted.2.state.cache.get? codeKey = some record ∧
        r = .ok record ∧ d = accepted.2) ∨
      (c.settings.caching = true → accepted.2.state.cache.get? codeKey = none) ∧
        (share codeKey (c.compileAnew input.address codeKey accepted.1
          accepted.2.state.cache.epoch)).run.Runs others accepted.2 r d := by
  unfold Compiler.compile at runs
  dsimp only at runs
  rw [coded] at runs
  rcases runs.of_bindExcept with ⟨_, u, named, runs⟩ | ⟨e, fails, -⟩
  case inr => exact nomatch fails
  cases named
  rcases runs.of_bindExcept with ⟨given, u, registers, runs⟩ | ⟨e, fails, -⟩
  case inr => exact nomatch (Compiler.runs_registerGiven keyed fails).1
  obtain ⟨same, rfl⟩ := Compiler.runs_registerGiven keyed registers
  cases same
  replace runs := Compiling.runs_gets (Compiling.runs_gets runs)
  split at runs
  · rename_i record cached
    cases runs
    split at cached
    · exact .inl ⟨record, ‹_›, cached, rfl, rfl⟩
    · exact nomatch cached
  · rename_i missed
    refine .inr ⟨fun caching => ?_, runs⟩
    rw [if_pos caching] at missed
    exact missed

/-- A compile that finds a cached renderer returns it. -/
theorem Compiler.does_cached {c : Compiler π} {address : Address} {codeKey : String}
    {b : Bench π} {record : CodeRecord} (caching : c.settings.caching = true)
    (coded : address.key c.store.resolver .code = .ok codeKey)
    (cached : b.state.cache.get? codeKey = some record) :
    c.Does (.compile ⟨address, none⟩) b (.ok (.code record)) b := by
  refine Compiler.does_of_finish (Job.finish_map_ok ?_)
  have nothing : (c.registerGiven ⟨address, none⟩).run.finish b = some (.ok none, b) := rfl
  unfold Compiler.compile
  refine (Job.finish_bind_ok (Compiling.finish_naming coded)).trans ?_
  refine (Job.finish_bind_ok nothing).trans ?_
  refine (Job.finish_bind_ok (Compiling.finish_gets _)).trans ?_
  refine (Job.finish_bind_ok (Compiling.finish_gets _)).trans ?_
  rw [if_pos caching, cached]
  rfl

/-- A call that runs alone and returns a renderer. -/
theorem Compiler.exists_does {c : Compiler π} {command : Command} {b : Bench π}
    (returns : ((command.work c).run.finish b).any (fun (answer, _) =>
      match answer with
      | .ok (.code _) => true
      | _ => false) = true) :
    ∃ record d, c.Does command b (.ok (.code record)) d := by
  cases ends : (command.work c).run.finish b with
  | none =>
      rw [ends] at returns
      exact nomatch returns
  | some result =>
      rw [ends] at returns
      rcases result with ⟨(e | _ | _ | _ | _ | _), d⟩
      case ok.code record => exact ⟨record, d, does_of_finish ends⟩
      all_goals exact nomatch returns

/-! ## Other calls -/

namespace Compiler.Does

open Bench

variable {c : Compiler π} {command : Command} {b d : Bench π}
  {answer : Except CompileError Answer}

theorem sheds (does : c.Does command b answer d) (lawful : c.store.Lawful)
    (errand : ∀ input, command ≠ .compile input) : b.Sheds d :=
  ((errand_keeps lawful errand b).runs (b.Sheds ·) does (fun step h => h.trans step)
    (fun changed h => h.trans changed.sheds) (.refl b)).1

theorem chore (does : c.Does command b answer d) (lawful : c.store.Lawful)
    (errand : ∀ input, command ≠ .compile input) (stays : ∀ all, command ≠ .clear all) :
    Chore c.store.resolver b d :=
  ((errand_chores lawful errand stays b).runs (Chore c.store.resolver b ·) does
    (fun step h => h.trans step) (fun changed h => h.trans changed.chore) (.refl b)).1

/-- Clearing leaves no record. -/
theorem registry_cleared {all : Bool} (does : c.Does (.clear all) b answer d) :
    d.state.registry = ∅ :=
  (clear_begins c all).runs (fun d => d.state.registry = ∅) does
    (fun same h => by rw [same]; exact h) (fun changed h => by rw [changed.state]; exact h) rfl

/-- After every call that runs to completion, no key leads to a flight. -/
theorem resting (does : c.Does command b answer d) (lawful : c.store.Lawful)
    (resting : b.Resting) : d.Resting := by
  by_cases compiles : ∃ input, command = .compile input
  · obtain ⟨input, rfl⟩ := compiles
    cases named : input.address.key c.store.resolver .code with
    | error e =>
        obtain ⟨rfl, -⟩ := does.unnamed named
        exact resting
    | ok codeKey =>
        obtain ⟨result, -, -, rested⟩ := does.compiled lawful named resting (fun _ _ => True)
          (fun _ _ _ => trivial) (fun _ _ => trivial) trivial
        exact rested
  · exact (does.sheds lawful fun input same => compiles ⟨input, same⟩).resting resting

end Compiler.Does

theorem Compiler.Serial.resting {c : Compiler π} {fits : Command → Bench π → Bench π → Prop}
    {b d : Bench π} (serial : c.Serial fits b d) (lawful : c.store.Lawful)
    (resting : b.Resting) : d.Resting := by
  induction serial with
  | refl => exact resting
  | call before does fitting ih => exact does.resting lawful ih
  | elsewhere before changed ih => exact changed.sheds.resting ih

end TemplateCache
