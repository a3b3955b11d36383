import Mathlib.Logic.Function.Basic
import TemplateCache.Proofs.Compiler.Course
import TemplateCache.Proofs.Compiler.Frame
import TemplateCache.Store.Memory

/-!
# Traces of sessions

Every event of a session is a path of moves of one compile, or sheds. A trace says how far each
call has come, so what holds of sessions is proved by looking at moves.
-/

namespace TemplateCache

variable {π : Type}

/-- How far a call has come. -/
inductive Progress (π : Type) where
  | compiling (c : Compiler π) (input : CompileInput) (codeKey : String) (stage : Stage)
  /-- It is no compile, or one of a name that has no code key. -/
  | other

/-- A call does what its progress says. Only the generators of its compiler may differ. -/
def Progress.Fits (c : Compiler π) (call : Call π) : Progress π → Prop
  | compiling d input codeKey stage =>
    d.settings = c.settings ∧ call.command = .compile input ∧
      input.address.key c.store.resolver .code = .ok codeKey ∧
      call.job.Rests (compilePlan d input codeKey)
        (fun r a => ∃ result, a = .finished result ∧ r = result.map .code) stage
  | other => call.job.Keeps Bench.Sheds ∧
      ∀ input codeKey, call.command = .compile input →
        input.address.key c.store.resolver .code ≠ .ok codeKey

/-- What a call may have become later. A compile keeps its seat until it leaves. -/
def Progress.Onward : Progress π → Progress π → Prop
  | compiling d input codeKey stage, p => ∃ stage', p = .compiling d input codeKey stage' ∧
      ∀ t, stage'.ticket? = some t → stage.ticket? = some t
  | other, p => p = .other

theorem Progress.Onward.refl (p : Progress π) : p.Onward p := by
  cases p with
  | compiling d input codeKey stage => exact ⟨stage, rfl, fun _ => id⟩
  | other => rfl

theorem Progress.Onward.trans {p q r : Progress π} (h : p.Onward q) (h' : q.Onward r) :
    p.Onward r := by
  cases p with
  | compiling d input codeKey stage =>
      obtain ⟨stage', rfl, seat⟩ := h
      obtain ⟨stage'', rfl, seat'⟩ := h'
      exact ⟨stage'', rfl, fun t sits => seat t (seat' t sits)⟩
  | other =>
      obtain rfl : q = .other := h
      exact h'

/-- Where a stretch of a compile may end. -/
def Stage.Stops (a : Stage) (b : Bench π) : Prop := (∃ result, a = .finished result) ∨ a.rests b

theorem Stage.Stops.boarded {a : Stage} {b : Bench π} (stops : a.Stops b) : a.Boarded := by
  rcases stops with finished | rests
  · exact .inr finished
  · cases a with
    | waiting t => exact .inl ⟨t, rfl⟩
    | fetching t => exact .inl ⟨t, rfl⟩
    | reading t => exact .inl ⟨t, rfl⟩
    | writing t renderer => exact .inl ⟨t, rfl⟩
    | _ => exact rests.elim

/-- Renderers stand under their keys. -/
def Site.Keyed (site : Site π) : Prop :=
  ∀ key record, site.overlay.code.get? key = some record → record.key = key

namespace Session

/-- The compile that goes on in an event, and its number among the calls. -/
def compiles (s : Session π) : Event π → Option (Nat × CompileInput)
  | .ask (.compile input) => some (s.calls.length, input)
  | .turn number =>
    match s.calls[number]? with
    | some ⟨.compile input, _⟩ => some (number, input)
    | _ => none
  | _ => none

/-- What a call has been answered. -/
def answer? (s : Session π) (number : Nat) : Option (Except CompileError Answer) :=
  s.calls[number]?.bind Call.answer?

/-- The renderer that a call has returned. -/
def renderer? (s : Session π) (number : Nat) : Option CodeRecord :=
  match s.answer? number with
  | some (.ok (.code record)) => some record
  | _ => none

structure Traced (c : Compiler π) (s : Session π) (ps : Nat → Progress π) : Prop where
  fits : ∀ {j call}, s.calls[j]? = some call → (ps j).Fits c call
  bench : s.bench.Sound
  stages : ∀ {j d input codeKey stage}, j < s.calls.length →
    ps j = .compiling d input codeKey stage → stage.Sound codeKey s.bench ∧ stage.Boarded

/-- What an event does to the progress of the calls and to the bench. -/
inductive Change (c : Compiler π) (s : Session π) (ps : Nat → Progress π) :
    Event π → (Nat → Progress π) → Bench π → Prop where
  | begin {input : CompileInput} {codeKey : String} {stage : Stage} {b : Bench π}
      (named : input.address.key c.store.resolver .code = .ok codeKey)
      (path : (compilePlan c input codeKey).Path .asked s.bench stage b) (stops : stage.Stops b) :
      Change c s ps (.ask (.compile input))
        (Function.update ps s.calls.length (.compiling c input codeKey stage)) b
  | proceed {j : Nat} {d : Compiler π} {input : CompileInput} {codeKey : String}
      {stage stage' : Stage} {b : Bench π} (there : j < s.calls.length)
      (now : ps j = .compiling d input codeKey stage)
      (path : (compilePlan d input codeKey).Path stage s.bench stage' b)
      (stops : stage'.Stops b) :
      Change c s ps (.turn j) (Function.update ps j (.compiling d input codeKey stage')) b
  | other {e : Event π} {ps' : Nat → Progress π} {b : Bench π}
      (kept : ∀ j < s.calls.length, ps' j = ps j)
      (new : ∀ j, s.calls.length ≤ j → j < (step c s e).calls.length → ps' j = .other)
      (sheds : s.bench.Sheds b)
      (free : ∀ j input codeKey, s.compiles e = some (j, input) →
        input.address.key c.store.resolver .code ≠ .ok codeKey) :
      Change c s ps e ps' b

end Session

namespace Compiling

open Job

variable {φ α β : Type} {p : Plan (Bench π) φ} {a : φ} {b : Bench π}

theorem follows_map {x : Compiling π α} {f : α → β}
    {ok : Except CompileError β → φ → Bench π → Prop}
    (h : x.run.Follows p (fun r a b => ok (r.map f) a b) a b) : (f <$> x).run.Follows p ok a b := by
  refine Follows.bind (h.mono ?_)
  intro r a b ends
  cases r with
  | ok v => exact ⟨a, .refl, ends⟩
  | error e => exact ⟨a, .refl, ends⟩

end Compiling

namespace Session

open Job

variable {c : Compiler π} {s : Session π} {ps : Nat → Progress π}

theorem job_of_renderer {j : Nat} {record : CodeRecord} (returned : s.renderer? j = some record) :
    ∃ call, s.calls[j]? = some call ∧ call.job = .done (.ok (.code record)) := by
  unfold renderer? answer? at returned
  cases there : s.calls[j]? with
  | none =>
      rw [there] at returned
      exact nomatch returned
  | some call =>
      rw [there] at returned
      refine ⟨call, rfl, ?_⟩
      rcases call with ⟨command, job⟩
      cases job with
      | done answer =>
          cases answer with
          | ok value =>
              cases value with
              | code found =>
                  cases returned
                  rfl
              | _ => exact nomatch returned
          | error e => exact nomatch returned
      | _ => exact nomatch returned

theorem calls_turn (number : Nat) : (step c s (.turn number)).calls.length = s.calls.length := by
  cases there : s.calls[number]? with
  | none => simp [step, there]
  | some call => simp [step, there]

theorem calls_step (e : Event π) : s.calls.length ≤ (step c s e).calls.length := by
  cases e with
  | ask command => simp [step]
  | turn number => exact Nat.le_of_eq (calls_turn number).symm
  | elsewhere content own environment => exact Nat.le_refl _

theorem stops_of_rests {input : CompileInput} {codeKey : String} {stage : Stage} {b : Bench π}
    {job : Job (Bench π) (Except CompileError Answer)}
    (rests : job.Rests (compilePlan c input codeKey)
      (fun r a => ∃ result, a = .finished result ∧ r = result.map .code) stage)
    (stops : (∃ x, job = .done x) ∨ stage.rests b) : stage.Stops b := by
  rcases stops with ⟨x, rfl⟩ | stops
  · obtain ⟨result, finished, -⟩ := rests
    exact .inl ⟨result, finished⟩
  · exact .inr stops

theorem mem_asked {l : List (Call π)} {new call : Call π} {j : Nat}
    (there : (l ++ [new])[j]? = some call) :
    (j < l.length ∧ l[j]? = some call) ∨ (j = l.length ∧ call = new) := by
  rcases Nat.lt_trichotomy j l.length with before | here | beyond
  · rw [List.getElem?_append_left before] at there
    exact .inl ⟨before, there⟩
  · subst here
    rw [List.getElem?_concat_length] at there
    cases there
    exact .inr ⟨rfl, rfl⟩
  · rw [List.getElem?_eq_none (by simp; omega)] at there
    cases there

theorem mem_turned {l : List (Call π)} {new call : Call π} {i j : Nat}
    (there : (l.set i new)[j]? = some call) :
    (j ≠ i ∧ l[j]? = some call) ∨ (j = i ∧ call = new) := by
  rw [List.getElem?_set] at there
  split at there
  · rename_i own
    split at there
    · cases there
      exact .inr ⟨own.symm, rfl⟩
    · exact nomatch there
  · rename_i other
    exact .inl ⟨Ne.symm other, there⟩

theorem compiles_turn {number j : Nat} {call : Call π} {input : CompileInput}
    (there : s.calls[number]? = some call) (goes : s.compiles (.turn number) = some (j, input)) :
    j = number ∧ call.command = .compile input := by
  simp only [compiles, there] at goes
  rcases call with ⟨command, job⟩
  cases command with
  | compile asked =>
      cases goes
      exact ⟨rfl, rfl⟩
  | _ => exact nomatch goes

/-- A path of one compile keeps the stages of all compiles sound. -/
theorem Traced.stages_update (traced : s.Traced c ps) {b : Bench π}
    {j : Nat} {d : Compiler π} {input : CompileInput} {codeKey : String} {stage : Stage}
    (later : s.bench.Later b) (sound : stage.Sound codeKey b ∧ stage.Boarded) {i : Nat}
    {d' : Compiler π} {input' : CompileInput} {codeKey' : String} {stage' : Stage}
    (there : i ≠ j → i < s.calls.length)
    (now : Function.update ps j (.compiling d input codeKey stage) i =
      .compiling d' input' codeKey' stage') : stage'.Sound codeKey' b ∧ stage'.Boarded := by
  by_cases own : i = j
  · subst own
    rw [Function.update_self] at now
    cases now
    exact sound
  · rw [Function.update_of_ne own] at now
    obtain ⟨before, boarded⟩ := traced.stages (there own) now
    exact ⟨before.later later, boarded⟩

/-- A name without a code key is not compiled. -/
theorem compile_unnamed {input : CompileInput} {e : NameError}
    (unnamed : input.address.key c.store.resolver .code = .error e) :
    (c.compile input).run = .done (.error (.naming e)) := by
  unfold Compiler.compile
  dsimp only
  rw [unnamed]
  rfl

theorem work_follows (lawful : c.store.Lawful) {input : CompileInput} {codeKey : String}
    {b : Bench π} (named : input.address.key c.store.resolver .code = .ok codeKey) :
    (Command.work c (.compile input)).run.Follows (compilePlan c input codeKey)
      (fun r a _ => ∃ result, a = .finished result ∧ r = result.map .code) .asked b := by
  refine Compiling.follows_map ((Compiler.compile_follows lawful named).mono ?_)
  intro r a b ends
  exact ⟨r, ends, rfl⟩

theorem traced_begin (lawful : c.store.Lawful) (traced : s.Traced c ps)
    {input : CompileInput} {codeKey : String}
    (named : input.address.key c.store.resolver .code = .ok codeKey) :
    ∃ ps', Change c s ps (.ask (.compile input)) ps' (step c s (.ask (.compile input))).bench ∧
      (step c s (.ask (.compile input))).Traced c ps' := by
  obtain ⟨stage, path, rests, stops⟩ := (work_follows (b := s.bench) lawful named).advance
  obtain ⟨later, bench, sound⟩ := path_sound path traced.bench stage_sound_asked
  have stops := stops_of_rests rests stops
  refine ⟨_, .begin named path stops, ?_, bench, ?_⟩
  · intro j call there
    rcases mem_asked there with ⟨before, there⟩ | ⟨rfl, rfl⟩
    · rw [Function.update_of_ne (Nat.ne_of_lt before)]
      exact traced.fits there
    · rw [Function.update_self]
      exact ⟨rfl, rfl, named, rests⟩
  · intro j d input' codeKey' stage' there now
    refine traced.stages_update later ⟨sound, stops.boarded⟩ ?_ now
    intro other
    replace there : j < (s.calls ++ [_]).length := there
    rw [List.length_append, List.length_singleton] at there
    omega

/-- A call that is no compile of a code key sheds. -/
theorem traced_errand (traced : s.Traced c ps) {command : Command}
    (keeps : (command.work c).run.Keeps Bench.Sheds)
    (free : ∀ input codeKey, command = .compile input →
      input.address.key c.store.resolver .code ≠ .ok codeKey) :
    ∃ ps', Change c s ps (.ask command) ps' (step c s (.ask command)).bench ∧
      (step c s (.ask command)).Traced c ps' := by
  obtain ⟨path, rest⟩ := (keeps s.bench).advance
  have sheds := Bench.Sheds.of_path path
  refine ⟨Function.update ps s.calls.length .other, .other ?_ ?_ sheds ?_, ?_,
    sheds.keeps_sound traced.bench, ?_⟩
  · intro j before
    rw [Function.update_of_ne (Nat.ne_of_lt before)]
  · intro j beyond asked
    replace asked : j < (s.calls ++ [_]).length := asked
    rw [List.length_append, List.length_singleton] at asked
    rw [show j = s.calls.length by omega, Function.update_self]
  · intro j input codeKey goes
    cases command with
    | compile asked =>
        cases goes
        exact free input codeKey rfl
    | _ => exact nomatch goes
  · intro j call there
    rcases mem_asked there with ⟨before, there⟩ | ⟨rfl, rfl⟩
    · rw [Function.update_of_ne (Nat.ne_of_lt before)]
      exact traced.fits there
    · rw [Function.update_self]
      exact ⟨rest, free⟩
  · intro j d input codeKey stage there now
    by_cases own : j = s.calls.length
    · subst own
      rw [Function.update_self] at now
      exact nomatch now
    · rw [Function.update_of_ne own] at now
      replace there : j < (s.calls ++ [_]).length := there
      rw [List.length_append, List.length_singleton] at there
      obtain ⟨before, boarded⟩ := traced.stages (by omega) now
      exact ⟨before.later sheds.later, boarded⟩

theorem traced_ask (lawful : c.store.Lawful) (traced : s.Traced c ps)
    (command : Command) :
    ∃ ps', Change c s ps (.ask command) ps' (step c s (.ask command)).bench ∧
      (step c s (.ask command)).Traced c ps' := by
  by_cases compile : ∃ input, command = .compile input
  · obtain ⟨input, rfl⟩ := compile
    cases named : input.address.key c.store.resolver .code with
    | ok codeKey => exact traced_begin lawful traced named
    | error e =>
        refine traced_errand traced ?_ ?_
        · refine Keeps.mapExcept ?_
          rw [compile_unnamed named]
          exact fun _ => trivial
        · intro asked codeKey same
          cases same
          rw [named]
          exact nofun
  · refine traced_errand traced (errand_keeps lawful fun input same => compile ⟨input, same⟩) ?_
    intro input codeKey same
    exact absurd ⟨input, same⟩ compile

theorem traced_turn (traced : s.Traced c ps) (number : Nat) :
    ∃ ps', Change c s ps (.turn number) ps' (step c s (.turn number)).bench ∧
      (step c s (.turn number)).Traced c ps' := by
  cases there : s.calls[number]? with
  | none =>
      have idle : step c s (.turn number) = s := by
        simp only [step, there]
      refine ⟨ps, .other (fun _ _ => rfl) ?_ ?_ ?_, ?_⟩
      · intro j beyond asked
        rw [idle] at asked
        omega
      · rw [idle]
        exact .refl _
      · intro j input codeKey goes
        simp [compiles, there] at goes
      · rwa [idle]
  | some call =>
      obtain ⟨before, -⟩ := List.getElem?_eq_some_iff.1 there
      have fits := traced.fits there
      have after : step c s (.turn number) =
          ⟨((Task.unpaused call.job).advance s.bench).2,
            s.calls.set number
              { call with job := ((Task.unpaused call.job).advance s.bench).1 }⟩ := by
        simp only [step, there]
      rw [after]
      cases now : ps number with
      | compiling d input codeKey stage =>
          rw [now] at fits
          obtain ⟨same, asked, named, rests⟩ := fits
          obtain ⟨stage', path, rests', stops⟩ := rests.turn s.bench
          obtain ⟨later, bench, sound'⟩ := path_sound path traced.bench (traced.stages before now).1
          have stops := stops_of_rests rests' stops
          refine ⟨_, .proceed before now path stops, ?_, bench, ?_⟩
          · intro j call' there'
            rcases mem_turned there' with ⟨other, there'⟩ | ⟨rfl, rfl⟩
            · rw [Function.update_of_ne other]
              exact traced.fits there'
            · rw [Function.update_self]
              exact ⟨same, asked, named, rests'⟩
          · intro j d' input' codeKey' stage'' there' now'
            refine traced.stages_update later ⟨sound', stops.boarded⟩ ?_ now'
            intro _
            rwa [List.length_set] at there'
      | other =>
          rw [now] at fits
          obtain ⟨keeps, free⟩ := fits
          obtain ⟨path, rest⟩ := (keeps.unpaused s.bench).advance
          have sheds := Bench.Sheds.of_path path
          refine ⟨ps, .other (fun _ _ => rfl) ?_ sheds ?_, ?_, sheds.keeps_sound traced.bench, ?_⟩
          · intro j beyond asked
            rw [calls_turn] at asked
            omega
          · intro j input codeKey goes
            exact free input codeKey (compiles_turn there goes).2
          · intro j call' there'
            rcases mem_turned there' with ⟨-, there'⟩ | ⟨rfl, rfl⟩
            · exact traced.fits there'
            · rw [now]
              exact ⟨rest, free⟩
          · intro j d input codeKey stage there' now'
            rw [List.length_set] at there'
            obtain ⟨sound, boarded⟩ := traced.stages there' now'
            exact ⟨sound.later sheds.later, boarded⟩

/-- Every event changes the progress of the calls as its kind allows. -/
theorem Traced.step (lawful : c.store.Lawful) (traced : s.Traced c ps)
    (e : Event π) :
    ∃ ps', Change c s ps e ps' (Session.step c s e).bench ∧
      (Session.step c s e).Traced c ps' := by
  cases e with
  | ask command => exact traced_ask lawful traced command
  | turn number => exact traced_turn traced number
  | elsewhere content own environment =>
      have sheds : s.bench.Sheds (Session.step c s (.elsewhere content own environment)).bench :=
        .ofSite rfl rfl fun _ _ => id
      refine ⟨ps, .other (fun _ _ => rfl) ?_ sheds nofun, traced.fits,
        sheds.keeps_sound traced.bench, ?_⟩
      · exact fun j beyond asked => absurd asked (Nat.not_lt.2 beyond)
      intro j d input codeKey stage there now
      obtain ⟨sound, boarded⟩ := traced.stages there now
      exact ⟨sound.later sheds.later, boarded⟩

theorem Traced.compiles (traced : s.Traced c ps) {j : Nat}
    {d : Compiler π} {input : CompileInput} {codeKey : String} {stage : Stage}
    (there : j < s.calls.length) (now : ps j = .compiling d input codeKey stage) :
    s.compiles (.turn j) = some (j, input) ∧
      input.address.key c.store.resolver .code = .ok codeKey := by
  have found : s.calls[j]? = some s.calls[j] := List.getElem?_eq_getElem there
  have fits := traced.fits found
  rw [now] at fits
  obtain ⟨-, asked, named, -⟩ := fits
  refine ⟨?_, named⟩
  simp only [Session.compiles, found]
  cases call : s.calls[j] with
  | mk command job =>
      rw [call] at asked
      cases asked
      rfl

/-- The renderer that a compile has returned is the result of its last stage. -/
theorem Traced.renderer (traced : s.Traced c ps) {j : Nat} {d : Compiler π}
    {input : CompileInput} {codeKey : String} {stage : Stage} {record : CodeRecord}
    (now : ps j = .compiling d input codeKey stage) (returned : s.renderer? j = some record) :
    stage = .finished (.ok record) := by
  obtain ⟨call, there, ended⟩ := job_of_renderer returned
  have fits := traced.fits there
  rw [now] at fits
  obtain ⟨-, -, -, rests⟩ := fits
  rw [ended] at rests
  obtain ⟨result, rfl, same⟩ := rests
  cases result with
  | ok found =>
      cases same
      rfl
  | error e => exact nomatch same

/-- A compile that has not ended rests where its stage allows it. -/
theorem Traced.rests (traced : s.Traced c ps) {j : Nat} {d : Compiler π} {input : CompileInput}
    {codeKey : String} {stage : Stage} (asked : j < s.calls.length)
    (now : ps j = .compiling d input codeKey stage) (unanswered : s.answer? j = none) :
    ∃ b : Bench π, stage.rests b := by
  have there : s.calls[j]? = some s.calls[j] := List.getElem?_eq_getElem asked
  have fits := traced.fits there
  rw [now] at fits
  obtain ⟨-, -, -, rests⟩ := fits
  unfold answer? at unanswered
  rw [there] at unanswered
  generalize s.calls[j] = call at rests unanswered
  rcases call with ⟨command, job⟩
  cases job with
  | done x => exact nomatch unanswered
  | _ => exact rests.1

/-- A compile answers in its first stretch if that takes it to a renderer. -/
theorem answered_at_once (lawful : c.store.Lawful) {input : CompileInput} {codeKey : String}
    {record : CodeRecord} (coded : input.address.key c.store.resolver .code = .ok codeKey)
    (ends : ∀ {stage b}, (compilePlan c input codeKey).Path .asked s.bench stage b →
      stage.Stops b → stage = .finished (.ok record)) :
    (Session.step c s (.ask (.compile input))).renderer? s.calls.length = some record := by
  obtain ⟨stage, path, rests, stops⟩ := (work_follows (b := s.bench) lawful coded).advance
  obtain rfl := ends path (stops_of_rests rests stops)
  rcases stops with ⟨answer, ended⟩ | stops
  · rw [ended] at rests
    obtain ⟨result, same, rfl⟩ := rests
    cases same
    unfold renderer? answer? Session.step
    dsimp only
    rw [List.getElem?_concat_length, ended]
    rfl
  · exact stops.elim

/-! ## Runs -/

/-- What every event keeps, a run keeps. -/
theorem Traced.keeps (lawful : c.store.Lawful) (traced : s.Traced c ps)
    (inv : Session π → (Nat → Progress π) → Prop) (start : inv s ps)
    (event : ∀ {s ps e ps'}, s.Traced c ps → Change c s ps e ps' (Session.step c s e).bench →
      inv s ps → inv (Session.step c s e) ps')
    (events : List (Event π)) :
    ∃ ps', (Session.run c s events).Traced c ps' ∧ inv (Session.run c s events) ps' := by
  induction events generalizing s ps with
  | nil => exact ⟨ps, traced, start⟩
  | cons e rest ih =>
      obtain ⟨ps', change, traced'⟩ := traced.step lawful e
      exact ih traced' (event traced change start)

theorem Traced.run (lawful : c.store.Lawful) (traced : s.Traced c ps)
    (events : List (Event π)) :
    ∃ ps', (Session.run c s events).Traced c ps' := by
  obtain ⟨ps', traced', -⟩ := traced.keeps lawful (fun _ _ => True) trivial
    (fun _ _ _ => trivial) events
  exact ⟨ps', traced'⟩

theorem Change.later {e : Event π} {ps' : Nat → Progress π} {b : Bench π}
    (change : Change c s ps e ps' b) (traced : s.Traced c ps) : s.bench.Later b := by
  cases change with
  | begin named path stops => exact (path_sound path traced.bench stage_sound_asked).1
  | proceed there now path stops =>
      exact (path_sound path traced.bench (traced.stages there now).1).1
  | other kept new sheds free => exact sheds.later

/-- A call that was made goes on as what it is, and keeps its seat. -/
theorem Change.onward {e : Event π} {ps' : Nat → Progress π} {b : Bench π}
    (change : Change c s ps e ps' b) (traced : s.Traced c ps) {j : Nat}
    (asked : j < s.calls.length) : (ps j).Onward (ps' j) := by
  cases change with
  | begin named path stops =>
      rw [Function.update_of_ne (Nat.ne_of_lt asked)]
      exact .refl _
  | @proceed i d input codeKey stage stage' b there now path stops =>
      by_cases own : j = i
      · subst own
        rw [Function.update_self, now]
        exact ⟨stage', rfl, (path_boarded path (traced.stages there now).2).2⟩
      · rw [Function.update_of_ne own]
        exact .refl _
  | other kept new sheds free =>
      rw [kept j asked]
      exact .refl _

/-- Only a compile that is cached opens the cache for earlier ones. -/
theorem Change.shut {e : Event π} {ps' : Nat → Progress π} {b : Bench π}
    (change : Change c s ps e ps' b) (traced : s.Traced c ps) (caching : c.settings.caching = true)
    {k : String} {epoch : Nat} (begun : epoch ≤ s.bench.state.cache.epoch)
    (shut : s.bench.state.cache.Shut k epoch) : b.state.cache.Shut k epoch := by
  cases change with
  | begin named path stops => exact path_shut path caching begun shut
  | proceed there now path stops =>
      have fits := traced.fits (List.getElem?_eq_getElem there)
      rw [now] at fits
      exact path_shut path (fits.1 ▸ caching) begun shut
  | other kept new sheds free => exact sheds.shut begun shut

/-- Calls that were made go on, and the bench grows older. -/
theorem Traced.run_onward (lawful : c.store.Lawful) (traced : s.Traced c ps)
    (events : List (Event π)) :
    ∃ ps', (Session.run c s events).Traced c ps' ∧
      s.bench.Later (Session.run c s events).bench ∧
      ∀ j < s.calls.length, (ps j).Onward (ps' j) := by
  suffices grown : ∃ ps', (Session.run c s events).Traced c ps' ∧
      s.calls.length ≤ (Session.run c s events).calls.length ∧
      s.bench.Later (Session.run c s events).bench ∧
      ∀ j < s.calls.length, (ps j).Onward (ps' j) by
    obtain ⟨ps', traced', -, later, onward⟩ := grown
    exact ⟨ps', traced', later, onward⟩
  refine traced.keeps lawful (fun u qs => s.calls.length ≤ u.calls.length ∧
    s.bench.Later u.bench ∧ ∀ j < s.calls.length, (ps j).Onward (qs j)) ?_ ?_ events
  · exact ⟨Nat.le_refl _, .refl _, fun j _ => .refl _⟩
  · rintro u qs e qs' traced change ⟨asked, later, onward⟩
    refine ⟨Nat.le_trans asked (calls_step e), later.trans (change.later traced), ?_⟩
    intro j before
    exact (onward j before).trans (change.onward traced (Nat.lt_of_lt_of_le before asked))

theorem Traced.run_shut (lawful : c.store.Lawful) (traced : s.Traced c ps)
    (caching : c.settings.caching = true) {k : String} {epoch : Nat}
    (begun : epoch ≤ s.bench.state.cache.epoch) (shut : s.bench.state.cache.Shut k epoch)
    (events : List (Event π)) : (Session.run c s events).bench.state.cache.Shut k epoch := by
  suffices kept : ∃ ps', (Session.run c s events).Traced c ps' ∧
      epoch ≤ (Session.run c s events).bench.state.cache.epoch ∧
      (Session.run c s events).bench.state.cache.Shut k epoch by
    obtain ⟨-, -, -, shut⟩ := kept
    exact shut
  refine traced.keeps lawful (fun u _ => epoch ≤ u.bench.state.cache.epoch ∧
    u.bench.state.cache.Shut k epoch) ⟨begun, shut⟩ ?_ events
  · rintro u qs e qs' traced change ⟨begun, shut⟩
    exact ⟨Nat.le_trans begun (change.later traced).ages.epoch,
      change.shut traced caching begun shut⟩

/-- In its next turn, a call leaves the registry and the cached renderers as they are. -/
def Withholds (c : Compiler π) (j : Nat) (s : Session π) : Prop :=
  (Session.step c s (.turn j)).bench.state.cache = s.bench.state.cache ∧
    (Session.step c s (.turn j)).bench.state.registry = s.bench.state.registry

/-- The seat of a compile that goes on was there before, and so was its epoch. -/
theorem Traced.seat (traced : s.Traced c ps) {j : Nat} (asked : j < s.calls.length)
    {d : Compiler π} {input : CompileInput} {codeKey : String} {stage : Stage} {t : Ticket}
    (onward : (ps j).Onward (.compiling d input codeKey stage)) (sits : stage.ticket? = some t) :
    t.number < s.bench.state.flights.all.length ∧ t.since ≤ s.bench.state.cache.epoch := by
  cases before : ps j with
  | compiling d' input' codeKey' stage' =>
      rw [before] at onward
      obtain ⟨_, same, seat⟩ := onward
      cases same
      obtain ⟨there, -, begun⟩ := (traced.stages asked before).1.seat (seat t sits)
      exact ⟨there, begun⟩
  | other =>
      rw [before] at onward
      exact nomatch onward

/-- A compile withholds what it makes if its key is outdated for it. -/
theorem Traced.withholds (lawful : c.store.Lawful) (traced : s.Traced c ps) {j epoch : Nat}
    {call : Call π} {input : CompileInput} {codeKey : String} (there : s.calls[j]? = some call)
    (command : call.command = .compile input)
    (coded : input.address.key c.store.resolver .code = .ok codeKey)
    (begun : ∀ {d input codeKey stage t}, ps j = .compiling d input codeKey stage →
      stage.ticket? = some t → t.since ≤ epoch)
    (outdated : s.bench.state.cache.isOutdated codeKey epoch = true) : s.Withholds c j := by
  obtain ⟨ps', change, -⟩ := traced.step lawful (.turn j)
  unfold Withholds
  generalize (Session.step c s (.turn j)).bench = b at change
  cases change with
  | proceed before now path stops =>
      have fits := traced.fits there
      rw [now] at fits
      obtain ⟨-, same, coded', -⟩ := fits
      cases command.symm.trans same
      cases coded.symm.trans coded'
      obtain ⟨sound, boarded⟩ := traced.stages before now
      exact path_barred path traced.bench sound boarded fun t sits =>
        CodeCache.isOutdated_of_le (begun now sits) outdated
  | other kept new sheds free =>
      refine absurd coded (free j input codeKey ?_)
      simp only [Session.compiles, there]
      rcases call with ⟨command', job⟩
      cases command
      rfl

/-- The events of a run have a property, each in the session in which it happens. -/
def Along (c : Compiler π) (p : Session π → Event π → Prop) : Session π → List (Event π) → Prop
  | _, [] => True
  | s, e :: rest => p s e ∧ Along c p (step c s e) rest

theorem traced_start {site : Site π} (keyed : site.Keyed) :
    (start site).Traced c fun _ => .other where
  fits there := by
    simp [start] at there
  bench := ⟨Flights.keyed_empty, keyed _ _, CodeCache.sound_empty⟩
  stages _ now := nomatch now

end Session

/-- The sessions of a compiler that begins with nothing remembered. -/
def Compiler.Reaches (c : Compiler π) (s : Session π) : Prop :=
  ∃ site events, site.Keyed ∧ s = Session.run c (Session.start site) events

theorem Compiler.Reaches.traced {c : Compiler π} {s : Session π} (reached : c.Reaches s)
    (lawful : c.store.Lawful) : ∃ ps, s.Traced c ps := by
  obtain ⟨site, events, keyed, rfl⟩ := reached
  exact (Session.traced_start keyed).run lawful events

/-! ## A sample -/

namespace Sample

open Session

/-- The standard names, without verbatim ones. -/
def resolver : Resolver := ⟨{ NamingRules.standard with verbatimPattern := none }, none⟩

/-- The renderer of a text is the text. -/
def generator : Generator where
  generate content _ := .ok ⟨some content.asText, fun _ _ => .ok content.asText⟩
  load source _ := .ok ⟨some source, fun _ _ => .ok source⟩

def compiler (store : Store π) (policy : AccessPolicy) : Compiler π :=
  ⟨{ naming := resolver.rules, policy := policy }, store, generator⟩

/-- One whose store takes a while to read content. -/
def slow : Compiler Unit := compiler (Store.delayed resolver 100) .read

/-- Its store, with a text under the name `a`, also as a variant with another extension. -/
def shelf : Site Unit where
  overlay := ((∅ : Overlay).putContent
    (Store.writtenRecord ⟨"a", none, none⟩ "partials/a.html" (.text "old"))).putContent
    (Store.writtenRecord ⟨"a", some "txt", none⟩ "partials/a.txt" (.text "old"))
  own := ()

theorem shelf_keyed : shelf.Keyed := fun _ _ => nofun

def ask : Event Unit := .ask (.compile ⟨⟨"a", none, none⟩, none⟩)

/-- The time has come at which reads that began at the start are through. -/
def pass : Event Unit := .elsewhere shelf.overlay.content () { clock := { now := 100, fresh := 9 } }

end Sample

end TemplateCache
