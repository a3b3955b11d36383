import TemplateCache.Proofs.Compiler.Patrol
import TemplateCache.Proofs.Watch.Bursts

/-!
# Watches whose timers are on time

A watch at work receives paths and begins a task for each path that has settled, beside the tasks
that are still at work and whatever else happens in the session. As long as it has not ended and its
timers run out when they are due, the tasks that it begins are those of the bursts that it has heard
of, one for each burst.
-/

namespace TemplateCache.Patrol

open Job

variable {π : Type}

/-! ## Runs on time -/

/-- The time on the bench. -/
def now (p : Patrol π) : Nat := (Clocked.clock p.bench).now

section

variable (c : Compiler π) (sink : PathChange → Bench π → Bench π) (token : Token)

/-- A timer runs out when it is due, while the watch has not ended, and nothing else takes the time
beyond one that is due, or back. -/
def isOnTime (p : Patrol π) : Event π → Bool
  | .receive => true
  | .ring timer =>
    decide (timer ∈ p.debounce.timers ∧ timer.due = p.now) && !isCancelled token p.bench
  | e =>
    let later := (p.step c sink token e).now
    decide (p.now ≤ later) && p.debounce.timers.all fun timer => decide (later ≤ timer.due)

def isPunctual (p : Patrol π) : List (Event π) → Bool
  | [] => true
  | e :: rest => isOnTime c sink token p e && isPunctual (p.step c sink token e) rest

/-- Which path is received in an event, and when. -/
def hears (p : Patrol π) : Event π → List (String × Nat)
  | .receive => (p.heard.head?.map fun path => (path.text, p.now)).toList
  | _ => []

/-- For which path a task begins in an event, and when. -/
def begins (p : Patrol π) : Event π → List (String × Nat)
  | .ring timer =>
    if p.tasks.length < (p.step c sink token (.ring timer)).tasks.length
    then [(timer.path, p.now)] else []
  | _ => []

/-- The paths that are received in a run, with the times. -/
def received (p : Patrol π) : List (Event π) → List (String × Nat)
  | [] => []
  | e :: rest => p.hears e ++ received (p.step c sink token e) rest

/-- The paths for which a task begins in a run, with the times. -/
def settled (p : Patrol π) : List (Event π) → List (String × Nat)
  | [] => []
  | e :: rest => p.begins c sink token e ++ settled (p.step c sink token e) rest

end

/-! ## What becomes of the timers -/

variable {c : Compiler π} {sink : PathChange → Bench π → Bench π} {token : Token}
  {p : Patrol π} {e : Event π}

theorem debounce_conclude (sink : PathChange → Bench π → Bench π) (token : Token)
    (p : Patrol π) (found : Except CompileError (Option PathChange)) :
    (p.conclude sink token found).debounce = p.debounce := by
  unfold conclude
  split
  · split
    · rfl
    · rfl
  · rfl

/-- Tasks leave the timers alone. -/
theorem debounce_proceed (sink : PathChange → Bench π → Bench π) (token : Token)
    (p : Patrol π) (number : Nat) : (p.proceed sink token number).debounce = p.debounce := by
  rcases proceed_cases sink token p number with idle | ⟨job, there, rest, b, turn, goes⟩
  · rw [idle]
  · rw [goes]
    unfold turned
    split
    · exact debounce_conclude _ _ _ _
    · rfl

/-- A timer that runs out in time begins a task if its path has settled. -/
theorem step_ring {timer : Timer} (running : timer ∈ p.debounce.timers)
    (due : timer.due = p.now) (live : isCancelled token p.bench = false) :
    p.step c sink token (.ring timer) =
      { p with
        debounce := (p.debounce.fire timer).2
        tasks := if (p.debounce.fire timer).1
          then p.tasks ++ [.pause (c.eventAt ⟨timer.path⟩ token).run] else p.tasks } := by
  have rings : timer ∈ p.debounce.timers ∧ timer.due ≤ (Clocked.clock p.bench).now :=
    ⟨running, Nat.le_of_eq due⟩
  have still (d : Debounce) : isCancelled token { p with debounce := d }.bench = false := live
  unfold Debounce.fire
  simp only [step, if_pos rings]
  rcases Debounce.ring { p.debounce with timers := p.debounce.timers.erase timer } timer
    with ⟨settles, d⟩
  cases settles with
  | false => rfl
  | true => simp only [still, Bool.not_false, Bool.and_self, if_true]

theorem begins_ring {timer : Timer} (running : timer ∈ p.debounce.timers)
    (due : timer.due = p.now) (live : isCancelled token p.bench = false) :
    p.begins c sink token (.ring timer) =
      if (p.debounce.fire timer).1 then [(timer.path, timer.due)] else [] := by
  unfold begins
  dsimp only
  rw [step_ring running due live, due]
  cases (p.debounce.fire timer).1 with
  | false => simp
  | true => simp

/-- What a watch does with its timers in one event goes on with the course of what it has heard. -/
theorem course_step {events settles : List (String × Nat)}
    (course : Debounce.Course events settles p.now p.debounce)
    (onTime : p.isOnTime c sink token e = true) :
    Debounce.Course (events ++ p.hears e) (settles ++ p.begins c sink token e)
      (p.step c sink token e).now (p.step c sink token e).debounce := by
  have passes (same : (p.step c sink token e).debounce = p.debounce)
      (forward : p.now ≤ (p.step c sink token e).now ∧
        ∀ timer ∈ p.debounce.timers, (p.step c sink token e).now ≤ timer.due) :
      Debounce.Course (events ++ []) (settles ++ []) (p.step c sink token e).now
        (p.step c sink token e).debounce := by
    rw [same, List.append_nil, List.append_nil]
    exact .wait course forward.1 forward.2
  cases e with
  | receive =>
      have unsettled : settles ++ p.begins c sink token .receive = settles := List.append_nil _
      rw [unsettled]
      cases next : p.heard with
      | nil => simpa [step, hears, next] using course
      | cons path rest =>
          simp only [step, hears, next]
          exact .arrive course path.text
  | ring timer =>
      simp only [isOnTime, Bool.and_eq_true, decide_eq_true_eq, Bool.not_eq_true'] at onTime
      obtain ⟨⟨running, due⟩, live⟩ := onTime
      have unheard : events ++ p.hears (.ring timer) = events := List.append_nil _
      rw [unheard, begins_ring running due live, step_ring running due live]
      show Debounce.Course _ _ p.now _
      rw [← due] at course ⊢
      exact .ring course running
  | notice path =>
      refine passes ?_ (by simpa [isOnTime] using onTime)
      simp only [step]
      split
      · rfl
      · rfl
  | stop =>
      refine passes ?_ (by simpa [isOnTime] using onTime)
      simp only [step]
      split
      · rfl
      · rfl
  | proceed number =>
      exact passes (debounce_proceed _ _ _ _) (by simpa [isOnTime] using onTime)
  | close => exact passes rfl (by simpa [isOnTime] using onTime)
  | beside outside => exact passes rfl (by simpa [isOnTime] using onTime)

theorem course_run {events settles : List (String × Nat)} {es : List (Event π)}
    (course : Debounce.Course events settles p.now p.debounce)
    (punctual : p.isPunctual c sink token es = true) :
    Debounce.Course (events ++ p.received c sink token es) (settles ++ p.settled c sink token es)
      (p.run c sink token es).now (p.run c sink token es).debounce := by
  induction es generalizing p events settles with
  | nil => simpa [received, settled, run] using course
  | cons e rest ih =>
      simp only [isPunctual, Bool.and_eq_true] at punctual
      have goes := ih (course_step course punctual.1) punctual.2
      rw [List.append_assoc, List.append_assoc] at goes
      exact goes

/-- A watch whose timers run out on time begins one task for each burst, one window after its last
event: an event leads to a task exactly if no other event of its path follows within the window. So
the last event of every path leads to one, no two tasks of a path begin at one time, and the tasks
of a path depend on its own events alone. -/
theorem bursts_settle_once {s : Session π} {es : List (Event π)}
    (punctual : (start s).isPunctual c sink token es = true)
    (rung : ((start s).run c sink token es).debounce.timers = [])
    (apart : Debounce.Apart ((start s).received c sink token es)) :
    let events := (start s).received c sink token es
    let settled := (start s).settled c sink token es
    settled.Perm (Debounce.quietEnds events) ∧
      (∀ path due, (path, due) ∈ settled ↔
        ∃ time, due = time + Debounce.window ∧ (path, time) ∈ events ∧
          ∀ later, (path, later) ∈ events → time < later → due < later) ∧
      (∀ path time, (path, time) ∈ events → (∀ later, (path, later) ∈ events → later ≤ time) →
        (path, time + Debounce.window) ∈ settled) ∧
      settled.Nodup ∧
      ∀ path, (settled.filter fun e => e.1 = path).Perm
        (Debounce.quietEnds (events.filter fun e => e.1 = path)) := by
  intro events settled
  have course : Debounce.Course events settled ((start s).run c sink token es).now
      ((start s).run c sink token es).debounce := course_run (.start _) punctual
  have same : settled.Perm (Debounce.quietEnds events) := course.settles rung apart
  have settles (path : String) (due : Nat) : (path, due) ∈ settled ↔
      ∃ time, due = time + Debounce.window ∧ (path, time) ∈ events ∧
        ∀ later, (path, later) ∈ events → time < later → due < later := by
    rw [same.mem_iff, Debounce.mem_quietEnds course.ascending.1]
    constructor
    · rintro ⟨time, rfl, there, quiet⟩
      refine ⟨time, rfl, there, fun later there' behind => ?_⟩
      apply Nat.lt_of_le_of_ne (quiet later there' behind)
      rintro rfl
      exact apart path time there there'
    · rintro ⟨time, rfl, there, quiet⟩
      exact ⟨time, rfl, there, fun later there' behind => Nat.le_of_lt (quiet later there' behind)⟩
  refine ⟨same, settles, ?_, ?_, ?_⟩
  · intro path time there last
    rw [settles]
    refine ⟨time, rfl, there, fun later there' behind => ?_⟩
    exact absurd (last later there') (Nat.not_le_of_lt behind)
  · exact same.nodup_iff.2 (Debounce.nodup_quietEnds events)
  · intro path
    rw [Debounce.quietEnds_filter]
    exact same.filter _

end Patrol

namespace Sample

/-- The time on the clock is set, and nothing else happens. -/
def hour (now : Nat) : Patrol.Event Output :=
  .beside (.elsewhere ∅ laidOut.own
    { laidOut.environment with clock := { now := now, fresh := 2 } })

def neighbour : Path := ⟨"/in/partials/b.html"⟩

/-- A file changes twice in a burst and once more later, and another one changes once. -/
def flurry : List (Patrol.Event Output) := [
  .notice path, .notice neighbour, .receive, .receive,
  hour 50, .notice path, .receive,
  hour 100, .ring ⟨path.text, 1, 100⟩, .ring ⟨neighbour.text, 1, 100⟩,
  hour 150, .ring ⟨path.text, 2, 150⟩, .proceed 0,
  hour 300, .notice path, .receive,
  hour 400, .ring ⟨path.text, 1, 400⟩]

end Sample

open Sample

/-- The last burst counts from one again. -/
theorem flurry_settles_thrice :
    (Patrol.start guarding).isPunctual mirror mirror.apply (badge guarding.bench) flurry = true ∧
      ((Patrol.start guarding).run mirror mirror.apply (badge guarding.bench)
        flurry).debounce.timers = [] ∧
      Debounce.Apart
        ((Patrol.start guarding).received mirror mirror.apply (badge guarding.bench) flurry) ∧
      ((Patrol.start guarding).settled mirror mirror.apply (badge guarding.bench) flurry).Perm
        [(neighbour.text, 100), (path.text, 150), (path.text, 400)] := by
  have punctual : (Patrol.start guarding).isPunctual mirror mirror.apply (badge guarding.bench)
      flurry = true := by decide +kernel
  have rung : ((Patrol.start guarding).run mirror mirror.apply (badge guarding.bench)
      flurry).debounce.timers = [] := by decide +kernel
  have events : (Patrol.start guarding).received mirror mirror.apply (badge guarding.bench)
      flurry = [(path.text, 0), (neighbour.text, 0), (path.text, 50), (path.text, 300)] := by
    decide +kernel
  have apart : Debounce.Apart
      ((Patrol.start guarding).received mirror mirror.apply (badge guarding.bench) flurry) := by
    rw [events]
    intro path time there there'
    simp [Debounce.window] at there there'
    omega
  have ends : Debounce.quietEnds
      [(path.text, 0), (neighbour.text, 0), (path.text, 50), (path.text, 300)] =
        [(neighbour.text, 100), (path.text, 150), (path.text, 400)] := by
    decide +kernel
  have same := (Patrol.bursts_settle_once punctual rung apart).1
  rw [events, ends] at same
  exact ⟨punctual, rung, apart, same⟩

end TemplateCache
