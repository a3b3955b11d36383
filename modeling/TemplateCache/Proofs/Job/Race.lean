import Mathlib.Order.Nat
import TemplateCache.Proofs.Job.Family
import TemplateCache.Proofs.Job.Heed

/-!
# Races of work, deadline and cancellation

A job gets its turns one after the other. Between them time goes on as it likes, any tokens are
cancelled, and others change the rest of the state. Under a token the job comes to its end at the
first turn at which the token is cancelled, the work comes to its end, or the deadline has come; if
several of these meet in one turn, the cancellation wins and the work is second.
-/

namespace TemplateCache

open Job

variable {σ α : Type}

/-! ## Deadlines -/

/-- A deadline is rounded up to whole milliseconds. -/
theorem Duration.ticks_le_iff (d : Duration) (ms : Nat) :
    d.ticks ≤ ms ↔ d.nanoseconds ≤ ms * 1000000 := by
  unfold ticks
  omega

theorem any_earlier (a b : Option Nat) (now : Nat) :
    (earlier a b).any (· ≤ now) = (a.any (· ≤ now) || b.any (· ≤ now)) := by
  cases a with
  | none => rfl
  | some d =>
      cases b with
      | none => exact (Bool.or_false _).symm
      | some d' =>
          rw [Bool.eq_iff_iff]
          simp only [earlier, Option.any_some, Bool.or_eq_true, decide_eq_true_eq]
          omega

theorem any_map_iff {limit : Option Duration} {deadline : Duration → Nat} {now : Nat} :
    (limit.map deadline).any (· ≤ now) = true ↔ ∃ d, limit = some d ∧ deadline d ≤ now := by
  cases limit with
  | none => simp
  | some d => simp

/-! ## Bounded stretches -/

namespace Job

variable [Clocked σ] {token : Token} {operation : String} {deadline : Option Nat}
  {job rest : Job σ (Except StoreError α)} {s t : σ}

/-- What a bound makes of a job that rests. -/
def held (token : Token) (operation : String) (deadline : Option Nat) :
    Job σ (Except StoreError α) → Job σ (Except StoreError α)
  | pause next => pause (act id fun s =>
      if isCancelled token s then done (.error (.cancelled operation))
      else next.boundedBy token operation deadline)
  | job => job.boundedBy token operation deadline

/-- What a bound leaves of a job after a stretch: where it rests, it goes no further if the deadline
has come. -/
def clipped (token : Token) (operation : String) (deadline : Option Nat) (s : σ) :
    Job σ (Except StoreError α) → Job σ (Except StoreError α)
  | done x => done x
  | rest => if isPast deadline s then done (.error (timeoutError operation token))
    else rest.held token operation deadline

theorem clipped_open (isOpen : rest.Open) (early : isPast deadline s = false) :
    rest.clipped token operation deadline s = rest.held token operation deadline := by
  cases rest with
  | done x => exact absurd rfl (isOpen x)
  | act update next => simp [clipped, early]
  | wait event next => simp [clipped, early]
  | pause next => simp [clipped, early]

theorem clipped_late (isOpen : rest.Open) (late : isPast deadline s = true) :
    rest.clipped token operation deadline s = done (.error (timeoutError operation token)) := by
  cases rest with
  | done x => exact absurd rfl (isOpen x)
  | act update next => simp [clipped, late]
  | wait event next => simp [clipped, late]
  | pause next => simp [clipped, late]

theorem clock_advance {job : Job σ α} {good : α → σ → Prop} (keeps : job.Ensures SameClock good s) :
    Clocked.clock (job.advance s).2 = Clocked.clock s := by
  have path := keeps.advance.1
  generalize (job.advance s).2 = t at path ⊢
  induction path with
  | refl => rfl
  | tail _ same ih => exact Eq.trans same ih

/-- As long as its token is not cancelled, a bounded job makes the stretch that it makes without the
bound. -/
theorem advance_boundedBy {good : Except StoreError α → σ → Prop}
    (live : isCancelled token s = false) (keeps : job.Ensures SameClock good s) :
    (job.boundedBy token operation deadline).advance s =
      ((job.advance s).1.clipped token operation deadline (job.advance s).2,
        (job.advance s).2) := by
  induction job generalizing s with
  | done x => rfl
  | act update next ih =>
      obtain ⟨same, rest⟩ := keeps
      refine ih s ?_ rest
      unfold isCancelled at *
      rwa [same]
  | wait event next ih =>
      have due : Wait.isOver ⟨earlier event.deadline deadline,
          fun s => event.ready s || isCancelled token s⟩ s =
          (event.isOver s || isPast deadline s) := by
        simp only [Wait.isOver, any_earlier, live, Bool.or_false, isPast, Bool.or_right_comm]
      by_cases ready : event.isOver s = true
      · have goes : (wait event next).advance s = next.advance s := if_pos ready
        rw [goes, ← ih live (keeps s)]
        simp [boundedBy, advance, due, ready, live]
      · have stays : (wait event next).advance s = (wait event next, s) := if_neg ready
        rw [stays]
        by_cases past : isPast deadline s = true
        · simp [boundedBy, clipped, advance, due, ready, live, past]
        · simp [boundedBy, clipped, held, advance, due, ready, past]
  | pause next ih =>
      by_cases past : isPast deadline s = true
      · simp [boundedBy, clipped, advance, past]
      · simp [boundedBy, clipped, held, advance, past]

/-- Where a bounded job rests, it heeds its token in its next turn. -/
theorem turn_held_cancelled (rests : rest.AtRest) (isOpen : rest.Open)
    (ended : isCancelled token s = true) :
    (Task.unpaused (rest.held token operation deadline)).advance s =
      (done (.error (.cancelled operation)), s) := by
  cases rest with
  | done x => exact absurd rfl (isOpen x)
  | act update next => exact rests.elim
  | wait event next => simp [held, boundedBy, Task.unpaused, advance, Wait.isOver, ended]
  | pause next => simp [held, Task.unpaused, advance, ended]

theorem open_held (rests : rest.AtRest) (isOpen : rest.Open) :
    (rest.held token operation deadline).Open := by
  cases rest with
  | done x => exact absurd rfl (isOpen x)
  | act update next => exact rests.elim
  | wait event next => exact fun _ => nofun
  | pause next => exact fun _ => nofun

/-- If it is not cancelled, it goes on as what rests would. -/
theorem turn_held (live : isCancelled token s = false) :
    (Task.unpaused (rest.held token operation deadline)).advance s =
      ((Task.unpaused rest).boundedBy token operation deadline).advance s := by
  cases rest with
  | done x => rfl
  | act update next => rfl
  | wait event next => rfl
  | pause next => simp [held, Task.unpaused, advance, live]

end Job

/-! ## Schedules -/

/-- What happens to a family of tokens: what time it is at each turn of a job, and which tokens are
cancelled between the turn before and this one. -/
structure Schedule where
  family : Family
  now : Nat → Nat
  cancels : Nat → List Nat

namespace Schedule

variable (e : Schedule)

def cancelAll (tokens : List Nat) (c : Clock) : Clock :=
  tokens.foldl (fun c j => c.cancel (e.family.token j)) c

/-- The clock at a turn. -/
def clock : Nat → Clock
  | 0 => e.cancelAll (e.cancels 0) { now := e.now 0 }
  | n + 1 => e.cancelAll (e.cancels (n + 1)) { clock n with now := e.now (n + 1) }

/-- A token of the family has been cancelled by a turn, itself or one that it descends from. -/
def Cancelled (i n : Nat) : Prop := ∃ m ≤ n, ∃ j ∈ e.cancels m, e.family.Descends i j

variable {e} {i m n : Nat}

theorem Cancelled.later (h : e.Cancelled i m) (later : m ≤ n) : e.Cancelled i n := by
  obtain ⟨k, earlier, cancelled⟩ := h
  exact ⟨k, Nat.le_trans earlier later, cancelled⟩

theorem now_cancelAll (tokens : List Nat) (c : Clock) : (e.cancelAll tokens c).now = c.now := by
  induction tokens generalizing c with
  | nil => rfl
  | cons j rest ih =>
      refine (ih _).trans ?_
      dsimp only [Clock.cancel]
      split
      · rfl
      · rfl

theorem isCancelled_cancelAll (tokens : List Nat) (c : Clock) :
    (e.cancelAll tokens c).isCancelled (e.family.token i) = true ↔
      (∃ j ∈ tokens, e.family.Descends i j) ∨ c.isCancelled (e.family.token i) = true := by
  induction tokens generalizing c with
  | nil => simp [cancelAll]
  | cons j rest ih =>
      refine (ih _).trans ?_
      simp only [Family.isCancelled_cancel, List.mem_cons, exists_eq_or_imp]
      exact or_left_comm.trans or_assoc.symm

theorem now_clock (n : Nat) : (e.clock n).now = e.now n := by
  cases n with
  | zero => exact now_cancelAll _ _
  | succ n => exact now_cancelAll _ _

theorem isCancelled_clock :
    (e.clock n).isCancelled (e.family.token i) = true ↔ e.Cancelled i n := by
  induction n with
  | zero =>
      have nothing : ¬(Clock.isCancelled { now := e.now 0 } (e.family.token i) = true) := by
        simp [Clock.isCancelled]
      refine (isCancelled_cancelAll _ _).trans ((or_iff_left nothing).trans ?_)
      simp [Cancelled]
  | succ n ih =>
      refine (isCancelled_cancelAll _ _).trans ((or_congr_right ih).trans ?_)
      unfold Cancelled
      simp only [Nat.le_succ_iff, or_and_right, exists_or, exists_eq_left]
      exact or_comm

end Schedule

/-! ## Turns -/

/-- What others make of the state between the turns of a job. They change the clock as scheduled and
the rest as they like. -/
structure Surroundings (σ : Type) [Clocked σ] extends Schedule where
  others : Nat → σ → σ
  timely : ∀ n s, Clocked.clock (others n s) = toSchedule.clock n

namespace Surroundings

variable [Clocked σ] (e : Surroundings σ) {job : Job σ α} {s : σ} {x y : α} {m n : Nat}

/-- What is left of a job after a turn, and in which state. -/
def turns (job : Job σ α) (s : σ) : Nat → Job σ α × σ
  | 0 => job.advance (e.others 0 s)
  | n + 1 => (Task.unpaused (turns job s n).1).advance (e.others (n + 1) (turns job s n).2)

/-- A job comes to its end in a turn. -/
def EndsAt (job : Job σ α) (s : σ) (n : Nat) (x : α) : Prop :=
  (e.turns job s n).1 = .done x ∧ ∀ m < n, (e.turns job s m).1.Open

variable {e}

theorem turns_of_done (ended : (e.turns job s n).1 = .done x) (later : n ≤ m) :
    (e.turns job s m).1 = .done x := by
  induction later with
  | refl => exact ended
  | step _ ih =>
      rw [turns, ih]
      rfl

/-- A job has something left as long as it has not come to its end. -/
theorem open_iff : (e.turns job s n).1.Open ↔ ∀ m ≤ n, ∀ x, ¬e.EndsAt job s m x := by
  constructor
  · intro isOpen m earlier x ends
    exact isOpen x (turns_of_done ends.1 earlier)
  · intro never
    induction n with
    | zero => exact fun x ended => never 0 (Nat.le_refl 0) x ⟨ended, nofun⟩
    | succ n ih =>
        intro x ended
        refine never (n + 1) (Nat.le_refl _) x ⟨ended, fun m earlier x' ended' => ?_⟩
        have isOpen := ih fun m early => never m (Nat.le_succ_of_le early)
        exact isOpen x' (turns_of_done ended' (Nat.le_of_lt_succ earlier))

/-- It has one end at most. -/
theorem EndsAt.unique (ends : e.EndsAt job s n x) (ends' : e.EndsAt job s m y) :
    n = m ∧ x = y := by
  rcases Nat.lt_trichotomy n m with before | rfl | after
  · exact absurd ends.1 (ends'.2 n before x)
  · exact ⟨rfl, Job.done.inj (ends.1.symm.trans ends'.1)⟩
  · exact absurd ends'.1 (ends.2 m after y)

end Surroundings

/-! ## Races -/

/-- Work that is run under a token of a family, with some timeout or none. It leaves the clock to
its surroundings. -/
structure Race (σ α : Type) [Clocked σ] extends Surroundings σ where
  token : Nat
  timeout : Option Duration
  operation : String
  work : Job σ (Except StoreError α)
  start : σ
  keeps : work.Keeps SameClock

namespace Race

variable [Clocked σ] (r : Race σ α)

/-- The token that the work is run under. -/
def permit : Token := { r.family.token r.token with timeout := r.timeout }

/-- In a turn, the work that is run under the token comes to its end. -/
def EndsAt (n : Nat) (x : Except StoreError α) : Prop :=
  r.toSurroundings.EndsAt (r.work.within r.permit r.operation) r.start n x

/-- In a turn, the work would come to its end without the token. -/
def FinishesAt (n : Nat) (x : Except StoreError α) : Prop :=
  r.toSurroundings.EndsAt r.work r.start n x

def deadline : Option Nat := r.timeout.map fun d => r.now 0 + Duration.timer d.ticks

/-- The deadline has come by a turn. -/
def Due (n : Nat) : Prop := ∃ d, r.timeout = some d ∧ r.now 0 + Duration.timer d.ticks ≤ r.now n

/-- Neither cancellation nor deadline nor the end of the work has come by a turn. -/
structure Undecided (n : Nat) : Prop where
  live : ¬r.Cancelled r.token n
  early : ¬r.Due n
  works : ∀ x, ¬r.FinishesAt n x

/-- The work and the state with which a turn of the work begins. -/
def stand : Nat → Job σ (Except StoreError α) × σ
  | 0 => (r.work, r.others 0 r.start)
  | n + 1 => (Task.unpaused (r.turns r.work r.start n).1,
      r.others (n + 1) (r.turns r.work r.start n).2)

variable {r} {n : Nat} {x : Except StoreError α} {s : σ}

theorem turns_eq (n : Nat) :
    r.turns r.work r.start n = (r.stand n).1.advance (r.stand n).2 := by
  cases n with
  | zero => rfl
  | succ n => rfl

theorem stand_keeps (n : Nat) : (r.stand n).1.Keeps SameClock := by
  induction n with
  | zero => exact r.keeps
  | succ n ih =>
      refine Keeps.unpaused ?_
      rw [turns_eq]
      exact (ih _).advance.2

theorem clock_stand (n : Nat) : Clocked.clock (r.stand n).2 = r.clock n := by
  cases n with
  | zero => exact r.timely 0 _
  | succ n => exact r.timely (n + 1) _

theorem clock_turns (n : Nat) : Clocked.clock (r.turns r.work r.start n).2 = r.clock n := by
  rw [turns_eq, clock_advance (stand_keeps n _), clock_stand]

theorem isCancelled_of_clock (same : Clocked.clock s = r.clock n) :
    isCancelled r.permit s = true ↔ r.Cancelled r.token n := by
  unfold isCancelled
  rw [same]
  exact Schedule.isCancelled_clock

theorem isPast_of_clock (same : Clocked.clock s = r.clock n) :
    isPast r.deadline s = true ↔ r.Due n := by
  unfold isPast
  rw [same, Schedule.now_clock]
  exact any_map_iff

theorem atRest_turns (n : Nat) : (r.turns r.work r.start n).1.AtRest := by
  rw [turns_eq]
  exact atRest_advance _ _

theorem open_of_undecided (undecided : ∀ m ≤ n, r.Undecided m) :
    (r.turns r.work r.start n).1.Open :=
  Surroundings.open_iff.2 fun m earlier => (undecided m earlier).works

/-- In a turn the work does the same under its token as without, unless the token is cancelled. -/
def InStep (r : Race σ α) (n : Nat) : Prop :=
  r.turns (r.work.within r.permit r.operation) r.start n =
    if isCancelled r.permit (r.stand n).2 then
      (done (.error (.cancelled r.operation)), (r.stand n).2)
    else ((r.turns r.work r.start n).1.clipped r.permit r.operation r.deadline
      (r.turns r.work r.start n).2, (r.turns r.work r.start n).2)

theorem InStep.live (step : r.InStep n) (live : ¬r.Cancelled r.token n) :
    r.turns (r.work.within r.permit r.operation) r.start n =
      ((r.turns r.work r.start n).1.clipped r.permit r.operation r.deadline
        (r.turns r.work r.start n).2, (r.turns r.work r.start n).2) :=
  step.trans (if_neg (mt (isCancelled_of_clock (clock_stand n)).1 live))

theorem InStep.rests (step : r.InStep n) (undecided : ∀ m ≤ n, r.Undecided m) :
    r.turns (r.work.within r.permit r.operation) r.start n =
      ((r.turns r.work r.start n).1.held r.permit r.operation r.deadline,
        (r.turns r.work r.start n).2) := by
  have now := undecided n (Nat.le_refl n)
  rw [step.live now.live, clipped_open (open_of_undecided undecided)]
  exact Bool.eq_false_iff.2 (mt (isPast_of_clock (clock_turns n)).1 now.early)

/-- As long as nothing is decided, the work is in step with itself. -/
theorem inStep (undecided : ∀ m < n, r.Undecided m) : r.InStep n := by
  unfold InStep
  induction n with
  -- The deadline is set from the time of the first turn.
  | zero =>
      have time : (Clocked.clock (r.stand 0).2).now = r.now 0 := by
        rw [clock_stand]
        exact Schedule.now_clock 0
      have begins : r.turns (r.work.within r.permit r.operation) r.start 0 =
          (if isCancelled r.permit (r.stand 0).2 then done (.error (.cancelled r.operation))
            else r.work.boundedBy r.permit r.operation r.deadline).advance (r.stand 0).2 := by
        unfold deadline
        rw [← time]
        rfl
      rw [begins]
      split
      · rfl
      · rename_i live
        exact advance_boundedBy (Bool.eq_false_iff.2 live) (r.keeps _)
  -- By induction the bounded job has come to where the work rests, and it heeds its token first.
  | succ n ih =>
      have earlier : ∀ m ≤ n, r.Undecided m := fun m le => undecided m (Nat.lt_succ_of_le le)
      have before := InStep.rests (ih fun m lt => earlier m (Nat.le_of_lt lt)) earlier
      rw [Surroundings.turns, before]
      split
      · rename_i ended
        exact turn_held_cancelled (atRest_turns n) (open_of_undecided earlier) ended
      · rename_i live
        rw [turns_eq (n + 1)]
        have live' := Bool.eq_false_iff.2 live
        exact (turn_held live').trans (advance_boundedBy live' (stand_keeps (n + 1) _))

/-! ## Who wins -/

theorem open_within (undecided : ∀ m < n, r.Undecided m) :
    ∀ m < n, (r.turns (r.work.within r.permit r.operation) r.start m).1.Open := by
  intro m earlier
  have before : ∀ k ≤ m, r.Undecided k := fun k le => undecided k (Nat.lt_of_le_of_lt le earlier)
  rw [(inStep fun k lt => before k (Nat.le_of_lt lt)).rests before]
  exact open_held (atRest_turns m) (open_of_undecided before)

theorem cancellation_wins (undecided : ∀ m < n, r.Undecided m)
    (cancelled : r.Cancelled r.token n) : r.EndsAt n (.error (.cancelled r.operation)) := by
  refine ⟨?_, open_within undecided⟩
  rw [inStep undecided, if_pos ((isCancelled_of_clock (clock_stand n)).2 cancelled)]

theorem work_wins (undecided : ∀ m < n, r.Undecided m) (live : ¬r.Cancelled r.token n)
    (finishes : r.FinishesAt n x) : r.EndsAt n x := by
  refine ⟨?_, open_within undecided⟩
  rw [(inStep undecided).live live, finishes.1]
  rfl

theorem deadline_wins (undecided : ∀ m < n, r.Undecided m) (live : ¬r.Cancelled r.token n)
    (works : ∀ x, ¬r.FinishesAt n x) {d : Duration} (limited : r.timeout = some d)
    (due : r.Due n) : r.EndsAt n (.error (.timedOut r.operation d)) := by
  have isOpen : (r.turns r.work r.start n).1.Open := by
    refine Surroundings.open_iff.2 fun m earlier => ?_
    rcases Nat.lt_or_eq_of_le earlier with before | rfl
    · exact (undecided m before).works
    · exact works
  refine ⟨?_, open_within undecided⟩
  rw [(inStep undecided).live live]
  dsimp only
  rw [clipped_late isOpen ((isPast_of_clock (clock_turns n)).2 due)]
  unfold timeoutError permit
  rw [limited]
  rfl

theorem exists_first {p : Nat → Prop} {n : Nat} (there : p n) : ∃ m ≤ n, IsLeast {m | p m} m := by
  classical
  have some : ∃ n, p n := ⟨n, there⟩
  exact ⟨Nat.find some, Nat.find_min' some there, Nat.isLeast_find some⟩

/-- Something has come by a turn that ends the work without a cancellation. -/
def Stops (r : Race σ α) (n : Nat) : Prop := r.Due n ∨ ∃ x, r.FinishesAt n x

theorem undecided_of (live : ∀ m < n, ¬r.Cancelled r.token m) (goes : ∀ m < n, ¬r.Stops m) :
    ∀ m < n, r.Undecided m := fun m before =>
  ⟨live m before, fun due => goes m before (.inl due),
    fun x finishes => goes m before (.inr ⟨x, finishes⟩)⟩

/-- The first cancellation ends the work unless something else has done so before. -/
theorem first_cancellation_wins (first : IsLeast {m | r.Cancelled r.token m} n)
    (goes : ∀ m < n, ¬r.Stops m) : r.EndsAt n (.error (.cancelled r.operation)) :=
  cancellation_wins (undecided_of (fun _ before cancelled =>
    Nat.not_le.2 before (first.2 cancelled)) goes) first.1

/-- Where nothing else ends the work, its end is due to a cancellation. -/
theorem cancelled_of_endsAt (goes : ∀ m ≤ n, ¬r.Stops m) (ends : r.EndsAt n x) :
    r.Cancelled r.token n := by
  by_contra live
  have undecided : ∀ m < n + 1, r.Undecided m := undecided_of
    (fun m le cancelled => live (cancelled.later (Nat.le_of_lt_succ le)))
    (fun m le => goes m (Nat.le_of_lt_succ le))
  exact open_within undecided n (Nat.lt_succ_self n) x ends.1

/-- Work that is run under a token comes to its end with the first of three events: the token or one
that it descends from has been cancelled, the work itself is through, or the deadline has come. If
the cancellation comes no later than the other two, the end is that of a cancelled operation.
Otherwise it is what the work comes to if that is no later than the deadline, and a timeout with the
duration of the token if it is later. Where there is no deadline and no end of the work, there is
only the cancellation. Cancelling a token does not concern its parent, nor the other children of its
parent. The deadline is the timeout rounded up to whole milliseconds, as long as timers run. -/
theorem first_event_decides (r : Race σ α) :
    (∀ n, IsLeast {m | r.Stops m} n →
      (r.Cancelled r.token n → ∃ m ≤ n, IsLeast {m | r.Cancelled r.token m} m ∧
        r.EndsAt m (.error (.cancelled r.operation))) ∧
      (¬r.Cancelled r.token n →
        (∀ x, r.FinishesAt n x → r.EndsAt n x) ∧
        ((∀ x, ¬r.FinishesAt n x) →
          ∃ d, r.timeout = some d ∧ r.EndsAt n (.error (.timedOut r.operation d))))) ∧
    ((∀ n, ¬r.Stops n) → ∀ n x, r.EndsAt n x ↔
      IsLeast {m | r.Cancelled r.token m} n ∧ x = .error (.cancelled r.operation)) ∧
    (∀ (c : Clock) (i j : Nat),
      (r.family.parent? j = some i ∨
        i ≠ j ∧ ∃ p, r.family.parent? i = some p ∧ r.family.parent? j = some p) →
      (c.cancel (r.family.token j)).isCancelled (r.family.token i) =
        c.isCancelled (r.family.token i)) ∧
    ∀ d : Duration, d.ticks ≤ Duration.longestTimer →
      ∀ ms, Duration.timer d.ticks ≤ ms ↔ d.nanoseconds ≤ ms * 1000000 := by
  refine ⟨fun n stop => ⟨fun cancelled => ?_, fun live => ?_⟩, fun goes n x => ⟨?_, ?_⟩, ?_, ?_⟩
  · obtain ⟨m, earlier, first⟩ := exists_first (p := r.Cancelled r.token) cancelled
    refine ⟨m, earlier, first, first_cancellation_wins first fun k before stops => ?_⟩
    exact Nat.not_le.2 (Nat.lt_of_lt_of_le before earlier) (stop.2 stops)
  · have undecided : ∀ m < n, r.Undecided m := undecided_of
      (fun m before cancelled => live (cancelled.later (Nat.le_of_lt before)))
      (fun m before stops => Nat.not_le.2 before (stop.2 stops))
    refine ⟨fun x => work_wins undecided live, fun works => ?_⟩
    rcases stop.1 with due | ⟨x, finishes⟩
    · obtain ⟨d, limited, late⟩ := due
      exact ⟨d, limited, deadline_wins undecided live works limited ⟨d, limited, late⟩⟩
    · exact absurd finishes (works x)
  -- The first cancellation ends the work as well, and it has one end only.
  · intro ends
    obtain ⟨m, -, first⟩ := exists_first (cancelled_of_endsAt (fun m _ => goes m) ends)
    obtain ⟨rfl, rfl⟩ := ends.unique (first_cancellation_wins first fun m _ => goes m)
    exact ⟨first, rfl⟩
  · rintro ⟨first, rfl⟩
    exact first_cancellation_wins first fun m _ => goes m
  · rintro c i j (child | ⟨apart, p, child, child'⟩)
    · exact Family.isCancelled_cancel_of_not c (Family.not_descends_of_parent child)
    · exact Family.isCancelled_cancel_of_not c (Family.not_descends_of_sibling child' child apart)
  · intro d runs ms
    rw [Duration.timer, Nat.min_eq_left runs]
    exact d.ticks_le_iff ms

/-- Work of 20 ms with a timeout of 20 ms under a token that has a parent and a sibling. At just
that time tokens are cancelled. -/
def tie (cancelled : List Nat) : Race Clock Nat where
  family := ⟨fun i => if i = 1 ∨ i = 2 then some 0 else none, fun {i p} child => by
    split at child
    · cases child
      omega
    · cases child⟩
  now n := 10 * n
  cancels n := if n = 2 then cancelled else []
  others n _ := Schedule.clock _ n
  timely _ _ := rfl
  token := 1
  timeout := some (.ofMilliseconds 20)
  operation := "render"
  work := (fun _ => .ok 7) <$> sleep 20
  start := {}
  keeps _ := ⟨rfl, fun _ => trivial⟩

theorem mem_cancels_tie {l : List Nat} {j k : Nat} (there : j ∈ (tie l).cancels k) :
    k = 2 ∧ j ∈ l := by
  have within : j ∈ if k = 2 then l else [] := there
  split at within
  · exact ⟨‹_›, within⟩
  · cases within

/-- Where all three meet, the cancellation of the parent wins. That of the sibling does not concern
the work, which then wins over the deadline. -/
theorem first_event_decides_tie :
    (tie [0]).EndsAt 2 (.error (.cancelled "render")) ∧ (tie [2]).EndsAt 2 (.ok 7) := by
  have finishes (l : List Nat) : (tie l).FinishesAt 2 (.ok 7) := by
    have now : (Clocked.clock ((tie l).clock 2)).now = 20 := Schedule.now_clock 2
    have ready : Wait.isOver ⟨some 20, fun _ => false⟩ ((tie l).clock 2) = true := by
      simp [Wait.isOver, now]
    refine ⟨congrArg Prod.fst (if_pos ready), fun m before => ?_⟩
    match m with
    | 0 => exact fun _ => nofun
    | 1 => exact fun _ => nofun
  have stop (l : List Nat) : IsLeast {m | (tie l).Stops m} 2 := by
    refine ⟨.inr ⟨_, finishes l⟩, ?_⟩
    rintro m (⟨d, limited, due⟩ | ⟨x, ends⟩)
    · cases limited
      have late : 20 ≤ 10 * m := due
      omega
    · exact (Surroundings.EndsAt.unique (finishes l) ends).1.le
  constructor
  · have cancelled : (tie [0]).Cancelled (tie [0]).token 2 :=
      ⟨2, Nat.le_refl 2, 0, List.mem_singleton_self 0, .up rfl (.refl 0)⟩
    obtain ⟨m, le, first, ends⟩ := ((first_event_decides (tie [0])).1 2 (stop [0])).1 cancelled
    obtain ⟨k, before, j, there, -⟩ := first.1
    obtain ⟨rfl, -⟩ := mem_cancels_tie there
    exact Nat.le_antisymm le before ▸ ends
  · refine (((first_event_decides (tie [2])).1 2 (stop [2])).2 ?_).1 _ (finishes [2])
    rintro ⟨k, -, j, there, descends⟩
    obtain rfl : j = 2 := List.mem_singleton.1 (mem_cancels_tie there).2
    refine Family.not_descends_of_sibling (p := 0) ?_ ?_ ?_ descends
    · rfl
    · rfl
    · decide

end Race
end TemplateCache
