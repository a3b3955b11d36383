import TemplateCache.Error

/-!
# Resumable jobs

A job works on a shared state in stretches: what it does between two waits happens at once, and
while it waits other jobs may work. It waits for the clock, for a condition on the state, or, at a
`pause`, only for its turn. `Job.advance` runs a job as far as it gets now, `Job.finish` runs it
alone to its end, moving the clock to each deadline, and `Job.within` bounds a job by a token that
can be cancelled and by a deadline: at equal times cancellation comes first and the work second.
-/

namespace TemplateCache

/-- Time in whole milliseconds, and which tokens have been cancelled. -/
structure Clock where
  now : Nat := 0
  cancelled : List Nat := []
  /-- The number of the next token. -/
  fresh : Nat := 0
  deriving DecidableEq, Repr, Inhabited

/-- Permission to run. A token is cancelled with any of those it descends from. -/
structure Token where
  /-- Its own number and those of its ancestors. -/
  lineage : List Nat
  timeout : Option Duration := none
  deriving DecidableEq, Repr, Inhabited

/-- States that have a clock in them. -/
class Clocked (σ : Type) where
  clock : σ → Clock
  setClock : Clock → σ → σ

instance : Clocked Clock := ⟨id, fun c _ => c⟩

namespace Clock

/-- A token without ancestors. -/
def newToken (c : Clock) (timeout : Option Duration) : Token × Clock :=
  (⟨[c.fresh], timeout⟩, { c with fresh := c.fresh + 1 })

/-- A token that is cancelled along with another one and inherits its timeout. -/
def child (c : Clock) (parent : Token) : Token × Clock :=
  (⟨c.fresh :: parent.lineage, parent.timeout⟩, { c with fresh := c.fresh + 1 })

def cancel (c : Clock) (t : Token) : Clock :=
  match t.lineage with
  | [] => c
  | own :: _ => { c with cancelled := own :: c.cancelled }

def isCancelled (c : Clock) (t : Token) : Bool := t.lineage.any c.cancelled.contains

end Clock

/-- What a job waits for: a time, or a condition on the state. -/
structure Wait (σ : Type) where
  deadline : Option Nat
  ready : σ → Bool

def Wait.isOver {σ : Type} [Clocked σ] (w : Wait σ) (s : σ) : Bool :=
  w.deadline.any (· ≤ (Clocked.clock s).now) || w.ready s

/-- The earlier of two deadlines. -/
def earlier : Option Nat → Option Nat → Option Nat
  | none, d => d
  | d, none => d
  | some a, some b => some (min a b)

inductive Job (σ α : Type) where
  | done (value : α)
  /-- Changes the state and goes on from what it was. -/
  | act (update : σ → σ) (next : σ → Job σ α)
  | wait (event : Wait σ) (next : Job σ α)
  /-- Lets other jobs work before it goes on. -/
  | pause (next : Job σ α)

namespace Job

variable {σ τ α β : Type}

def bind : Job σ α → (α → Job σ β) → Job σ β
  | done a, f => f a
  | act update next, f => act update fun s => (next s).bind f
  | wait event next, f => wait event (next.bind f)
  | pause next, f => pause (next.bind f)

instance : Monad (Job σ) where
  pure := done
  bind := bind

instance [Inhabited α] : Inhabited (Job σ α) := ⟨done default⟩

/-- The state as it is. -/
def get : Job σ σ := act id done

def modify (f : σ → σ) : Job σ Unit := act f fun _ => done ()

/-- Computes a value and a new state at once. -/
def modifyGet (f : σ → α × σ) : Job σ α := act (fun s => (f s).2) fun s => done (f s).1

/-- Gives way to the other jobs once. -/
def yield : Job σ Unit := pause (done ())

section

variable [Clocked σ]

/-- Waits for a number of milliseconds, or for as long as a timer runs. -/
def sleep (ms : Nat) : Job σ Unit :=
  act id fun s =>
    wait ⟨some ((Clocked.clock s).now + Duration.timer ms), fun _ => false⟩ (done ())

/-- Waits for a condition on the state. -/
def await (ready : σ → Bool) : Job σ Unit := wait ⟨none, ready⟩ (done ())

/-! ## Tokens -/

def isCancelled (token : Token) (s : σ) : Bool := (Clocked.clock s).isCancelled token

def isPast (deadline : Option Nat) (s : σ) : Bool :=
  deadline.any (· ≤ (Clocked.clock s).now)

def timeoutError (operation : String) (token : Token) : StoreError :=
  .timedOut operation (token.timeout.getD ⟨0⟩)

/-- Bounds what is left of a job by a token and a deadline. -/
def boundedBy (token : Token) (operation : String) (deadline : Option Nat) :
    Job σ (Except StoreError α) → Job σ (Except StoreError α)
  | done r => done r
  | act update next => act update fun s => (next s).boundedBy token operation deadline
  | wait event next =>
    wait ⟨earlier event.deadline deadline, fun s => event.ready s || isCancelled token s⟩
      (act id fun s =>
        if isCancelled token s then done (.error (.cancelled operation))
        else if event.isOver s then next.boundedBy token operation deadline
        else done (.error (timeoutError operation token)))
  | pause next =>
    act id fun s =>
      if isPast deadline s then done (.error (timeoutError operation token))
      else pause (act id fun s =>
        if isCancelled token s then done (.error (.cancelled operation))
        else next.boundedBy token operation deadline)

/-- Runs a job under a token, from now on and no longer than its timeout. -/
def within (token : Token) (operation : String) (job : Job σ (Except StoreError α)) :
    Job σ (Except StoreError α) :=
  act id fun s =>
    if isCancelled token s then done (.error (.cancelled operation))
    else
      let deadline := token.timeout.map fun d => (Clocked.clock s).now + Duration.timer d.ticks
      job.boundedBy token operation deadline

/-! ## Running -/

/-- Runs a job until it has to wait. -/
def advance : Job σ α → σ → Job σ α × σ
  | done a, s => (done a, s)
  | act update next, s => (next s).advance (update s)
  | wait event next, s => if event.isOver s then next.advance s else (wait event next, s)
  | pause next, s => (pause next, s)

/-- Runs a job alone. It sleeps no longer than it has to; `none` is a wait that nothing ends. -/
def finish : Job σ α → σ → Option (α × σ)
  | done a, s => some (a, s)
  | act update next, s => (next s).finish (update s)
  | wait event next, s =>
    if event.isOver s then next.finish s
    else
      match event.deadline with
      | none => none
      | some t => next.finish (Clocked.setClock { Clocked.clock s with now := t } s)
  | pause next, s => next.finish s

end

/-! ## Parts of a larger state -/

/-- A part of a larger state. -/
structure Part (σ τ : Type) where
  get : τ → σ
  set : σ → τ → τ

/-- Lets a job work on a part of a larger state. -/
def on (part : Part σ τ) : Job σ α → Job τ α
  | done a => done a
  | act update next =>
    act (fun t => part.set (update (part.get t)) t) fun t => (next (part.get t)).on part
  | wait event next => wait ⟨event.deadline, fun t => event.ready (part.get t)⟩ (next.on part)
  | pause next => pause (next.on part)

end Job

/-! ## Schedules -/

/-- A job among others, and when it ended. -/
structure Task (σ α : Type) where
  job : Job σ α
  result : Option (α × Nat) := none

namespace Task

variable {σ α : Type} [Clocked σ]

/-- Lets a job that paused go on. -/
def unpaused : Job σ α → Job σ α
  | .pause next => next
  | job => job

/-- Gives a task its turn. -/
def turn (t : Task σ α) (s : σ) : Task σ α × σ :=
  if t.result.isSome then (t, s)
  else
    match (unpaused t.job).advance s with
    | (.done a, s) => (⟨.done a, some (a, (Clocked.clock s).now)⟩, s)
    | (job, s) => (⟨job, none⟩, s)

/-- Whether a turn now would take the task further. -/
def canMove (t : Task σ α) (s : σ) : Bool :=
  t.result.isNone &&
    match t.job with
    | .wait event _ => event.isOver s
    | _ => true

def deadline? (t : Task σ α) : Option Nat :=
  match t.result, t.job with
  | none, .wait event _ => event.deadline
  | _, _ => none

/-- One turn for each task in order. -/
def round (s : σ) : List (Task σ α) → List (Task σ α) × σ
  | [] => ([], s)
  | t :: rest =>
    let (t, s) := t.turn s
    let (rest, s) := round s rest
    (t :: rest, s)

/-- Runs tasks side by side: rounds while one can move, then on to the next deadline. -/
def runAll : Nat → List (Task σ α) → σ → List (Task σ α) × σ
  | 0, tasks, s => (tasks, s)
  | fuel + 1, tasks, s =>
    if tasks.any (canMove · s) then
      let (tasks, s) := round s tasks
      runAll fuel tasks s
    else
      match tasks.foldl (fun d t => earlier d t.deadline?) none with
      | none => (tasks, s)
      | some t => runAll fuel tasks (Clocked.setClock { Clocked.clock s with now := t } s)

end Task
end TemplateCache
