import TemplateCache.Proofs.Compiler.Cancellation
import TemplateCache.Proofs.Compiler.Vigil

/-!
# Watches that have ended

A watch is a loop that receives paths, a timer for each of them, and a task for each path that has
settled. It works beside the calls of clients and other watches, and tells a sink what its tasks
find. Closing it cancels its token, and so does clearing the compiler that it belongs to. A task
looks at the token just before it tells the sink something, so from then on the sink is told
nothing, wherever the tasks are.
-/

namespace TemplateCache

open Job

variable {π : Type}

/-- A watch over a source tree, at work. -/
structure Patrol (π : Type) where
  /-- Its compiler, with the calls of clients and the tasks of other watches. -/
  session : Session π
  /-- The paths that the loop has still to receive. -/
  heard : List Path := []
  /-- The loop is running. -/
  listening : Bool := true
  debounce : Debounce := {}
  /-- What is left of the tasks whose paths have settled. -/
  tasks : List (Job (Bench π) (Except CompileError (Option PathChange))) := []
  /-- What the sink was told. -/
  told : List PathChange := []

namespace Patrol

inductive Event (π : Type) where
  /-- A path is sent to the loop. -/
  | notice (path : Path)
  /-- The loop receives a path. -/
  | receive
  /-- The loop finds that the watch has ended. -/
  | stop
  /-- The timer of a task runs out. -/
  | ring (timer : Timer)
  /-- A task goes on. -/
  | proceed (number : Nat)
  /-- The watch is closed. -/
  | close
  /-- Something happens in the session. -/
  | beside (e : Session.Event π)

def start (s : Session π) : Patrol π := { session := s }

def bench (p : Patrol π) : Bench π := p.session.bench

/-- The watch does something to the bench. -/
def withBench (p : Patrol π) (b : Bench π) : Patrol π :=
  { p with session := { p.session with bench := b } }

/-- A task has found something, and tells the sink unless the watch has ended. -/
def conclude (sink : PathChange → Bench π → Bench π) (token : Token) (p : Patrol π) :
    Except CompileError (Option PathChange) → Patrol π
  | .ok (some change) =>
    if isCancelled token p.bench then p
    else { p.withBench (sink change p.bench) with told := p.told ++ [change] }
  | _ => p

/-- A task has had a turn, of which this is left. -/
def turned (sink : PathChange → Bench π → Bench π) (token : Token) (p : Patrol π) (number : Nat)
    (job : Job (Bench π) (Except CompileError (Option PathChange))) (b : Bench π) : Patrol π :=
  let p := { p.withBench b with tasks := p.tasks.set number job }
  match job with
  | .done found => p.conclude sink token found
  | _ => p

def proceed (sink : PathChange → Bench π → Bench π) (token : Token) (p : Patrol π)
    (number : Nat) : Patrol π :=
  match p.tasks[number]? with
  | none | some (.done _) => p
  | some job =>
    let (rest, b) := (Task.unpaused job).advance p.bench
    p.turned sink token number rest b

/-- Whatever others do, what was cancelled stays so. -/
def lasting (b : Bench π) : Session.Event π → Session.Event π
  | .elsewhere content own environment =>
    let cancelled := (Clocked.clock b).cancelled ++ environment.clock.cancelled
    .elsewhere content own
      { environment with clock := { environment.clock with cancelled := cancelled } }
  | e => e

def step (c : Compiler π) (sink : PathChange → Bench π → Bench π) (token : Token)
    (p : Patrol π) : Event π → Patrol π
  | .notice path => if p.listening then { p with heard := p.heard ++ [path] } else p
  | .receive =>
    match p.heard with
    | [] => p
    | path :: rest =>
      { p with
        heard := rest
        debounce := p.debounce.arrive path.text (Clocked.clock p.bench).now }
  | .stop => if isCancelled token p.bench then { p with listening := false, heard := [] } else p
  | .ring timer =>
    if timer ∈ p.debounce.timers ∧ timer.due ≤ (Clocked.clock p.bench).now then
      let waiting := { p.debounce with timers := p.debounce.timers.erase timer }
      let (settled, debounce) := waiting.ring timer
      let p := { p with debounce := debounce }
      if settled && !isCancelled token p.bench then
        { p with tasks := p.tasks ++ [.pause (c.eventAt ⟨timer.path⟩ token).run] }
      else p
    else p
  | .proceed number => p.proceed sink token number
  | .close => p.withBench (Clocked.setClock ((Clocked.clock p.bench).cancel token) p.bench)
  | .beside e => { p with session := p.session.step c (lasting p.bench e) }

def run (c : Compiler π) (sink : PathChange → Bench π → Bench π) (token : Token) (p : Patrol π)
    (events : List (Event π)) : Patrol π :=
  events.foldl (step c sink token) p

/-- What ends a watch that works beside a session: it is closed, or its compiler is cleared, which
is its sink. -/
inductive Ends (c : Compiler π) (sink : PathChange → Bench π → Bench π) (token : Token)
    (s : Session π) : Event π → Prop where
  | close (numbered : token.lineage ≠ []) : Ends c sink token s .close
  | clear {w : Watcher} (all : Bool) (there : w ∈ s.bench.state.watchers) (own : w.token = token)
    (same : sink = c.apply) : Ends c sink token s (.beside (.ask (.clear all)))

end Patrol

/-! ## Tasks -/

namespace Bench

/-- Neither what the compiler remembers changes nor the clock. -/
structure Looks (b d : Bench π) : Prop where
  state : d.state = b.state
  clock : SameClock b d

variable {b d : Bench π}

theorem looks_of_path (path : Relation.ReflTransGen Looks b d) : b.Looks d := by
  induction path with
  | refl => exact ⟨rfl, rfl⟩
  | tail _ looks before =>
      exact ⟨looks.state.trans before.state, Eq.trans looks.clock before.clock⟩

theorem Looks.isCancelled {token : Token} (looks : b.Looks d) :
    isCancelled token d = isCancelled token b := by
  unfold Job.isCancelled
  rw [show Clocked.clock d = Clocked.clock b from looks.clock]

/-- A task leaves the compiler alone as long as it looks what a path holds. -/
theorem eventAt_looks {c : Compiler π} (obedient : c.store.Obedient) (path : Path)
    (token : Token) : (c.eventAt path token).run.Keeps Looks := by
  have on (b : Bench π) (site : Site π) (same : SameClock b.site site) :
      b.Looks (b.withSite site) := ⟨rfl, same⟩
  unfold Compiler.eventAt
  split
  · exact keeps_pure _
  · rename_i name _
    refine (keeps_gets (fun _ => ⟨rfl, rfl⟩) _).bindExcept fun isDir => ?_
    split
    · exact keeps_pure _
    · refine (keeps_storing (obedient.readSource path token).keeps on).bindExcept fun r => ?_
      split
      · exact keeps_pure _
      · refine (keeps_storing (obedient.unregister name token).keeps on).bindExcept fun _ => ?_
        exact keeps_pure _

end Bench

namespace Patrol

variable {c : Compiler π} {sink : PathChange → Bench π → Bench π} {token : Token} {p : Patrol π}
  {number : Nat} {job rest : Job (Bench π) (Except CompileError (Option PathChange))}
  {b : Bench π}

theorem proceed_of_open (there : p.tasks[number]? = some job) (isOpen : job.Open)
    (turn : (Task.unpaused job).advance p.bench = (rest, b)) :
    p.proceed sink token number = p.turned sink token number rest b := by
  unfold proceed
  rw [there]
  cases job with
  | done found => exact absurd rfl (isOpen found)
  | act update next => simp only [turn]
  | wait event next => simp only [turn]
  | pause next => simp only [turn]

/-- A turn either does nothing or is one of a task that has not ended. -/
theorem proceed_cases (sink : PathChange → Bench π → Bench π) (token : Token) (p : Patrol π)
    (number : Nat) :
    p.proceed sink token number = p ∨
      ∃ job ∈ p.tasks, ∃ rest b, (Task.unpaused job).advance p.bench = (rest, b) ∧
        p.proceed sink token number = p.turned sink token number rest b := by
  cases there : p.tasks[number]? with
  | none =>
      left
      unfold proceed
      rw [there]
  | some job =>
      by_cases ended : ∃ found, job = .done found
      · obtain ⟨found, rfl⟩ := ended
        left
        unfold proceed
        rw [there]
      · right
        have isOpen : job.Open := fun found same => ended ⟨found, same⟩
        exact ⟨job, List.mem_of_getElem? there, _, _, rfl, proceed_of_open there isOpen rfl⟩

/-- A task of a watch whose sink is the compiler does what is left of a call that settles its
path. -/
theorem proceed_settles (there : p.tasks[number]? = some job) (isOpen : job.Open) :
    (p.proceed c.apply token number).bench =
      ((Task.unpaused (job.bind (c.applied token))).advance p.bench).2 := by
  rw [unpaused_bind _ isOpen]
  rcases advance_bind (Task.unpaused job) (c.applied token) p.bench with
    ⟨found, b, turn, whole⟩ | ⟨rest, b, turn, still, whole⟩
  · rw [proceed_of_open there isOpen turn, whole]
    rcases found with e | (_ | change)
    · rfl
    · rfl
    · -- Both look at the token just before the change is applied.
      show Patrol.bench (if isCancelled token b = true then _ else _) =
        if isCancelled token b then b else c.apply change b
      split
      · rfl
      · rfl
  · rw [proceed_of_open there isOpen turn, whole]
    cases rest with
    | done found => exact absurd rfl (still found)
    | act update next => rfl
    | wait event next => rfl
    | pause next => rfl

end Patrol

/-! ## What lasts -/

namespace Bench

/-- The tokens of all watches have numbers, so they can be cancelled. -/
def Numbered (b : Bench π) : Prop := ∀ w ∈ b.state.watchers, w.token.lineage ≠ []

/-- A watch has ended or belongs to the compiler. -/
def Patrols (token : Token) (b : Bench π) : Prop :=
  isCancelled token b = true ∨ ∃ w ∈ b.state.watchers, w.token = token

variable {b d : Bench π} {token : Token}

theorem Numbered.upheld (numbered : b.Numbered) (upholds : b.Upholds d) : d.Numbered := by
  intro w there
  rcases upholds.numbered w there with before | own
  · exact numbered w before
  · exact own

/-- A token is cancelled if its own number is. -/
theorem isCancelled_of_head (numbered : token.lineage ≠ [])
    (ended : ∀ n, token.lineage.head? = some n → n ∈ (Clocked.clock b).cancelled) :
    isCancelled token b = true := by
  rw [isCancelled_iff]
  cases lineage : token.lineage with
  | nil => exact absurd lineage numbered
  | cons own above =>
      rw [lineage] at ended
      exact ⟨own, List.mem_cons_self, ended own rfl⟩

theorem Patrols.upheld (patrols : b.Patrols token) (numbered : b.Numbered) (upholds : b.Upholds d) :
    d.Patrols token := by
  rcases patrols with ended | ⟨w, there, own⟩
  · exact .inl (isCancelled_of_kept upholds.kept ended)
  · rcases upholds.stays w there with still | ended
    · exact .inr ⟨w, still, own⟩
    · left
      rw [← own]
      exact isCancelled_of_head (numbered w there) ended

end Bench

namespace Session

/-- Every call works under a token that it draws. -/
def Permitted (c : Compiler π) (s : Session π) : Prop :=
  ∀ (j : Nat) (call : Call π), s.calls[j]? = some call → ∃ a : Permit,
    call.job.Rests (permitPlan c.settings) (fun r a => a.Allows r) a

variable {c : Compiler π} {s : Session π} {e : Event π}

theorem Permitted.goes (obedient : c.store.Obedient) (permitted : s.Permitted c)
    (inside : ∀ content own environment, e ≠ .elsewhere content own environment) :
    s.bench.Upholds (step c s e).bench ∧ (step c s e).Permitted c := by
  by_cases cancels : e = .ask .cancel
  · subst cancels
    constructor
    · refine Bench.upholds_of_watchers rfl fun n ended => ?_
      exact (Bench.cancelled_cancel s.bench n).2 (.inr ended)
    · intro j call there
      rcases mem_asked there with ⟨-, there⟩ | ⟨-, rfl⟩
      · exact permitted j call there
      · refine ⟨.idle, ?_⟩
        rintro ⟨e, same, -⟩
        exact nomatch same
  · obtain ⟨proceeds, rests⟩ := rests_step obedient (fun _ _ _ => True) inside cancels
      (fun _ => trivial) (fun _ _ => trivial) (fun _ _ => trivial) fun there => by
        obtain ⟨a, rests⟩ := permitted _ _ there
        exact ⟨a, trivial, rests⟩
    refine ⟨proceeds.toUpholds, fun j call there => ?_⟩
    obtain ⟨a, -, rests⟩ := rests there
    exact ⟨a, rests⟩

theorem permitted_run (obedient : c.store.Obedient) (site : Site π) (events : List (Event π)) :
    (run c (start site) events).Permitted c ∧ (run c (start site) events).bench.Numbered := by
  induction events using List.reverseRecOn with
  | nil => exact ⟨fun _ _ there => (nomatch there), fun _ there => nomatch there⟩
  | append_singleton events e ih =>
      have last : run c (start site) (events ++ [e]) = step c (run c (start site) events) e :=
        List.foldl_concat _ _ _ _
      rw [last]
      obtain ⟨permitted, numbered⟩ := ih
      cases e with
      | elsewhere content own environment => exact ⟨permitted, numbered⟩
      | ask command =>
          obtain ⟨upholds, goes⟩ := permitted.goes (e := .ask command) obedient nofun
          exact ⟨goes, numbered.upheld upholds⟩
      | turn number =>
          obtain ⟨upholds, goes⟩ := permitted.goes (e := .turn number) obedient nofun
          exact ⟨goes, numbered.upheld upholds⟩

/-- Clearing ends all watches in its first stretch. -/
theorem watchers_cleared (s : Session π) (all : Bool) :
    (step c s (.ask (.clear all))).bench.state.watchers = [] := by
  have begun := (clear_begins c all).advance s.bench
  have same := state_of_path begun.1
  show ((Command.work c (.clear all)).run.advance s.bench).2.state.watchers = []
  rw [same]
  rfl

end Session

namespace Patrol

/-- Calls work under tokens of their own, and tasks only look until they tell what they found. -/
structure Sound (c : Compiler π) (p : Patrol π) : Prop where
  calls : p.session.Permitted c
  tasks : ∀ job ∈ p.tasks, job.Keeps Bench.Looks

variable {c : Compiler π} {sink : PathChange → Bench π → Bench π} {token : Token} {p : Patrol π}
  {number : Nat} {job rest : Job (Bench π) (Except CompileError (Option PathChange))}
  {b : Bench π}

/-- What a turn of a task does: it tells the sink at most one change, and only if the token is not
cancelled then. -/
theorem turned_spec (sink : PathChange → Bench π → Bench π) (token : Token) (p : Patrol π)
    (number : Nat) (rest : Job (Bench π) (Except CompileError (Option PathChange)))
    (b : Bench π) :
    let q := p.turned sink token number rest b
    q.tasks = p.tasks.set number rest ∧ q.session.calls = p.session.calls ∧
      ((q.bench = b ∧ q.told = p.told) ∨
        (isCancelled token b = false ∧ ∃ change, q.bench = sink change b ∧
          q.told = p.told ++ [change])) := by
  cases rest with
  | act update next => exact ⟨rfl, rfl, .inl ⟨rfl, rfl⟩⟩
  | wait event next => exact ⟨rfl, rfl, .inl ⟨rfl, rfl⟩⟩
  | pause next => exact ⟨rfl, rfl, .inl ⟨rfl, rfl⟩⟩
  | done found =>
      rcases found with e | (_ | change)
      · exact ⟨rfl, rfl, .inl ⟨rfl, rfl⟩⟩
      · exact ⟨rfl, rfl, .inl ⟨rfl, rfl⟩⟩
      · let ended : Patrol π := { p.withBench b with
          tasks := p.tasks.set number (.done (.ok (some change))) }
        cases cancelled : isCancelled token b with
        | true =>
            have same : p.turned sink token number (.done (.ok (some change))) b = ended :=
              if_pos cancelled
            rw [same]
            exact ⟨rfl, rfl, .inl ⟨rfl, rfl⟩⟩
        | false =>
            have same : p.turned sink token number (.done (.ok (some change))) b =
                { ended.withBench (sink change b) with told := p.told ++ [change] } :=
              if_neg (Bool.eq_false_iff.1 cancelled)
            rw [same]
            exact ⟨rfl, rfl, .inr ⟨rfl, change, rfl, rfl⟩⟩

theorem Sound.turn (sound : p.Sound c) (there : job ∈ p.tasks)
    (turn : (Task.unpaused job).advance p.bench = (rest, b)) :
    p.bench.Looks b ∧ rest.Keeps Bench.Looks := by
  obtain ⟨path, keeps⟩ := ((sound.tasks job there).unpaused p.bench).advance
  rw [turn] at path keeps
  exact ⟨Bench.looks_of_path path, keeps⟩

/-- The loop and the timers do nothing to the bench, and a task that begins looks first. -/
structure Listens (p q : Patrol π) : Prop where
  session : q.session = p.session
  told : q.told = p.told
  tasks : (∀ job ∈ p.tasks, job.Keeps Bench.Looks) → ∀ job ∈ q.tasks, job.Keeps Bench.Looks

/-- What may come of an event. -/
inductive Moves (c : Compiler π) (sink : PathChange → Bench π → Bench π) (token : Token)
    (p : Patrol π) : Patrol π → Prop where
  | listens {q : Patrol π} (listens : p.Listens q) : Moves c sink token p q
  | turn {number : Nat} {job rest : Job (Bench π) (Except CompileError (Option PathChange))}
    {b : Bench π} (there : job ∈ p.tasks)
    (turn : (Task.unpaused job).advance p.bench = (rest, b)) :
    Moves c sink token p (p.turned sink token number rest b)
  | beside {q : Patrol π} (upholds : p.bench.Upholds q.bench) (calls : q.session.Permitted c)
    (told : q.told = p.told) (tasks : q.tasks = p.tasks) : Moves c sink token p q

theorem moves_step (sink : PathChange → Bench π → Bench π) (token : Token)
    (obedient : c.store.Obedient) (sound : p.Sound c) (e : Event π) :
    Moves c sink token p (step c sink token p e) := by
  have same (heard : List Path) (listening : Bool) (debounce : Debounce) :
      Moves c sink token p
        { p with heard := heard, listening := listening, debounce := debounce } :=
    .listens ⟨rfl, rfl, id⟩
  cases e with
  | notice path =>
      simp only [step]
      split
      · exact same _ _ _
      · exact same _ _ _
  | receive =>
      simp only [step]
      split
      · exact same _ _ _
      · exact same _ _ _
  | stop =>
      simp only [step]
      split
      · exact same _ _ _
      · exact same _ _ _
  | ring timer =>
      simp only [step]
      split
      · split
        · refine .listens ⟨rfl, rfl, fun looks job there => ?_⟩
          rcases List.mem_append.1 there with before | new
          · exact looks job before
          · rw [List.mem_singleton.1 new]
            exact fun b d => Bench.eventAt_looks obedient _ token d
        · exact same _ _ _
      · exact same _ _ _
  | proceed number =>
      rcases proceed_cases sink token p number with idle | ⟨job, there, rest, b, turn, goes⟩
      · show Moves c sink token p (p.proceed sink token number)
        rw [idle]
        exact same _ _ _
      · show Moves c sink token p (p.proceed sink token number)
        rw [goes]
        exact .turn there turn
  | close =>
      refine .beside (Bench.upholds_of_watchers rfl fun n ended => ?_) sound.calls rfl rfl
      exact ((Clock.cancel_spec _ token).2 n).2 (.inl ended)
  | beside outside =>
      cases outside with
      | elsewhere content own environment =>
          refine .beside (Bench.upholds_of_watchers rfl fun n ended => ?_) sound.calls rfl rfl
          exact List.mem_append_left _ ended
      | ask command =>
          obtain ⟨upholds, calls⟩ := sound.calls.goes (e := .ask command) obedient nofun
          exact .beside upholds calls rfl rfl
      | turn number =>
          obtain ⟨upholds, calls⟩ := sound.calls.goes (e := .turn number) obedient nofun
          exact .beside upholds calls rfl rfl

theorem sound_start {s : Session π} (permitted : s.Permitted c) : (start s).Sound c where
  calls := permitted
  tasks _ there := nomatch there

theorem Sound.step (obedient : c.store.Obedient) (sound : p.Sound c) (e : Event π) :
    (step c sink token p e).Sound c := by
  have moves := moves_step sink token obedient sound e
  generalize Patrol.step c sink token p e = q at moves ⊢
  cases moves with
  | listens listens =>
      refine ⟨?_, listens.tasks sound.tasks⟩
      rw [listens.session]
      exact sound.calls
  | @turn number job rest b there turn =>
      obtain ⟨-, looks⟩ := sound.turn there turn
      obtain ⟨tasks, calls, -⟩ := turned_spec sink token p number rest b
      constructor
      · unfold Session.Permitted
        rw [calls]
        exact sound.calls
      · intro other listed
        rw [tasks] at listed
        rcases List.mem_or_eq_of_mem_set listed with before | rfl
        · exact sound.tasks other before
        · exact looks
  | beside upholds calls told tasks =>
      refine ⟨calls, ?_⟩
      rw [tasks]
      exact sound.tasks

theorem Sound.run (obedient : c.store.Obedient) (sound : p.Sound c) (events : List (Event π)) :
    (run c sink token p events).Sound c := by
  induction events generalizing p with
  | nil => exact sound
  | cons e rest ih => exact ih (sound.step obedient e)

/-! ## The end of a watch -/

/-- After its end a watch tells its sink nothing, and its end is not taken back. -/
theorem Sound.ended_step (sink : PathChange → Bench π → Bench π) (obedient : c.store.Obedient)
    (sound : p.Sound c) (ended : isCancelled token p.bench = true) (e : Event π) :
    isCancelled token (Patrol.step c sink token p e).bench = true ∧
      (Patrol.step c sink token p e).told = p.told := by
  have moves := moves_step sink token obedient sound e
  generalize Patrol.step c sink token p e = q at moves ⊢
  cases moves with
  | listens listens =>
      refine ⟨?_, listens.told⟩
      unfold bench
      rw [listens.session]
      exact ended
  | @turn number job rest b there turn =>
      obtain ⟨looks, -⟩ := sound.turn there turn
      have still : isCancelled token b = true := looks.isCancelled.trans ended
      obtain ⟨-, -, ⟨same, told⟩ | ⟨live, -⟩⟩ := turned_spec sink token p number rest b
      · rw [same]
        exact ⟨still, told⟩
      · exact absurd (still.symm.trans live) nofun
  | beside upholds calls told tasks => exact ⟨Bench.isCancelled_of_kept upholds.kept ended, told⟩

theorem Sound.ended_run (sink : PathChange → Bench π → Bench π) (obedient : c.store.Obedient)
    (sound : p.Sound c) (ended : isCancelled token p.bench = true) (events : List (Event π)) :
    isCancelled token (Patrol.run c sink token p events).bench = true ∧
      (Patrol.run c sink token p events).told = p.told := by
  induction events generalizing p with
  | nil => exact ⟨ended, rfl⟩
  | cons e rest ih =>
      obtain ⟨still, told⟩ := sound.ended_step sink obedient ended e
      obtain ⟨last, later⟩ := ih (sound.step obedient e) still
      exact ⟨last, later.trans told⟩

/-- A turn of a task leaves alone what the compiler remembers, after the end of the watch. -/
theorem Sound.ended_proceed (sound : p.Sound c) (ended : isCancelled token p.bench = true)
    (number : Nat) :
    (p.proceed sink token number).bench.state = p.bench.state := by
  rcases proceed_cases sink token p number with idle | ⟨job, there, rest, b, turn, goes⟩
  · rw [idle]
  · obtain ⟨looks, -⟩ := sound.turn there turn
    have still : isCancelled token b = true := looks.isCancelled.trans ended
    rw [goes]
    obtain ⟨-, -, ⟨same, -⟩ | ⟨live, -⟩⟩ := turned_spec sink token p number rest b
    · rw [same]
      exact looks.state
    · exact absurd (still.symm.trans live) nofun

/-- Telling the compiler of a change takes back no cancellation and ends no watch either. -/
theorem Sound.upholds (token : Token) (obedient : c.store.Obedient) (sound : p.Sound c)
    (e : Event π) :
    p.bench.Upholds (Patrol.step c c.apply token p e).bench := by
  have moves := moves_step c.apply token obedient sound e
  generalize Patrol.step c c.apply token p e = q at moves ⊢
  cases moves with
  | listens listens =>
      unfold bench
      rw [listens.session]
      exact (Bench.Proceeds.refl _).toUpholds
  | @turn number job rest b there turn =>
      obtain ⟨looks, -⟩ := sound.turn there turn
      have first : p.bench.Upholds b := by
        refine Bench.upholds_of_watchers (by rw [looks.state]) fun n ended => ?_
        rwa [show Clocked.clock b = Clocked.clock p.bench from looks.clock]
      obtain ⟨-, -, ⟨same, -⟩ | ⟨-, change, applied, -⟩⟩ :=
        turned_spec c.apply token p number rest b
      · rw [same]
        exact first
      · rw [applied]
        exact first.trans (apply_proceeds change).toUpholds
  | beside upholds calls told tasks => exact upholds

theorem patrols_run (obedient : c.store.Obedient) (sound : p.Sound c)
    (numbered : p.bench.Numbered) (patrols : p.bench.Patrols token) (events : List (Event π)) :
    (Patrol.run c c.apply token p events).bench.Patrols token ∧
      (Patrol.run c c.apply token p events).bench.Numbered := by
  induction events generalizing p with
  | nil => exact ⟨patrols, numbered⟩
  | cons e rest ih =>
      have upholds := sound.upholds token obedient e
      exact ih (sound.step obedient e) (numbered.upheld upholds)
        (patrols.upheld numbered upholds)

/-- The watch has ended in the same event in which it is closed or its compiler is cleared. -/
theorem Ends.cancels (obedient : c.store.Obedient) {s : Session π} {e : Event π}
    (ends : Ends c sink token s e) (permitted : s.Permitted c) (numbered : s.bench.Numbered)
    (events : List (Event π)) :
    isCancelled token
      (Patrol.step c sink token (Patrol.run c sink token (start s) events) e).bench = true := by
  cases ends with
  | close own =>
      apply Bench.isCancelled_of_head own
      intro n head
      exact ((Clock.cancel_spec _ token).2 n).2 (.inr head)
  | @clear w all there own same =>
      subst same
      have first : (start s).bench.Patrols token := .inr ⟨w, there, own⟩
      obtain ⟨patrols, numbered⟩ :=
        patrols_run obedient (sound_start permitted) numbered first events
      let p := Patrol.run c c.apply token (start s) events
      have sound : p.Sound c := (sound_start permitted).run obedient events
      have upholds := sound.upholds token obedient (.beside (.ask (.clear all)))
      rcases patrols.upheld numbered upholds with ended | ⟨w, there, -⟩
      · exact ended
      · -- After a clearing there is no watch left.
        have cleared := Session.watchers_cleared (c := c) p.session all
        change w ∈ (Session.step c p.session (.ask (.clear all))).bench.state.watchers at there
        rw [cleared] at there
        cases there

/-- Once a watch is closed, or its compiler is cleared, its sink is told nothing more, wherever the
loop, the timers and the tasks were and in whatever order they go on with all others. A task that
goes on leaves alone what the compiler remembers. -/
theorem closed_watch_tells_nothing (obedient : c.store.Obedient) {site : Site π}
    {before : List (Session.Event π)} {e : Event π}
    (ends : Ends c sink token (Session.run c (Session.start site) before) e)
    (events later : List (Event π)) :
    let p := Patrol.run c sink token (start (Session.run c (Session.start site) before)) events
    let q := Patrol.run c sink token (Patrol.step c sink token p e) later
    q.told = p.told ∧ ∀ number, (q.proceed sink token number).bench.state = q.bench.state := by
  intro p q
  obtain ⟨permitted, numbered⟩ := Session.permitted_run obedient site before
  have sound : p.Sound c := (sound_start permitted).run obedient events
  have after : (Patrol.step c sink token p e).Sound c := sound.step obedient e
  have ended : isCancelled token (Patrol.step c sink token p e).bench = true :=
    ends.cancels obedient permitted numbered events
  have told : (Patrol.step c sink token p e).told = p.told := by
    cases ends with
    | close own => rfl
    | clear all there own same => rfl
  obtain ⟨still, silent⟩ := after.ended_run sink obedient ended later
  exact ⟨silent.trans told, (after.run obedient later).ended_proceed still⟩

end Patrol

namespace Sample

/-- A session whose only call begins a watch. -/
def guarding : Session Output := .run mirror (.start laidOut) [.ask .watch]

/-- A quiet period passes. -/
def calm : Session.Event Output :=
  .elsewhere ∅ laidOut.own { laidOut.environment with clock := { now := 100, fresh := 2 } }

def patrol (p : Patrol Output) (events : List (Patrol.Event Output)) : Patrol Output :=
  Patrol.run mirror mirror.apply (badge guarding.bench) p events

/-- The watch hears of a file, and its task begins to load it. -/
def loadingFile : List (Patrol.Event Output) :=
  [.notice path, .receive, .beside calm, .ring ⟨path.text, 1, 100⟩, .proceed 0, .proceed 0]

def clearAway : Patrol.Event Output := .beside (.ask (.clear false))

end Sample

open Sample

/-- A task that has loaded a file tells so, but not if the compiler is cleared meanwhile. -/
theorem loading_task_is_silenced :
    let p := patrol (.start guarding) loadingFile
    (patrol p [.proceed 0]).told.length = 1 ∧ (patrol p [clearAway, .proceed 0]).told = [] := by
  intro p
  have loads : (patrol p [.proceed 0]).told.length = 1 ∧ p.told.length = 0 := by decide +kernel
  obtain ⟨tells, untold⟩ := loads
  obtain ⟨w, there, own⟩ :
      ∃ w ∈ guarding.bench.state.watchers, w.token = badge guarding.bench := by
    have watched : guarding.bench.state.watchers.length = 1 := by decide +kernel
    obtain ⟨w, only⟩ := List.length_eq_one_iff.1 watched
    refine ⟨w, by simp [only], ?_⟩
    unfold badge
    rw [only]
    rfl
  have ends : Patrol.Ends mirror mirror.apply (badge guarding.bench)
      (Session.run mirror (.start laidOut) [.ask .watch]) clearAway := .clear false there own rfl
  obtain ⟨silent, -⟩ := Patrol.closed_watch_tells_nothing (Store.files_obedient origin) ends
    loadingFile [.proceed 0]
  exact ⟨tells, silent.trans (List.eq_nil_of_length_eq_zero untold)⟩

end TemplateCache
