import Mathlib.Data.List.Infix
import Mathlib.Data.List.Sort
import TemplateCache.Proofs.Compiler.Settling

/-!
# A watched source file

A watch hears of changes of a file, lets them settle and starts a task for each time that they have.
The tasks are calls of a session: they take turns in any order and each may take any number of
turns, so a task that looked at the file early may apply what it saw late. The registry has what the
task that ended last has seen. If that one began after the last change, the registry has what the
file has.
-/

namespace TemplateCache

open Job Store

/-- A watch over one source file, at work. -/
structure Vigil where
  /-- The tasks are the calls of a session. -/
  session : Session Output
  debounce : Debounce := {}
  /-- The tasks that have ended, in the order in which they did. -/
  ended : List Nat := []

namespace Vigil

inductive Event where
  /-- Someone changes files. -/
  | edit (files : FileTree)
  /-- The watch is told that the file has changed. -/
  | notice
  /-- A timer runs out. -/
  | ring (timer : Timer)
  /-- A task goes on. -/
  | turn (number : Nat)
  /-- Time goes by. -/
  | pass (ms : Nat)

def start (b : Bench Output) : Vigil := { session := ⟨b, []⟩ }

def site (v : Vigil) : Site Output := v.session.bench.site

def registry (v : Vigil) : Registry := v.session.bench.state.registry

/-- What a path of the files leads to. -/
def status (v : Vigil) (path : Path) : Except FileErrorKind Entry :=
  v.site.environment.files.status path

/-- How many tasks have begun. -/
def begun (v : Vigil) : Nat := v.session.calls.length

/-- No timer runs and no task is left. -/
def Quiet (v : Vigil) : Prop :=
  v.debounce.timers = [] ∧ ∀ n < v.begun, (v.session.answer? n).isSome = true

/-- Something happens to the environment. -/
def elsewhere (v : Vigil) (f : Environment → Environment) : Vigil :=
  { v with session := { v.session with bench := { v.session.bench with
    site := { v.site with environment := f v.site.environment } } } }

/-- A task gets a turn, and it is noted if it ends. -/
def proceed (c : Compiler Output) (v : Vigil) (e : Session.Event Output) (number : Nat) : Vigil :=
  let session := v.session.step c e
  { v with
    session := session
    ended := if (session.answer? number).isSome && (v.session.answer? number).isNone
      then v.ended ++ [number] else v.ended }

def step (c : Compiler Output) (path : Path) (token : Token) (v : Vigil) : Event → Vigil
  | .edit files => v.elsewhere fun e => { e with files := files }
  | .notice => { v with debounce := v.debounce.arrive path.text v.site.environment.clock.now }
  | .ring timer =>
    if timer ∈ v.debounce.timers ∧ timer.due ≤ v.site.environment.clock.now then
      let waiting := { v.debounce with timers := v.debounce.timers.erase timer }
      let (settled, debounce) := waiting.ring timer
      let w := { v with debounce := debounce }
      if settled then w.proceed c (.ask (.settle ⟨timer.path⟩ token)) w.begun else w
    else v
  | .turn number => v.proceed c (.turn number) number
  | .pass ms => v.elsewhere fun e => { e with clock := { e.clock with now := e.clock.now + ms } }

def run (c : Compiler Output) (path : Path) (token : Token) (v : Vigil) (events : List Event) :
    Vigil :=
  events.foldl (step c path token) v

theorem run_concat {c : Compiler Output} {path : Path} {token : Token} {v : Vigil}
    {events : List Event} {e : Event} :
    run c path token v (events ++ [e]) = step c path token (run c path token v events) e :=
  List.foldl_concat _ _ _ _

/-- What may come of a timer. -/
inductive Rings (c : Compiler Output) (token : Token) (v : Vigil) (timer : Timer) :
    Vigil → Prop where
  | early : Rings c token v timer v
  | outdated (there : timer ∈ v.debounce.timers)
    (old : v.debounce.generations.get? timer.path ≠ some timer.generation) :
    Rings c token v timer
      { v with debounce := { v.debounce with timers := v.debounce.timers.erase timer } }
  | settles (there : timer ∈ v.debounce.timers)
    (current : v.debounce.generations.get? timer.path = some timer.generation) :
    Rings c token v timer (proceed c
      { v with
        debounce := ⟨v.debounce.generations.erase timer.path, v.debounce.timers.erase timer⟩ }
      (.ask (.settle ⟨timer.path⟩ token)) v.begun)

theorem rings_step (c : Compiler Output) (path : Path) (token : Token) (v : Vigil)
    (timer : Timer) : Rings c token v timer (step c path token v (.ring timer)) := by
  by_cases rings : timer ∈ v.debounce.timers ∧ timer.due ≤ v.site.environment.clock.now
  · by_cases current : v.debounce.generations.get? timer.path = some timer.generation
    · simp only [step, if_pos rings, Debounce.ring, if_pos current]
      exact .settles rings.1 current
    · simp only [step, if_pos rings, Debounce.ring, if_neg current]
      exact .outdated rings.1 current
  · simp only [step, if_neg rings]
    exact .early

/-! ## Tasks -/

section

variable (c : Compiler Output) (s : Sources) (t : FileTree) (path : Path) (token : Token)
  (name key : String) (sure : Prop)

/-- A call is a task that has ended, or one that goes on in its next turn. Where the file is `known`
the tree has what the task will have seen. -/
def Tends (known : Prop) (call : Call Output) : Prop :=
  call.answer?.isSome = true ∨
    ∃ next, call.job = (Job.pause next).bind (c.applied token) ∧
      ∀ u, Bench.Rely s t path token known sure u →
        next.Amid Bench.Observes (Bench.Rely s t path token known sure)
          (fun r _ => Observed known sure path name key (t.readText path) r) u

/-- All tasks are tasks of the file. For those that are `fresh` the file is known, and once one of
these has ended last the registry has what the file has. -/
structure Tended (fresh : Nat → Prop) (v : Vigil) : Prop where
  tasks : ∀ {n call}, v.session.calls[n]? = some call →
    Tends c s t path token name key sure (fresh n) call
  relies : ∀ {n}, fresh n → Files.Rely s t path token sure v.site
  live : isCancelled token v.session.bench = false
  lists : v.registry.Lists name key
  timers : ∀ timer ∈ v.debounce.timers, timer.path = path.text
  noted : ∀ {n}, (v.session.answer? n).isSome = true → n ∈ v.ended
  begun : ∀ {n}, n ∈ v.ended → n < v.begun
  latest : ∀ {n}, v.ended.getLast? = some n → fresh n →
    v.registry.Reflects path key (t.readText path) sure

end

variable {c : Compiler Output} {s : Sources} {t : FileTree} {path : Path} {token : Token}
  {name key : String} {sure : Prop} {fresh : Nat → Prop} {v : Vigil}

/-- One call has had its turn: it has ended and settled the path, or it goes on later. -/
theorem Tended.advance (tended : v.Tended c s t path token name key sure fresh) {number : Nat}
    {calls : List (Call Output)} {call : Call Output} {d : Bench Output}
    (there : calls[number]? = some call)
    (others : ∀ n, n ≠ number → calls[n]? = v.session.calls[n]?)
    (grows : v.begun ≤ calls.length)
    (file : ∀ n, fresh n → d.site.environment.files.status path = v.status path)
    (pending : v.session.answer? number = none)
    (outcome : (call.answer?.isSome = true ∧
        Compiler.Settled (fresh number) sure path name key (t.readText path) v.session.bench d) ∨
      (call.answer? = none ∧ Tends c s t path token name key sure (fresh number) call ∧
        v.session.bench.Observes d)) :
    Tended c s t path token name key sure fresh { v with
      session := ⟨d, calls⟩
      ended := if (Session.answer? ⟨d, calls⟩ number).isSome && (v.session.answer? number).isNone
        then v.ended ++ [number] else v.ended } := by
  have advances : Files.Advances v.site d.site := by
    rcases outcome with ⟨-, settled⟩ | ⟨-, -, observes⟩
    · exact settled.site
    · exact observes.site
  have inside : number < calls.length := by
    obtain ⟨before, -⟩ := List.getElem?_eq_some_iff.1 there
    exact before
  have own : Session.answer? ⟨d, calls⟩ number = call.answer? := by
    unfold Session.answer?
    rw [there]
    rfl
  have same {n : Nat} (other : n ≠ number) :
      Session.answer? ⟨d, calls⟩ n = v.session.answer? n := by
    unfold Session.answer?
    rw [others n other]
  constructor
  · intro n call' there'
    by_cases here : n = number
    · subst here
      cases there.symm.trans there'
      rcases outcome with ⟨answered, -⟩ | ⟨-, tends, -⟩
      · exact .inl answered
      · exact tends
    · rw [others n here] at there'
      exact tended.tasks there'
  · intro n is
    obtain ⟨before, live, ready⟩ := tended.relies is
    constructor
    · exact (file n is).trans before
    · unfold isCancelled at live ⊢
      show d.site.environment.clock.isCancelled token = false
      rw [advances.clock]
      exact live
    · intro certain
      exact (ready certain).advances advances
  · have live := tended.live
    unfold isCancelled at live ⊢
    show d.site.environment.clock.isCancelled token = false
    rw [advances.clock]
    exact live
  · rcases outcome with ⟨-, settled⟩ | ⟨-, -, observes⟩
    · exact settled.lists
    · show d.state.registry.Lists name key
      rw [observes.state]
      exact tended.lists
  · exact tended.timers
  · intro n answered
    rw [own, pending]
    by_cases here : n = number
    · subst here
      change (Session.answer? ⟨d, calls⟩ n).isSome = true at answered
      rw [own] at answered
      simp [answered]
    · change (Session.answer? ⟨d, calls⟩ n).isSome = true at answered
      rw [same here] at answered
      have before := tended.noted answered
      split
      · exact List.mem_append_left _ before
      · exact before
  · intro n there'
    show n < calls.length
    dsimp only at there'
    split at there'
    · rcases List.mem_append.1 there' with before | here
      · exact Nat.lt_of_lt_of_le (tended.begun before) grows
      · rw [List.mem_singleton.1 here]
        exact inside
    · exact Nat.lt_of_lt_of_le (tended.begun there') grows
  · intro n last is
    dsimp only at last
    rw [own, pending] at last
    rcases outcome with ⟨answered, settled⟩ | ⟨unanswered, -, observes⟩
    · rw [answered] at last
      have here : number = n := by simpa using last
      subst here
      exact settled.reflects is
    · rw [unanswered] at last
      show d.state.registry.Reflects path key (t.readText path) sure
      rw [observes.state]
      exact tended.latest last is

/-- What a stretch of a task makes of its call. -/
theorem tends_stretch (tended : v.Tended c s t path token name key sure fresh) {number : Nat}
    {work : Job (Bench Output) (Except CompileError (Option PathChange))} (command : Command)
    (sees : work.Amid Bench.Observes (Bench.Rely s t path token (fresh number) sure)
      (fun r _ => Observed (fresh number) sure path name key (t.readText path) r)
      v.session.bench) :
    ∃ job d, (work.bind (c.applied token)).advance v.session.bench = (job, d) ∧
      ((Call.answer? ⟨command, job⟩).isSome = true ∧
          Compiler.Settled (fresh number) sure path name key (t.readText path) v.session.bench d ∨
        (Call.answer? ⟨command, job⟩ = none ∧
          Tends c s t path token name key sure (fresh number) ⟨command, job⟩ ∧
          v.session.bench.Observes d)) := by
  rcases Compiler.settle_stretch tended.live tended.lists sees with
    ⟨x, d, ends, settled⟩ | ⟨next, d, stops, observes, later⟩
  · exact ⟨_, d, ends, .inl ⟨rfl, settled⟩⟩
  · exact ⟨_, d, stops, .inr ⟨rfl, .inr ⟨next, rfl, later⟩, observes⟩⟩

theorem Tended.turn (tended : v.Tended c s t path token name key sure fresh) (number : Nat)
    (file : ∀ n, fresh n → (step c path token v (.turn number)).status path = v.status path) :
    (step c path token v (.turn number)).Tended c s t path token name key sure fresh := by
  have stays (same : v.session.step c (.turn number) = v.session) :
      step c path token v (.turn number) = v := by
    have idle :
        ((v.session.answer? number).isSome && (v.session.answer? number).isNone) = false := by
      cases v.session.answer? number <;> rfl
    show v.proceed c (.turn number) number = v
    unfold proceed
    dsimp only
    rw [same, idle]
    rfl
  cases there : v.session.calls[number]? with
  | none =>
      rw [stays (by simp only [Session.step, there])]
      exact tended
  | some call =>
      rcases tended.tasks there with answered | ⟨next, job, later⟩
      · obtain ⟨command, job⟩ := call
        cases job with
        | done answer =>
            rw [stays]
            · exact tended
            · obtain ⟨before, same⟩ := List.getElem?_eq_some_iff.1 there
              simp only [Session.step, there]
              show (⟨v.session.bench, v.session.calls.set number ⟨command, .done answer⟩⟩ :
                Session Output) = v.session
              rw [← same, List.set_getElem_self]
        | act update next => cases answered
        | wait event next => cases answered
        | pause next => cases answered
      · obtain ⟨before, -⟩ := List.getElem?_eq_some_iff.1 there
        obtain ⟨job', d, advances, outcome⟩ := tends_stretch tended call.command
          (later v.session.bench fun is => tended.relies is)
        have steps : v.session.step c (.turn number) =
            ⟨d, v.session.calls.set number ⟨call.command, job'⟩⟩ := by
          have goes : Task.unpaused call.job = next.bind (c.applied token) := by
            rw [job]
            rfl
          simp only [Session.step, there, goes, advances]
        have proceeds : step c path token v (.turn number) = { v with
            session := ⟨d, v.session.calls.set number ⟨call.command, job'⟩⟩
            ended := if (Session.answer? ⟨d, v.session.calls.set number ⟨call.command, job'⟩⟩
                number).isSome && (v.session.answer? number).isNone
              then v.ended ++ [number] else v.ended } := by
          show v.proceed c (.turn number) number = _
          unfold proceed
          rw [steps]
        rw [proceeds] at file ⊢
        apply tended.advance (List.getElem?_set_self before)
        · intro n other
          exact List.getElem?_set_ne other.symm
        · exact Nat.le_of_eq List.length_set.symm
        · exact file
        · unfold Session.answer?
          rw [there]
          show call.answer? = none
          unfold Call.answer?
          rw [job]
          rfl
        · exact outcome

section

variable (store : c.store = .files s) (named : s.nameOf path = some name)
  (keyed : s.keyOf name path = .ok key) (unlimited : sure → token.timeout = none)
  (noDir : ∀ n, fresh n → t.isDir path = false)

include store named keyed unlimited noDir

/-- A new task looks at the file from its first stretch on. -/
theorem Tended.ask (tended : v.Tended c s t path token name key sure fresh)
    (file : ∀ n, fresh n →
      (v.proceed c (.ask (.settle path token)) v.begun).status path = v.status path) :
    (v.proceed c (.ask (.settle path token)) v.begun).Tended c s t path token name key sure
      fresh := by
  have sees := amid_eventAt (c := c) (b := v.session.bench) store named keyed unlimited
    (noDir v.begun) fun is => tended.relies is
  obtain ⟨job, d, advances, outcome⟩ := tends_stretch tended (.settle path token) sees
  have steps : v.session.step c (.ask (.settle path token)) =
      ⟨d, v.session.calls ++ [⟨.settle path token, job⟩]⟩ := by
    have begins : ((Command.settle path token).work c).run.advance v.session.bench = (job, d) := by
      rw [Compiler.settle_job]
      show (if isCancelled token v.session.bench = true then _ else _ : Job _ _).advance _ = _
      rw [tended.live]
      exact advances
    simp only [Session.step, begins]
  have proceeds : v.proceed c (.ask (.settle path token)) v.begun = { v with
      session := ⟨d, v.session.calls ++ [⟨.settle path token, job⟩]⟩
      ended := if (Session.answer? ⟨d, v.session.calls ++ [⟨.settle path token, job⟩]⟩
          v.begun).isSome && (v.session.answer? v.begun).isNone
        then v.ended ++ [v.begun] else v.ended } := by
    unfold proceed
    rw [steps]
  rw [proceeds] at file ⊢
  apply tended.advance List.getElem?_concat_length
  · intro n other
    rcases Nat.lt_or_ge n v.begun with before | beyond
    · exact List.getElem?_append_left before
    · have later : v.begun + 1 ≤ n := Nat.lt_of_le_of_ne beyond other.symm
      rw [List.getElem?_eq_none beyond, List.getElem?_eq_none]
      rw [List.length_append]
      exact later
  · rw [List.length_append]
    exact Nat.le_add_right _ _
  · exact file
  · unfold Session.answer?
    rw [List.getElem?_eq_none (Nat.le_refl _)]
    rfl
  · exact outcome

/-- Whatever happens, the tasks stay tended, as long as the file of the fresh ones stays. -/
theorem Tended.step (tended : v.Tended c s t path token name key sure fresh) (e : Event)
    (file : ∀ n, fresh n → (step c path token v e).status path = v.status path) :
    (Vigil.step c path token v e).Tended c s t path token name key sure fresh := by
  have elsewhere (f : Environment → Environment)
      (kept : ∀ n, fresh n → (v.elsewhere f).status path = v.status path)
      (clock : (f v.site.environment).clock.cancelled = v.site.environment.clock.cancelled) :
      (v.elsewhere f).Tended c s t path token name key sure fresh := by
    have live {b : Bool} (before : isCancelled token v.session.bench = b) :
        isCancelled token (v.elsewhere f).session.bench = b := by
      unfold isCancelled Clock.isCancelled at before ⊢
      show token.lineage.any (f v.site.environment).clock.cancelled.contains = b
      rw [clock]
      exact before
    constructor
    · exact tended.tasks
    · intro n is
      obtain ⟨before, lasts, ready⟩ := tended.relies is
      exact ⟨(kept n is).trans before, live lasts, ready⟩
    · exact live tended.live
    · exact tended.lists
    · exact tended.timers
    · exact tended.noted
    · exact tended.begun
    · exact tended.latest
  have debounced {debounce : Debounce} (timers : ∀ x ∈ debounce.timers, x.path = path.text) :
      { v with debounce := debounce }.Tended c s t path token name key sure fresh :=
    ⟨tended.tasks, tended.relies, tended.live, tended.lists, timers, tended.noted, tended.begun,
      tended.latest⟩
  cases e with
  | edit files => exact elsewhere _ file rfl
  | pass ms => exact elsewhere _ file rfl
  | turn number => exact tended.turn number file
  | notice =>
      apply debounced
      intro x there
      rcases List.mem_append.1 there with before | new
      · exact tended.timers x before
      · rw [List.mem_singleton.1 new]
  | ring timer =>
      have rest (x : Timer) (there : x ∈ v.debounce.timers.erase timer) : x.path = path.text :=
        tended.timers x (List.mem_of_mem_erase there)
      have rings := rings_step c path token v timer
      generalize Vigil.step c path token v (.ring timer) = w at file rings ⊢
      cases rings with
      | early => exact tended
      | outdated there old => exact debounced rest
      | settles there current =>
          have own : (⟨timer.path⟩ : Path) = path := by rw [tended.timers timer there]
          rw [own] at file ⊢
          have waiting : Tended c s t path token name key sure fresh { v with
              debounce := ⟨v.debounce.generations.erase timer.path,
                v.debounce.timers.erase timer⟩ } := debounced rest
          exact waiting.ask store named keyed unlimited noDir file

theorem Tended.run (tended : v.Tended c s t path token name key sure fresh) {events : List Event}
    (file : ∀ n, fresh n → ∀ part, part <+: events →
      (run c path token v part).status path = v.status path) :
    (Vigil.run c path token v events).Tended c s t path token name key sure fresh := by
  induction events using List.reverseRecOn with
  | nil => exact tended
  | append_singleton before e ih =>
      have kept :
          (Vigil.run c path token v before).Tended c s t path token name key sure fresh := by
        apply ih
        intro n is part first
        exact file n is part (first.trans (List.prefix_append before [e]))
      rw [run_concat]
      apply kept.step store named keyed unlimited noDir e
      intro n is
      rw [← run_concat, file n is _ (List.prefix_refl _),
        file n is _ (List.prefix_append before [e])]

end

/-! ## Tasks that begin -/

/-- Since there were `number` tasks, one more has begun or a timer runs that will begin one. -/
def Stirred (path : Path) (number : Nat) (v : Vigil) : Prop :=
  number < v.begun ∨ number ≤ v.begun ∧ ∃ timer ∈ v.debounce.timers, timer.path = path.text ∧
    v.debounce.generations.get? path.text = some timer.generation

variable {number : Nat}

theorem begun_proceed (e : Session.Event Output) (number : Nat) :
    v.begun ≤ (v.proceed c e number).begun := Session.calls_step e

theorem begun_step (e : Event) : v.begun ≤ (step c path token v e).begun := by
  cases e with
  | edit files => exact Nat.le_refl _
  | notice => exact Nat.le_refl _
  | turn number => exact begun_proceed _ _
  | pass ms => exact Nat.le_refl _
  | ring timer =>
      have rings := rings_step c path token v timer
      generalize step c path token v (.ring timer) = w at rings ⊢
      cases rings with
      | early => exact Nat.le_refl _
      | outdated there old => exact Nat.le_refl _
      | settles there current => exact Session.calls_step _

theorem stirred_notice (later : number ≤ v.begun) :
    (step c path token v .notice).Stirred path number := by
  refine .inr ⟨later, _, List.mem_append_right _ (List.mem_singleton_self _), rfl, ?_⟩
  exact (KeyMap.get?_insert _ _ _ _).trans (if_pos rfl)

theorem Stirred.step (stirred : v.Stirred path number) (e : Event) :
    (Vigil.step c path token v e).Stirred path number := by
  rcases stirred with more | ⟨later, waits⟩
  · exact .inl (Nat.lt_of_lt_of_le more (begun_step e))
  cases e with
  | edit files => exact .inr ⟨later, waits⟩
  | notice => exact stirred_notice later
  | pass ms => exact .inr ⟨later, waits⟩
  | turn other => exact .inr ⟨Nat.le_trans later (begun_proceed _ _), waits⟩
  | ring timer =>
      have rings := rings_step c path token v timer
      generalize Vigil.step c path token v (.ring timer) = w at rings ⊢
      cases rings with
      | early => exact .inr ⟨later, waits⟩
      | settles there current =>
          left
          show number < (v.session.calls ++ [_]).length
          rw [List.length_append]
          exact Nat.lt_succ_of_le later
      | outdated there old =>
          obtain ⟨x, waiting, own, current⟩ := waits
          have other : x ≠ timer := by
            rintro rfl
            apply old
            rw [own]
            exact current
          exact .inr ⟨later, x, (List.mem_erase_of_ne other).2 waiting, own, current⟩

theorem Stirred.run (stirred : v.Stirred path number) (events : List Event) :
    (Vigil.run c path token v events).Stirred path number := by
  induction events generalizing v with
  | nil => exact stirred
  | cons e rest ih => exact ih (stirred.step e)

/-- From a change of the file on, the tasks that begin are fresh. -/
theorem Tended.changed (tended : v.Tended c s t path token name key sure fun _ => False)
    (file : v.status path = t.status path) (ready : sure → Files.Ready s path v.site) :
    v.Tended c s t path token name key sure (v.begun ≤ ·) where
  tasks {n call} there := by
    have before : n < v.begun := by
      obtain ⟨before, -⟩ := List.getElem?_eq_some_iff.1 there
      exact before
    rw [eq_false (Nat.not_le_of_lt before)]
    exact tended.tasks there
  relies _ := ⟨file, tended.live, ready⟩
  live := tended.live
  lists := tended.lists
  timers := tended.timers
  noted := tended.noted
  begun := tended.begun
  latest {n} last is := by
    have listed : n ∈ v.ended := List.mem_of_getLast? last
    exact absurd (tended.begun listed) (Nat.not_lt_of_le is)

end Vigil

namespace Sample

/-- A source tree with one file, laid out in the output tree. -/
def laid (text : String) : FileTree :=
  { entries := .ofPairs [("/in", .directory), ("/in/partials", .directory),
      ("/in/partials/a.html", .file text.toUTF8.toList), ("/out", .directory),
      ("/out/partials", .directory)] }

def laidOut : Site Output :=
  { own := { dir := some ⟨"/out"⟩, made := [⟨"/out/partials"⟩] }
    environment := { files := laid "old" } }

/-- The bench once a watch has begun. -/
def watching (c : Compiler Output) (site : Site Output) : Bench Output :=
  let b := Compiler.start site
  (((Command.work c .watch).run.finish b).map (·.2)).getD b

/-- The token of the watch. -/
def badge (b : Bench Output) : Token := (b.state.watchers.head?.map (·.token)).getD default

def watched (c : Compiler Output) (site : Site Output) (events : List Vigil.Event) : Vigil :=
  Vigil.run c path (badge (watching c site)) (Vigil.start (watching c site)) events

end Sample

open Sample

end TemplateCache
