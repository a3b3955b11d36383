import TemplateCache.Proofs.Compiler.Trace
import TemplateCache.Proofs.Job.Single

/-!
# Sessions in single steps

In a `Paced` session others may work between any two steps of a call and not only where it waits, as
they may between the parts of the program that hold a lock. Stretches are a number of steps each, so
these sessions include all others.
-/

namespace TemplateCache

open Job

variable {π : Type}

/-- A session whose calls take single steps, and how many steps each of them has taken. -/
structure Paced (π : Type) extends Session π where
  taken : Nat → Nat := fun _ => 0

namespace Paced

/-- A call that is made only takes its place, and in its turn it takes a single step. -/
def tick (c : Compiler π) (s : Paced π) : Session.Event π → Paced π
  | .ask command => { s with calls := s.calls ++ [⟨command, (command.work c).run⟩] }
  | .turn number =>
    match s.calls[number]? with
    | none => s
    | some call =>
      let (job, bench) := call.job.once s.bench
      ⟨⟨bench, s.calls.set number { call with job := job }⟩,
        Function.update s.taken number (s.taken number + 1)⟩
  | .elsewhere content own environment =>
    { s with toSession := Session.step c s.toSession (.elsewhere content own environment) }

def run (c : Compiler π) (s : Paced π) (events : List (Session.Event π)) : Paced π :=
  events.foldl (tick c) s

/-- The events of a run have a property, each in the session in which it happens. -/
def Along (c : Compiler π) (p : Paced π → Session.Event π → Prop) :
    Paced π → List (Session.Event π) → Prop
  | _, [] => True
  | s, e :: rest => p s e ∧ Along c p (tick c s e) rest

variable {c : Compiler π} {s : Paced π}

theorem tick_turn {j : Nat} {call : Call π} (there : s.calls[j]? = some call) :
    tick c s (.turn j) = ⟨⟨(call.job.once s.bench).2,
      s.calls.set j { call with job := (call.job.once s.bench).1 }⟩,
      Function.update s.taken j (s.taken j + 1)⟩ := by
  simp only [tick, there]

theorem run_turns (n : Nat) {j : Nat} {call : Call π} (there : s.calls[j]? = some call) :
    (run c s (List.replicate n (.turn j))).toSession = ⟨(onceEach n call.job s.bench).2,
      s.calls.set j { call with job := (onceEach n call.job s.bench).1 }⟩ := by
  induction n generalizing s call with
  | zero =>
      obtain ⟨bound, here⟩ := List.getElem?_eq_some_iff.1 there
      have same : s.calls.set j call = s.calls := by
        rw [← here]
        exact List.set_getElem_self bound
      show s.toSession = ⟨s.bench, s.calls.set j call⟩
      rw [same]
  | succ n ih =>
      obtain ⟨bound, -⟩ := List.getElem?_eq_some_iff.1 there
      show (run c (tick c s (.turn j)) (List.replicate n (.turn j))).toSession = _
      rw [tick_turn there, ih (List.getElem?_set_self bound), List.set_set]
      rfl

/-- A stretch of a call is a number of its steps. -/
theorem step_is_ticked (c : Compiler π) (s : Paced π) (e : Session.Event π) :
    ∃ events, (run c s events).toSession = Session.step c s.toSession e := by
  cases e with
  | elsewhere content own environment => exact ⟨[.elsewhere content own environment], rfl⟩
  | ask command =>
      obtain ⟨n, stretch⟩ := advance_onceEach (command.work c).run s.bench
      have here : (tick c s (.ask command)).calls[s.calls.length]? =
          some ⟨command, (command.work c).run⟩ := List.getElem?_concat_length
      refine ⟨.ask command :: List.replicate n (.turn s.calls.length), ?_⟩
      show (run c (tick c s (.ask command)) (List.replicate n _)).toSession = _
      rw [run_turns n here]
      show (⟨(onceEach n (command.work c).run s.bench).2, (s.calls ++ [_]).set _
        ⟨command, (onceEach n (command.work c).run s.bench).1⟩⟩ : Session π) = _
      rw [stretch]
      simp [Session.step]
  | turn j =>
      cases there : s.calls[j]? with
      | none =>
          refine ⟨[], ?_⟩
          simp only [run, Session.step, there, List.foldl_nil]
      | some call =>
          obtain ⟨n, stretch⟩ := turn_onceEach call.job s.bench
          refine ⟨List.replicate n (.turn j), ?_⟩
          rw [run_turns n there, stretch]
          simp only [Session.step, there]

/-- Whatever holds of all interleavings of steps, holds of those of stretches. -/
theorem run_is_ticked (c : Compiler π) (s : Paced π) (events : List (Session.Event π)) :
    ∃ finer, (run c s finer).toSession = Session.run c s.toSession events := by
  induction events generalizing s with
  | nil => exact ⟨[], rfl⟩
  | cons e rest ih =>
      obtain ⟨first, stretch⟩ := step_is_ticked c s e
      obtain ⟨later, runs⟩ := ih (run c s first)
      refine ⟨first ++ later, ?_⟩
      show (List.foldl (tick c) s (first ++ later)).toSession = _
      rw [List.foldl_append]
      rw [stretch] at runs
      exact runs

end Paced

end TemplateCache
