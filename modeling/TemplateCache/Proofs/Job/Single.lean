import TemplateCache.Proofs.Job.Alone
import TemplateCache.Proofs.Job.Stretch

/-!
# Jobs step by step

`Job.once` takes a single step of a job, so others may work between any two of its steps and not
only where it waits. `Anytime` is what a job ensures even then: what it has seen in one step need
not hold any more in the next one.
-/

namespace TemplateCache.Job

variable {σ τ α β ε : Type}

/-- A single step: an update, or going on after a wait that is over. -/
def once [Clocked σ] : Job σ α → σ → Job σ α × σ
  | done a, s => (done a, s)
  | act update next, s => (next s, update s)
  | wait event next, s => if event.isOver s then (next, s) else (wait event next, s)
  | pause next, s => (next, s)

/-- Single steps that a job takes alone. -/
def onceEach [Clocked σ] : Nat → Job σ α → σ → Job σ α × σ
  | 0, job, s => (job, s)
  | n + 1, job, s => onceEach n (job.once s).1 (job.once s).2

/-- Every update of a job is a change of the state that it finds, and its value is good, whatever
the state has become before each step. -/
def Anytime (change : σ → σ → Prop) (good : α → Prop) : Job σ α → Prop
  | done a => good a
  | act update next => ∀ s, change s (update s) ∧ (next s).Anytime change good
  | wait _ next => next.Anytime change good
  | pause next => next.Anytime change good

section

variable [Clocked σ] {change : σ → σ → Prop} {good : α → Prop} {job : Job σ α}

theorem once_bind (f : α → Job σ β) (isOpen : job.Open) (s : σ) :
    (job.bind f).once s = ((job.once s).1.bind f, (job.once s).2) := by
  cases job with
  | done x => exact absurd rfl (isOpen x)
  | act update next => rfl
  | pause next => rfl
  | wait event next =>
      by_cases due : event.isOver s = true
      · have first : (wait event next).once s = (next, s) := if_pos due
        rw [first]
        exact if_pos due
      · have first : (wait event next).once s = (wait event next, s) := if_neg due
        rw [first]
        exact if_neg due

/-- A stretch is a number of single steps. -/
theorem advance_onceEach (job : Job σ α) (s : σ) : ∃ n, onceEach n job s = job.advance s := by
  induction job generalizing s with
  | done x => exact ⟨0, rfl⟩
  | act update next ih =>
      obtain ⟨n, rest⟩ := ih s (update s)
      exact ⟨n + 1, rest⟩
  | wait event next ih =>
      by_cases due : event.isOver s = true
      · obtain ⟨n, rest⟩ := ih s
        refine ⟨n + 1, ?_⟩
        have first : (wait event next).once s = (next, s) := if_pos due
        have all : (wait event next).advance s = next.advance s := if_pos due
        rw [all, ← rest]
        show onceEach n ((wait event next).once s).1 ((wait event next).once s).2 = _
        rw [first]
      · exact ⟨0, (if_neg due).symm⟩
  | pause next ih => exact ⟨0, rfl⟩

/-- A turn of a job, which may have paused, is a number of single steps too. -/
theorem turn_onceEach (job : Job σ α) (s : σ) :
    ∃ n, onceEach n job s = (Task.unpaused job).advance s := by
  cases job with
  | pause next =>
      obtain ⟨n, rest⟩ := advance_onceEach next s
      exact ⟨n + 1, rest⟩
  | done x => exact advance_onceEach _ s
  | act update next => exact advance_onceEach _ s
  | wait event next => exact advance_onceEach _ s

theorem Anytime.once (h : job.Anytime change good) (same : ∀ s, change s s) (s : σ) :
    change s (job.once s).2 ∧ (job.once s).1.Anytime change good := by
  cases job with
  | done x => exact ⟨same s, h⟩
  | act update next => exact h s
  | pause next => exact ⟨same s, h⟩
  | wait event next =>
      by_cases due : event.isOver s = true
      · have passes : (wait event next).once s = (next, s) := if_pos due
        rw [passes]
        exact ⟨same s, h⟩
      · have stays : (wait event next).once s = (wait event next, s) := if_neg due
        rw [stays]
        exact ⟨same s, h⟩

end

section

variable {change : σ → σ → Prop} {good : α → Prop} {good' : β → Prop} {job : Job σ α}

theorem Anytime.mono {weaker : α → Prop} (imp : ∀ {x}, good x → weaker x)
    (h : job.Anytime change good) : job.Anytime change weaker := by
  induction job with
  | done x => exact imp h
  | act update next ih => exact fun s => ⟨(h s).1, ih s (h s).2⟩
  | wait event next ih => exact ih h
  | pause next ih => exact ih h

theorem Anytime.bind {f : α → Job σ β} (h : job.Anytime change good)
    (hf : ∀ x, good x → (f x).Anytime change good') : (job.bind f).Anytime change good' := by
  induction job with
  | done x => exact hf x h
  | act update next ih => exact fun s => ⟨(h s).1, ih s (h s).2⟩
  | wait event next ih => exact ih h
  | pause next ih => exact ih h

theorem Anytime.bindExcept {good : Except ε α → Prop} {good' : Except ε β → Prop}
    {x : ExceptT ε (Job σ) α} {f : α → ExceptT ε (Job σ) β} (h : x.run.Anytime change good)
    (hf : ∀ v, good (.ok v) → (f v).run.Anytime change good')
    (failed : ∀ e, good (.error e) → good' (.error e)) :
    (x >>= f).run.Anytime change good' := by
  refine Anytime.bind (f := ExceptT.bindCont f) h fun r fine => ?_
  cases r with
  | ok v => exact hf v fine
  | error e => exact failed e fine

theorem anytime_lift {good : Except ε α → Prop} (h : job.Anytime change fun v => good (.ok v)) :
    (ExceptT.lift job : ExceptT ε (Job σ) α).run.Anytime change good :=
  Anytime.bind (f := fun v => Job.done (.ok v : Except ε α)) h fun _ fine => fine

/-- An operation on a part of the state, of which only the value matters. -/
theorem Under.anytime_on {part : Part σ τ} {change : τ → τ → Prop}
    (works : ∀ s t, change t (part.set s t)) (h : job.Under (fun _ => True) good) :
    (job.on part).Anytime change good := by
  induction job with
  | done x => exact h
  | act update next ih =>
      intro t
      obtain ⟨-, rest⟩ := h (part.get t) trivial
      exact ⟨works _ t, ih (part.get t) rest⟩
  | wait event next ih => exact ih h
  | pause next ih => exact ih h

end

end TemplateCache.Job
