import TemplateCache.Proofs.Job.Plan

/-!
# Stretches of sequences

A sequence of jobs stretches as far as its first part does, and goes on where that ends. `Leaves`
says what may be left of a job between its stretches, whatever others do meanwhile.
-/

namespace TemplateCache.Job

variable {σ α β γ : Type}

theorem bind_assoc (job : Job σ α) (f : α → Job σ β) (g : β → Job σ γ) :
    (job.bind f).bind g = job.bind fun x => (f x).bind g := by
  induction job with
  | done x => rfl
  | act update next ih => exact congrArg (Job.act update) (funext ih)
  | wait event next ih => exact congrArg (Job.wait event) ih
  | pause next ih => exact congrArg Job.pause ih

/-- The same with failures. -/
theorem bindExcept_assoc {ε : Type} (x : ExceptT ε (Job σ) α) (f : α → ExceptT ε (Job σ) β)
    (g : β → ExceptT ε (Job σ) γ) : x >>= f >>= g = x >>= fun v => f v >>= g := by
  refine (bind_assoc x.run (ExceptT.bindCont f) (ExceptT.bindCont g)).trans ?_
  refine congrArg (Job.bind x.run) (funext fun r => ?_)
  cases r with
  | ok v => rfl
  | error e => rfl

/-- It has not ended. -/
def Open (job : Job σ α) : Prop := ∀ x, job ≠ .done x

theorem unpaused_bind {job : Job σ α} (f : α → Job σ β) (isOpen : job.Open) :
    Task.unpaused (job.bind f) = (Task.unpaused job).bind f := by
  cases job with
  | done x => exact absurd rfl (isOpen x)
  | act update next => rfl
  | wait event next => rfl
  | pause next => rfl

theorem open_bind {job : Job σ α} (f : α → Job σ β) (isOpen : job.Open) : (job.bind f).Open := by
  cases job with
  | done x => exact absurd rfl (isOpen x)
  | act update next => exact fun _ => nofun
  | wait event next => exact fun _ => nofun
  | pause next => exact fun _ => nofun

variable [Clocked σ]

theorem advance_bind (job : Job σ α) (f : α → Job σ β) (s : σ) :
    (∃ x t, job.advance s = (.done x, t) ∧ (job.bind f).advance s = (f x).advance t) ∨
      ∃ rest t, job.advance s = (rest, t) ∧ rest.Open ∧
        (job.bind f).advance s = (rest.bind f, t) := by
  induction job generalizing s with
  | done x => exact .inl ⟨x, s, rfl, rfl⟩
  | act update next ih => exact ih s (update s)
  | wait event next ih =>
      by_cases due : event.isOver s = true
      · have first : (wait event next).advance s = next.advance s := if_pos due
        have both : ((wait event next).bind f).advance s = (next.bind f).advance s := if_pos due
        rw [first, both]
        exact ih s
      · exact .inr ⟨wait event next, s, if_neg due, fun _ => nofun, if_neg due⟩
  | pause next ih => exact .inr ⟨pause next, s, rfl, fun _ => nofun, rfl⟩

/-- What may be left of a job after some stretches, whatever others do between them. -/
inductive Leaves (job : Job σ α) : Job σ α → Prop where
  | once (s : σ) : Leaves job (job.advance s).1
  | again {rest : Job σ α} (before : Leaves job rest) (s : σ) :
      Leaves job ((Task.unpaused rest).advance s).1

theorem Leaves.keeps {job rest : Job σ α} {change : σ → σ → Prop} (leaves : job.Leaves rest)
    (keeps : job.Keeps change) : rest.Keeps change := by
  induction leaves with
  | once s => exact (keeps s).advance.2
  | again _ s ih => exact (ih.unpaused s).advance.2

end TemplateCache.Job
