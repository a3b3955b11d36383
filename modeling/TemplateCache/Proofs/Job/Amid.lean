import Mathlib.Logic.Relation
import TemplateCache.Proofs.Job.Stretch

/-!
# Jobs among others

`Amid` is the contract of a job that waits for nothing but its turn, while others keep an invariant:
whenever it gets its turn the invariant holds, each of its steps is a `change`, and what it returns
in the end is as stated. What the job does itself is followed step by step, so its own steps need
not keep the invariant.
-/

namespace TemplateCache.Job

variable {σ τ α β ε : Type}

/-- Where others keep an invariant between its turns, a job makes changes only, and it ends with a
value and a state that are `ok`. -/
def Amid (change : σ → σ → Prop) (inv : σ → Prop) (ok : α → σ → Prop) : Job σ α → σ → Prop
  | .done x, s => ok x s
  | .act update next, s => change s (update s) ∧ (next s).Amid change inv ok (update s)
  | .wait _ _, _ => False
  | .pause next, _ => ∀ t, inv t → next.Amid change inv ok t

section

variable {change : σ → σ → Prop} {inv : σ → Prop} {ok : α → σ → Prop} {job : Job σ α} {s : σ}

theorem Amid.mono {ok' : α → σ → Prop} (imp : ∀ {x t}, ok x t → ok' x t)
    (h : job.Amid change inv ok s) : job.Amid change inv ok' s := by
  induction job generalizing s with
  | done x => exact imp h
  | act update next ih => exact ⟨h.1, ih s h.2⟩
  | wait event next => exact h.elim
  | pause next ih =>
      intro t holds
      exact ih (h t holds)

theorem Amid.bind {ok : β → σ → Prop} {f : α → Job σ β}
    (h : job.Amid change inv (fun x t => (f x).Amid change inv ok t) s) :
    (job.bind f).Amid change inv ok s := by
  induction job generalizing s with
  | done x => exact h
  | act update next ih => exact ⟨h.1, ih s h.2⟩
  | wait event next => exact h.elim
  | pause next ih =>
      intro t holds
      exact ih (h t holds)

theorem amid_lift {ok : Except ε α → σ → Prop}
    (h : job.Amid change inv (fun x t => ok (.ok x) t) s) :
    (ExceptT.lift job : ExceptT ε (Job σ) α).run.Amid change inv ok s :=
  Amid.bind (f := fun x => Job.done (.ok x : Except ε α)) h

/-- With failures, each part of an operation is judged on its own too. -/
theorem Amid.bindExcept {x : ExceptT ε (Job σ) α} {f : α → ExceptT ε (Job σ) β}
    {ok : Except ε β → σ → Prop}
    (h : x.run.Amid change inv (fun r t =>
      match r with
      | .ok v => (f v).run.Amid change inv ok t
      | .error e => ok (.error e) t) s) : (x >>= f).run.Amid change inv ok s := by
  apply Amid.bind (f := ExceptT.bindCont f)
  apply h.mono
  intro r t fine
  cases r with
  | ok v => exact fine
  | error e => exact fine

theorem Amid.on {change' : τ → τ → Prop} {inv' : τ → Prop} {ok' : α → τ → Prop} {part : Part σ τ}
    {t : τ} (getSet : ∀ x t, part.get (part.set x t) = x)
    (works : ∀ t x, change (part.get t) x → change' t (part.set x t))
    (seen : ∀ t, inv' t → inv (part.get t)) (imp : ∀ x t, ok x (part.get t) → ok' x t)
    (h : job.Amid change inv ok (part.get t)) : (job.on part).Amid change' inv' ok' t := by
  induction job generalizing t with
  | done x => exact imp x t h
  | act update next ih =>
      constructor
      · exact works t _ h.1
      · apply ih
        rw [getSet]
        exact h.2
  | wait event next => exact h.elim
  | pause next ih =>
      intro u holds
      exact ih (h (part.get u) (seen u holds))

variable [Clocked σ]

/-- A stretch ends the job well, or it stops at a pause. -/
theorem Amid.advance (h : job.Amid change inv ok s) :
    Relation.ReflTransGen change s (job.advance s).2 ∧
      ((∃ x t, job.advance s = (.done x, t) ∧ ok x t) ∨
        ∃ next t, job.advance s = (.pause next, t) ∧
          ∀ u, inv u → next.Amid change inv ok u) := by
  induction job generalizing s with
  | done x => exact ⟨.refl, .inl ⟨x, s, rfl, h⟩⟩
  | act update next ih =>
      obtain ⟨path, rest⟩ := ih s h.2
      exact ⟨path.head h.1, rest⟩
  | wait event next => exact h.elim
  | pause next ih => exact ⟨.refl, .inr ⟨next, s, rfl, h⟩⟩

end

/-! ## Bounds -/

section

variable [Clocked σ] {change : σ → σ → Prop} {inv : σ → Prop}
  {job : Job σ (Except StoreError α)} {ok : Except StoreError α → σ → Prop} {token : Token}
  {operation : String} {s : σ}

theorem Amid.boundedBy {deadline : Option Nat} (same : ∀ t, change t t)
    (h : job.Amid change inv ok s)
    (ended : ∀ t, inv t → isCancelled token t = true → ok (.error (.cancelled operation)) t)
    (late : deadline ≠ none → ∀ t, ok (.error (timeoutError operation token)) t) :
    (job.boundedBy token operation deadline).Amid change inv ok s := by
  induction job generalizing s with
  | done x => exact h
  | act update next ih => exact ⟨h.1, ih s h.2⟩
  | wait event next => exact h.elim
  | pause next ih =>
      refine ⟨same s, ?_⟩
      dsimp only [id]
      split
      · rename_i past
        apply late
        rintro rfl
        cases past
      · intro t holds
        refine ⟨same t, ?_⟩
        dsimp only [id]
        split
        · rename_i cancelled
          exact ended t holds cancelled
        · exact ih (h t holds)

/-- A bound adds two ways to fail: the token was cancelled, or it has a timeout. -/
theorem Amid.within (same : ∀ t, change t t) (h : job.Amid change inv ok s)
    (now : isCancelled token s = true → ok (.error (.cancelled operation)) s)
    (ended : ∀ t, inv t → isCancelled token t = true → ok (.error (.cancelled operation)) t)
    (late : token.timeout ≠ none → ∀ t, ok (.error (timeoutError operation token)) t) :
    (job.within token operation).Amid change inv ok s := by
  refine ⟨same s, ?_⟩
  dsimp only [id]
  split
  · rename_i cancelled
    exact now cancelled
  · apply h.boundedBy same ended
    intro bounded
    apply late
    intro unbounded
    apply bounded
    rw [unbounded]
    rfl

end
end TemplateCache.Job
