import Mathlib.Data.List.Forall2
import TemplateCache.Proofs.Job.Finish

/-!
# Jobs that do not sleep

`Prompt` is the contract of a job that waits for nothing but its turn and leaves the clock alone: it
comes to an end, and what it returns and the state that it leaves are as stated. No time passes
meanwhile, so a token that lets such a job begin lets it come to its end.
-/

namespace TemplateCache.Job

variable {σ α β ε : Type} [Clocked σ]

/-- A job that never sleeps ends with a value and a state that are `ok`. -/
def Prompt (ok : α → σ → Prop) : Job σ α → σ → Prop
  | .done x, s => ok x s
  | .act update next, s =>
    Clocked.clock (update s) = Clocked.clock s ∧ (next s).Prompt ok (update s)
  | .wait _ _, _ => False
  | .pause next, s => next.Prompt ok s

section

variable {ok : α → σ → Prop} {job : Job σ α} {s : σ}

theorem Prompt.mono {ok' : α → σ → Prop} (imp : ∀ {x t}, ok x t → ok' x t)
    (h : job.Prompt ok s) : job.Prompt ok' s := by
  induction job generalizing s with
  | done x => exact imp h
  | act update next ih => exact ⟨h.1, ih s h.2⟩
  | wait event next => exact h.elim
  | pause next ih => exact ih h

/-- The value and the state are those that `finish` has, at the same time. -/
theorem Prompt.known (h : job.Prompt ok s) :
    job.Prompt (fun x t => ok x t ∧ job.finish s = some (x, t) ∧
      Clocked.clock t = Clocked.clock s) s := by
  induction job generalizing s with
  | done x => exact ⟨h, rfl, rfl⟩
  | act update next ih =>
      refine ⟨h.1, (ih s h.2).mono ?_⟩
      rintro x t ⟨fine, ends, time⟩
      exact ⟨fine, ends, time.trans h.1⟩
  | wait event next => exact h.elim
  | pause next ih => exact ih h

theorem Prompt.ends (h : job.Prompt ok s) : job.Ends ok s := by
  induction job generalizing s with
  | done x => exact ends_done h
  | act update next ih => exact ih s h.2
  | wait event next => exact h.elim
  | pause next ih => exact ih h

theorem Prompt.bind {ok : β → σ → Prop} {f : α → Job σ β}
    (h : job.Prompt (fun x t => (f x).Prompt ok t) s) : (job.bind f).Prompt ok s := by
  induction job generalizing s with
  | done x => exact h
  | act update next ih => exact ⟨h.1, ih s h.2⟩
  | wait event next => exact h.elim
  | pause next ih => exact ih h

theorem prompt_lift {ok : Except ε α → σ → Prop} (h : job.Prompt (fun x t => ok (.ok x) t) s) :
    (ExceptT.lift job : ExceptT ε (Job σ) α).run.Prompt ok s :=
  Prompt.bind (f := fun x => Job.done (.ok x : Except ε α)) h

/-- With failures, each part of an operation is judged on its own too. -/
theorem Prompt.bindExcept {x : ExceptT ε (Job σ) α} {f : α → ExceptT ε (Job σ) β}
    {ok : Except ε β → σ → Prop}
    (h : x.run.Prompt (fun r t =>
      match r with
      | .ok v => (f v).run.Prompt ok t
      | .error e => ok (.error e) t) s) : (x >>= f).run.Prompt ok s := by
  refine Prompt.bind (f := ExceptT.bindCont f) (h.mono ?_)
  intro r t fine
  cases r with
  | ok v => exact fine
  | error e => exact fine

/-- Jobs one after the other keep an invariant, and each has a good value for its input. -/
theorem Prompt.mapM {inv : σ → Prop} {good : α → β → Prop} {f : α → Job σ β} {l : List α}
    (each : ∀ x ∈ l, ∀ s, inv s → (f x).Prompt (fun y t => inv t ∧ good x y) s) (start : inv s) :
    (l.mapM f).Prompt (fun ys t => inv t ∧ List.Forall₂ good l ys) s := by
  suffices loop : ∀ (made : List β) (before : List α) (s : σ), inv s →
      List.Forall₂ good before made.reverse →
      (List.mapM.loop f l made).Prompt (fun ys t => inv t ∧ List.Forall₂ good (before ++ l) ys) s by
    exact loop [] [] s start .nil
  -- The loop collects its results in `made`, in reverse.
  induction l with
  | nil =>
      intro made before s holds fine
      exact ⟨holds, by rwa [List.append_nil]⟩
  | cons x rest ih =>
      intro made before s holds fine
      obtain ⟨here, later⟩ := List.forall_mem_cons.1 each
      refine Prompt.bind ((here s holds).mono ?_)
      rintro y t ⟨holds', is⟩
      rw [List.append_cons]
      refine ih later (y :: made) (before ++ [x]) t holds' ?_
      rw [List.reverse_cons]
      exact List.rel_append fine (.cons is .nil)

/-- Operations one after the other keep an invariant, and what each one achieves is kept by the
others. -/
theorem Prompt.mapMExcept {inv : σ → Prop} {good : α → σ → Prop}
    {f : α → ExceptT ε (Job σ) β} {l : List α}
    (each : ∀ x ∈ l, ∀ s, inv s → (f x).run.Prompt (fun r t =>
      inv t ∧ (∀ y, good y s → good y t) ∧ ∀ v, r = .ok v → good x t) s) (start : inv s) :
    (l.mapM f).run.Prompt (fun r t => inv t ∧ ∀ ys, r = .ok ys → ∀ x ∈ l, good x t) s := by
  suffices loop : ∀ (made : List β) (s : σ), inv s →
      (List.mapM.loop f l made).run.Prompt (fun r t => inv t ∧ (∀ y, good y s → good y t) ∧
        ∀ ys, r = .ok ys → ∀ x ∈ l, good x t) s from
    (loop [] s start).mono fun fine => ⟨fine.1, fine.2.2⟩
  induction l with
  | nil => exact fun made s holds => ⟨holds, fun _ => id, fun _ _ _ there => nomatch there⟩
  | cons x rest ih =>
      intro made s holds
      obtain ⟨here, later⟩ := List.forall_mem_cons.1 each
      refine Prompt.bindExcept ((here s holds).mono ?_)
      rintro r t ⟨holds', kept, achieved⟩
      cases r with
      | error e => exact ⟨holds', kept, fun _ failed => nomatch failed⟩
      | ok v =>
          refine (ih later (v :: made) t holds').mono ?_
          rintro r u ⟨holds'', kept', others⟩
          refine ⟨holds'', fun y fine => kept' y (kept y fine), fun ys same => ?_⟩
          exact List.forall_mem_cons.2 ⟨kept' x (achieved v rfl), others ys same⟩

end

/-! ## Bounds -/

/-- A token lets a job run that does not sleep: it is not cancelled, and its time is not up. -/
structure Lets (token : Token) (s : σ) : Prop where
  live : isCancelled token s = false
  lasts : isPast (token.timeout.map fun d => (Clocked.clock s).now + Duration.timer d.ticks) s =
    false

section

variable {ok : Except StoreError α → σ → Prop} {job : Job σ (Except StoreError α)} {s t : σ}
  {token : Token} {operation : String}

theorem Lets.of_clock (lets : Lets token s) (same : Clocked.clock t = Clocked.clock s) :
    Lets token t := by
  obtain ⟨live, lasts⟩ := lets
  unfold isCancelled isPast at *
  exact ⟨by rw [isCancelled, same]; exact live, by rw [isPast, same]; exact lasts⟩

theorem Prompt.boundedBy {deadline : Option Nat} (live : isCancelled token s = false)
    (lasts : isPast deadline s = false) (h : job.Prompt ok s) :
    (job.boundedBy token operation deadline).Prompt ok s := by
  induction job generalizing s with
  | done x => exact h
  | act update next ih =>
      refine ⟨h.1, ih s ?_ ?_ h.2⟩
      · unfold isCancelled at *
        rw [h.1]
        exact live
      · unfold isPast at *
        rw [h.1]
        exact lasts
  | wait event next => exact h.elim
  | pause next ih =>
      refine ⟨rfl, ?_⟩
      dsimp only [id]
      rw [if_neg (Bool.eq_false_iff.1 lasts)]
      refine ⟨rfl, ?_⟩
      dsimp only [id]
      rw [if_neg (Bool.eq_false_iff.1 live)]
      exact ih live lasts h

theorem Prompt.within (lets : Lets token s) (h : job.Prompt ok s) :
    (job.within token operation).Prompt ok s := by
  refine ⟨rfl, ?_⟩
  dsimp only [id]
  rw [if_neg (Bool.eq_false_iff.1 lets.live)]
  exact h.boundedBy lets.live lets.lasts

end
end TemplateCache.Job
