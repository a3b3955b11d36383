import TemplateCache.Proofs.Job.Runs

/-!
# Jobs that keep an invariant while they run alone

`Safely` is the contract of a job that waits for nothing but its turn and that nobody interferes
with: it comes to an end, what it returns and the state that it leaves are as stated, and each of
its steps leads to a state of which an invariant holds. The steps are followed one by one, so the
invariant may hold for a reason that only this run has. A bound that ends the job early leaves one
of these states.
-/

namespace TemplateCache.Job

variable {σ α β ε : Type} {inv : σ → Prop} {s t : σ}

/-- A job that runs alone comes through states of which an invariant holds, and it ends with a value
and a state that are `ok`. -/
def Safely (inv : σ → Prop) (ok : α → σ → Prop) : Job σ α → σ → Prop
  | .done x, s => ok x s
  | .act update next, s => inv (update s) ∧ (next s).Safely inv ok (update s)
  | .wait _ _, _ => False
  | .pause next, s => next.Safely inv ok s

section

variable {ok : α → σ → Prop} {job : Job σ α} {x : α}

theorem Safely.mono {inv' : σ → Prop} {ok' : α → σ → Prop} (imp : ∀ {u}, inv u → inv' u)
    (imp' : ∀ {x u}, ok x u → ok' x u) (h : job.Safely inv ok s) : job.Safely inv' ok' s := by
  induction job generalizing s with
  | done x => exact imp' h
  | act update next ih => exact ⟨imp h.1, ih s h.2⟩
  | wait event next => exact h.elim
  | pause next ih => exact ih h

/-- The invariant also holds in the end. -/
theorem Safely.kept (start : inv s) (h : job.Safely inv ok s) :
    job.Safely inv (fun x u => inv u ∧ ok x u) s := by
  induction job generalizing s with
  | done x => exact ⟨start, h⟩
  | act update next ih => exact ⟨h.1, ih s h.1 h.2⟩
  | wait event next => exact h.elim
  | pause next ih => exact ih start h

theorem Safely.bind {ok : β → σ → Prop} {f : α → Job σ β}
    (h : job.Safely inv (fun x u => (f x).Safely inv ok u) s) : (job.bind f).Safely inv ok s := by
  induction job generalizing s with
  | done x => exact h
  | act update next ih => exact ⟨h.1, ih s h.2⟩
  | wait event next => exact h.elim
  | pause next ih => exact ih h

theorem Safely.ends [Clocked σ] (h : job.Safely inv ok s) :
    ∃ x t, job.finish s = some (x, t) ∧ ok x t := by
  induction job generalizing s with
  | done x => exact ⟨x, s, rfl, h⟩
  | act update next ih => exact ih s h.2
  | wait event next => exact h.elim
  | pause next ih => exact ih h

theorem Safely.finish [Clocked σ] (h : job.Safely inv ok s) (ends : job.finish s = some (x, t)) :
    ok x t := by
  obtain ⟨y, u, ends', fine⟩ := h.ends
  cases ends.symm.trans ends'
  exact fine

theorem safely_lift {ok : Except ε α → σ → Prop} (h : job.Safely inv (fun x u => ok (.ok x) u) s) :
    (ExceptT.lift job : ExceptT ε (Job σ) α).run.Safely inv ok s :=
  Safely.bind (f := fun x => Job.done (.ok x : Except ε α)) h

end

/-- With failures, each part of an operation is judged on its own too. -/
theorem Safely.bindExcept {x : ExceptT ε (Job σ) α} {f : α → ExceptT ε (Job σ) β}
    {ok : Except ε β → σ → Prop}
    (h : x.run.Safely inv (fun r u =>
      match r with
      | .ok v => (f v).run.Safely inv ok u
      | .error e => ok (.error e) u) s) : (x >>= f).run.Safely inv ok s := by
  refine Safely.bind (f := ExceptT.bindCont f) (h.mono id fun {r u} fine => ?_)
  cases r with
  | ok v => exact fine
  | error e => exact fine

/-- What holds of the state alone, holds whatever becomes of the value. -/
theorem Safely.mapExcept {x : ExceptT ε (Job σ) α} {f : α → β} {ok : Except ε α → σ → Prop}
    {ok' : Except ε β → σ → Prop} (imp : ∀ {r u}, ok r u → ok' (r.map f) u)
    (h : x.run.Safely inv ok s) : (f <$> x).run.Safely inv ok' s := by
  refine Safely.bind (h.mono id fun {r u} fine => ?_)
  cases r with
  | ok v => exact imp fine
  | error e => exact imp fine

/-- Jobs one after the other, each of which keeps the invariant from wherever it begins. -/
theorem Safely.mapM {f : α → Job σ β} {l : List α}
    (each : ∀ x ∈ l, ∀ u, inv u → (f x).Safely inv (fun _ _ => True) u) (start : inv s) :
    (l.mapM f).Safely inv (fun _ _ => True) s := by
  suffices loop : ∀ (made : List β) (s : σ), inv s →
      (List.mapM.loop f l made).Safely inv (fun _ _ => True) s from loop [] s start
  induction l with
  | nil => exact fun made s holds => trivial
  | cons x rest ih =>
      intro made s holds
      obtain ⟨here, later⟩ := List.forall_mem_cons.1 each
      refine Safely.bind (((here s holds).kept holds).mono id ?_)
      intro y u fine
      exact ih later (y :: made) u fine.1

theorem Safely.mapMExcept {f : α → ExceptT ε (Job σ) β} {l : List α}
    (each : ∀ x ∈ l, ∀ u, inv u → (f x).run.Safely inv (fun _ _ => True) u) (start : inv s) :
    (l.mapM f).run.Safely inv (fun _ _ => True) s := by
  suffices loop : ∀ (made : List β) (s : σ), inv s →
      (List.mapM.loop f l made).run.Safely inv (fun _ _ => True) s from loop [] s start
  induction l with
  | nil => exact fun made s holds => trivial
  | cons x rest ih =>
      intro made s holds
      obtain ⟨here, later⟩ := List.forall_mem_cons.1 each
      refine Safely.bindExcept (((here s holds).kept holds).mono id ?_)
      rintro (e | y) u ⟨holds', -⟩
      · trivial
      · exact ih later (y :: made) u holds'

/-! ## Bounds -/

section

variable [Clocked σ] {job : Job σ (Except StoreError α)} {ok : Except StoreError α → σ → Prop}
  {token : Token} {operation : String}

theorem Safely.boundedBy {deadline : Option Nat} (start : inv s)
    (early : ∀ r u, inv u → EndsEarly token operation r → ok r u) (h : job.Safely inv ok s) :
    (job.boundedBy token operation deadline).Safely inv ok s := by
  induction job generalizing s with
  | done x => exact h
  | act update next ih => exact ⟨h.1, ih s h.1 h.2⟩
  | wait event next => exact h.elim
  | pause next ih =>
      refine ⟨start, ?_⟩
      dsimp only [id]
      split
      · exact early _ s start (.inr rfl)
      · refine ⟨start, ?_⟩
        dsimp only [id]
        split
        · exact early _ s start (.inl rfl)
        · exact ih start h

/-- A bound adds two ways to fail. -/
theorem Safely.within (start : inv s)
    (early : ∀ r u, inv u → EndsEarly token operation r → ok r u) (h : job.Safely inv ok s) :
    (job.within token operation).Safely inv ok s := by
  refine ⟨start, ?_⟩
  dsimp only [id]
  split
  · exact early _ s start (.inl rfl)
  · exact h.boundedBy start early

end
end TemplateCache.Job
