import TemplateCache.Proofs.Job.Stretch

/-!
# Jobs that heed a token

A job heeds a token if it ends as soon as it gets a turn after the token was cancelled. It is honest
about the token if it never ends so otherwise. Both are properties of the program: they hold in
whatever states it gets its turns.
-/

namespace TemplateCache.Job

variable {σ τ α β ε : Type}

/-! ## What is left at a rest -/

/-- Where a stretch may end. -/
def AtRest : Job σ α → Prop
  | .act _ _ => False
  | _ => True

section

variable [Clocked σ] {job rest : Job σ α} {change : σ → σ → Prop} {good : α → σ → Prop} {s t : σ}
  {x : α}

theorem atRest_advance (job : Job σ α) (s : σ) : (job.advance s).1.AtRest := by
  induction job generalizing s with
  | done x => trivial
  | act update next ih => exact ih s (update s)
  | wait event next ih =>
      unfold advance
      split
      · exact ih s
      · trivial
  | pause next ih => trivial

theorem Leaves.atRest (leaves : job.Leaves rest) : rest.AtRest := by
  cases leaves with
  | once s => exact atRest_advance _ s
  | again before s => exact atRest_advance _ s

/-- A stretch that ends the job ends it well. -/
theorem Ensures.ends (h : job.Ensures change good s) (ends : job.advance s = (.done x, t)) :
    good x t := by
  induction job generalizing s with
  | done y =>
      cases ends
      exact h
  | act update next ih => exact ih s h.2 ends
  | wait event next ih =>
      unfold Job.advance at ends
      split at ends
      · exact ih (h s) ends
      · cases ends
  | pause next ih => cases ends

/-- What a stretch leaves keeps to the contract from whatever state it gets its turn in. -/
theorem Ensures.left (h : job.Ensures change good s) (isOpen : (job.advance s).1.Open) (u : σ) :
    (Task.unpaused (job.advance s).1).Ensures change good u := by
  induction job generalizing s with
  | done y => exact absurd rfl (isOpen y)
  | act update next ih => exact ih s h.2 isOpen
  | wait event next ih =>
      unfold Job.advance at isOpen ⊢
      split
      · rename_i due
        rw [if_pos due] at isOpen
        exact ih (h s) isOpen
      · exact h
  | pause next ih => exact h u

theorem Leaves.ensures (leaves : job.Leaves rest) (h : ∀ s, job.Ensures change good s)
    (isOpen : rest.Open) (u : σ) : (Task.unpaused rest).Ensures change good u := by
  induction leaves generalizing u with
  | once s => exact (h s).left isOpen u
  | @again before _ s ih =>
      refine Ensures.left (ih ?_ s) isOpen u
      intro x ended
      rw [ended] at isOpen
      exact isOpen x rfl

end

/-! ## Stopping -/

/-- A job ends at once, with a value of some kind. -/
def Stops (kind : α → Prop) : Job σ α → σ → Prop
  | .done x, _ => kind x
  | .act update next, s => (next s).Stops kind (update s)
  | .wait _ _, _ => False
  | .pause _, _ => False

section

variable {kind : α → Prop} {job : Job σ α} {s : σ}

theorem Stops.advance [Clocked σ] (h : job.Stops kind s) :
    ∃ x t, job.advance s = (.done x, t) ∧ kind x := by
  induction job generalizing s with
  | done x => exact ⟨x, s, rfl, h⟩
  | act update next ih => exact ih s h
  | wait event next => exact h.elim
  | pause next => exact h.elim

theorem Stops.bind {kind' : β → Prop} {f : α → Job σ β} (h : job.Stops kind s)
    (hf : ∀ x s, kind x → (f x).Stops kind' s) : (job.bind f).Stops kind' s := by
  induction job generalizing s with
  | done x => exact hf x s h
  | act update next ih => exact ih s h
  | wait event next => exact h.elim
  | pause next => exact h.elim

theorem Stops.on {part : Part σ τ} {t : τ} (getSet : ∀ x t, part.get (part.set x t) = x)
    (h : job.Stops kind (part.get t)) : (job.on part).Stops kind t := by
  induction job generalizing t with
  | done x => exact h
  | act update next ih =>
      refine ih _ ?_
      rw [getSet]
      exact h
  | wait event next => exact h.elim
  | pause next => exact h.elim

end

/-! ## Heeding -/

section

variable [Clocked σ]

/-- Whenever a job gets a turn after the token was cancelled, it stops. -/
def Heeds (token : Token) (kind : α → Prop) : Job σ α → Prop
  | .done _ => True
  | .act _ next => ∀ s, (next s).Heeds token kind
  | .wait event next =>
    (∀ s, isCancelled token s = true → event.isOver s = true ∧ next.Stops kind s) ∧
      next.Heeds token kind
  | .pause next => (∀ s, isCancelled token s = true → next.Stops kind s) ∧ next.Heeds token kind

variable {token : Token} {kind : α → Prop} {job rest : Job σ α}

theorem Heeds.bind {kind' : β → Prop} {f : α → Job σ β} (h : job.Heeds token kind)
    (stops : ∀ x s, kind x → (f x).Stops kind' s) (hf : ∀ x, (f x).Heeds token kind') :
    (job.bind f).Heeds token kind' := by
  induction job with
  | done x => exact hf x
  | act update next ih => exact fun s => ih s (h s)
  | wait event next ih =>
      exact ⟨fun s ended => ⟨(h.1 s ended).1, (h.1 s ended).2.bind stops⟩, ih h.2⟩
  | pause next ih => exact ⟨fun s ended => (h.1 s ended).bind stops, ih h.2⟩

theorem Heeds.on [Clocked τ] {part : Part σ τ} (getSet : ∀ x t, part.get (part.set x t) = x)
    (clockGet : ∀ t, Clocked.clock t = Clocked.clock (part.get t)) (h : job.Heeds token kind) :
    (job.on part).Heeds token kind := by
  have seen (t : τ) (ended : isCancelled token t = true) :
      isCancelled token (part.get t) = true := by
    unfold isCancelled at ended ⊢
    rwa [clockGet] at ended
  induction job with
  | done x => trivial
  | act update next ih => exact fun t => ih _ (h _)
  | wait event next ih =>
      refine ⟨fun t ended => ⟨?_, ?_⟩, ih h.2⟩
      · have due := (h.1 _ (seen t ended)).1
        unfold Wait.isOver at due ⊢
        rwa [clockGet]
      · exact (h.1 _ (seen t ended)).2.on getSet
  | pause next ih => exact ⟨fun t ended => (h.1 _ (seen t ended)).on getSet, ih h.2⟩

/-- Failures go through what follows, so each part is judged on its own. -/
theorem Heeds.bindExcept {fails : ε → Prop} {x : ExceptT ε (Job σ) α} {f : α → ExceptT ε (Job σ) β}
    (h : x.run.Heeds token fun r => ∃ e, r = .error e ∧ fails e)
    (hf : ∀ v, (f v).run.Heeds token fun r => ∃ e, r = .error e ∧ fails e) :
    (x >>= f).run.Heeds token fun r => ∃ e, r = .error e ∧ fails e := by
  refine Heeds.bind (f := ExceptT.bindCont f) h ?_ fun r => ?_
  · rintro _ s ⟨e, rfl, failed⟩
    exact ⟨e, rfl, failed⟩
  · cases r with
    | ok v => exact hf v
    | error e => trivial

theorem heeds_advance (h : job.Heeds token kind) (s : σ) : (job.advance s).1.Heeds token kind := by
  induction job generalizing s with
  | done x => trivial
  | act update next ih => exact ih s (h s) (update s)
  | wait event next ih =>
      unfold advance
      split
      · exact ih h.2 s
      · exact h
  | pause next ih => exact h

theorem Heeds.unpaused (h : job.Heeds token kind) : (Task.unpaused job).Heeds token kind := by
  cases job with
  | pause next => exact h.2
  | done x => exact h
  | act update next => exact h
  | wait event next => exact h

theorem Leaves.heeds (leaves : job.Leaves rest) (h : job.Heeds token kind) :
    rest.Heeds token kind := by
  induction leaves with
  | once s => exact heeds_advance h s
  | again before s ih => exact heeds_advance ih.unpaused s

/-- A job at rest whose token is cancelled ends in its next turn. -/
theorem Heeds.turn (h : job.Heeds token kind) (rests : job.AtRest) (isOpen : job.Open) {s : σ}
    (ended : isCancelled token s = true) :
    ∃ x t, (Task.unpaused job).advance s = (.done x, t) ∧ kind x := by
  cases job with
  | done x => exact absurd rfl (isOpen x)
  | act update next => exact rests.elim
  | wait event next =>
      obtain ⟨due, stops⟩ := h.1 s ended
      obtain ⟨x, t, ends, is⟩ := stops.advance
      exact ⟨x, t, (if_pos due).trans ends, is⟩
  | pause next => exact (h.1 s ended).advance

/-! ## Bounds -/

/-- A failure that says that an operation was cancelled. -/
def Cancelled (r : Except StoreError α) : Prop :=
  ∃ e, r = .error e ∧ ∃ operation, e = .cancelled operation

theorem heeds_boundedBy {job : Job σ (Except StoreError α)} {operation : String}
    {deadline : Option Nat} :
    (job.boundedBy token operation deadline).Heeds token Cancelled := by
  induction job with
  | done r => trivial
  | act update next ih => exact fun s => ih s
  | wait event next ih =>
      refine ⟨fun s ended => ⟨?_, ?_⟩, fun s => ?_⟩
      · unfold Wait.isOver
        simp [ended]
      · show Stops _ (if isCancelled token s = true then _ else _) s
        rw [if_pos ended]
        exact ⟨_, rfl, operation, rfl⟩
      · dsimp only
        split
        · trivial
        · split
          · exact ih
          · trivial
  | pause next ih =>
      intro s
      dsimp only
      split
      · trivial
      · refine ⟨fun s ended => ?_, fun s => ?_⟩
        · show Stops _ (if isCancelled token s = true then _ else _) s
          rw [if_pos ended]
          exact ⟨_, rfl, operation, rfl⟩
        · dsimp only
          split
          · trivial
          · exact ih

/-- What a token bounds heeds it. -/
theorem heeds_within {job : Job σ (Except StoreError α)} {operation : String} :
    (job.within token operation).Heeds token Cancelled := by
  intro s
  dsimp only
  split
  · trivial
  · exact heeds_boundedBy

/-! ## Honesty -/

/-- The clock is left alone. -/
def SameClock (s t : σ) : Prop := Clocked.clock t = Clocked.clock s

/-- Time is left alone, and an operation says that it was cancelled only if it was. -/
def Honest (token : Token) (job : Job σ (Except StoreError α)) : Prop :=
  ∀ s, job.Ensures SameClock (fun r t => Cancelled r → isCancelled token t = true) s

theorem honest_boundedBy {job : Job σ (Except StoreError α)} {operation : String}
    {deadline : Option Nat} {s : σ}
    (h : job.Ensures SameClock (fun r t => Cancelled r → isCancelled token t = true) s) :
    (job.boundedBy token operation deadline).Ensures SameClock
      (fun r t => Cancelled r → isCancelled token t = true) s := by
  have late (t : σ) (out : Cancelled (α := α) (.error (timeoutError operation token))) :
      isCancelled token t = true := by
    obtain ⟨e, same, operation, rfl⟩ := out
    exact nomatch same
  induction job generalizing s with
  | done r => exact h
  | act update next ih => exact ⟨h.1, ih s h.2⟩
  | wait event next ih =>
      refine fun t => ⟨rfl, ?_⟩
      dsimp only [id]
      split
      · rename_i ended
        exact fun _ => ended
      · split
        · exact ih (h t)
        · exact late t
  | pause next ih =>
      refine ⟨rfl, ?_⟩
      dsimp only [id]
      split
      · exact late s
      · refine fun t => ⟨rfl, ?_⟩
        dsimp only [id]
        split
        · rename_i ended
          exact fun _ => ended
        · exact ih (h t)

theorem Honest.within {job : Job σ (Except StoreError α)} {operation : String}
    (h : job.Honest token) : (job.within token operation).Honest token := by
  refine fun s => ⟨rfl, ?_⟩
  dsimp only [id]
  split
  · rename_i ended
    exact fun _ => ended
  · exact honest_boundedBy (h s)

end

end TemplateCache.Job
