import TemplateCache.Job

/-!
# Jobs that come to an end

`Ends` is the contract of a job that runs alone: it does come to an end, and what it returns and the
state that it leaves are as stated. A token that is not cancelled and lasts as long as a job sleeps
does not get in its way.
-/

namespace TemplateCache.Job

variable {σ τ α β ε : Type} [Clocked σ] [Clocked τ]

/-- A job that runs alone comes to an end, with a value and a state that are `ok`. -/
def Ends (ok : α → σ → Prop) (job : Job σ α) (s : σ) : Prop :=
  ∃ x t, job.finish s = some (x, t) ∧ ok x t

section

variable {ok : α → σ → Prop} {job : Job σ α} {s : σ}

/-- A sequence of jobs runs its parts one after the other. -/
theorem finish_bind (job : Job σ α) (f : α → Job σ β) (s : σ) :
    (job.bind f).finish s = (job.finish s).bind fun (x, t) => (f x).finish t := by
  induction job generalizing s with
  | done x => rfl
  | act update next ih => exact ih s (update s)
  | wait event next ih =>
      simp only [Job.bind, Job.finish]
      split
      · exact ih s
      · split
        · rfl
        · exact ih _
  | pause next ih => exact ih s

/-- A job on a part of the state leaves the rest alone. -/
theorem finish_on {part : Part σ τ} (getSet : ∀ x t, part.get (part.set x t) = x)
    (setSet : ∀ x y t, part.set x (part.set y t) = part.set x t)
    (setGet : ∀ t, part.set (part.get t) t = t)
    (clockGet : ∀ t, Clocked.clock t = Clocked.clock (part.get t))
    (setClock : ∀ clock t, Clocked.setClock clock t =
      part.set (Clocked.setClock clock (part.get t)) t)
    (job : Job σ α) (t : τ) :
    (job.on part).finish t = (job.finish (part.get t)).map fun (x, s) => (x, part.set s t) := by
  induction job generalizing t with
  | done x => exact congrArg (fun t => some (x, t)) (setGet t).symm
  | act update next ih =>
      refine (ih (part.get t) _).trans ?_
      rw [getSet]
      simp only [setSet]
      rfl
  | wait event next ih =>
      have due : Wait.isOver ⟨event.deadline, fun t => event.ready (part.get t)⟩ t =
          event.isOver (part.get t) := by
        unfold Wait.isOver
        rw [clockGet]
      simp only [Job.on, Job.finish, due]
      split
      · exact ih t
      · split
        · rfl
        · rw [ih, setClock, getSet, clockGet]
          simp only [setSet]
  | pause next ih => exact ih t

theorem Ends.mono {ok' : α → σ → Prop} (imp : ∀ {x t}, ok x t → ok' x t) (h : job.Ends ok s) :
    job.Ends ok' s := by
  obtain ⟨x, t, ends, fine⟩ := h
  exact ⟨x, t, ends, imp fine⟩

theorem Ends.bind {ok : β → σ → Prop} {f : α → Job σ β}
    (h : job.Ends (fun x t => (f x).Ends ok t) s) : (job.bind f).Ends ok s := by
  obtain ⟨x, t, first, y, u, second, fine⟩ := h
  refine ⟨y, u, ?_, fine⟩
  rw [finish_bind, first]
  exact second

/-- With failures, each part of an operation is judged on its own too. -/
theorem Ends.bindExcept {x : ExceptT ε (Job σ) α} {f : α → ExceptT ε (Job σ) β}
    {ok : Except ε β → σ → Prop}
    (h : x.run.Ends (fun r t =>
      match r with
      | .ok v => (f v).run.Ends ok t
      | .error e => ok (.error e) t) s) : (x >>= f).run.Ends ok s := by
  refine Ends.bind (f := ExceptT.bindCont f) (h.mono ?_)
  intro r t fine
  cases r with
  | ok v => exact fine
  | error e => exact ⟨_, _, rfl, fine⟩

theorem Ends.mapExcept {x : ExceptT ε (Job σ) α} {f : α → β} {ok : Except ε β → σ → Prop}
    (h : x.run.Ends (fun r t => ok (r.map f) t) s) : (f <$> x).run.Ends ok s := by
  refine Ends.bind (h.mono ?_)
  intro r t fine
  cases r <;> exact ⟨_, _, rfl, fine⟩

theorem finish_bind_ok {x : ExceptT ε (Job σ) α} {f : α → ExceptT ε (Job σ) β} {v : α} {t : σ}
    (first : x.run.finish s = some (.ok v, t)) :
    (x >>= f).run.finish s = (f v).run.finish t := by
  refine (finish_bind x.run (ExceptT.bindCont f) s).trans ?_
  rw [first]
  rfl

theorem finish_bind_error {x : ExceptT ε (Job σ) α} {f : α → ExceptT ε (Job σ) β} {e : ε} {t : σ}
    (first : x.run.finish s = some (.error e, t)) :
    (x >>= f).run.finish s = some (.error e, t) := by
  refine (finish_bind x.run (ExceptT.bindCont f) s).trans ?_
  rw [first]
  rfl

theorem finish_map_ok {x : ExceptT ε (Job σ) α} {f : α → β} {v : α} {t : σ}
    (first : x.run.finish s = some (.ok v, t)) :
    (f <$> x).run.finish s = some (.ok (f v), t) := by
  refine (finish_bind x.run _ s).trans ?_
  rw [first]
  rfl

/-- What comes after an operation that is known to succeed. -/
theorem Ends.after {x : ExceptT ε (Job σ) α} {f : α → ExceptT ε (Job σ) β}
    {ok : Except ε β → σ → Prop} {v : α} {t : σ} (first : x.run.finish s = some (.ok v, t))
    (h : (f v).run.Ends ok t) : (x >>= f).run.Ends ok s := by
  unfold Ends
  rw [finish_bind_ok first]
  exact h

theorem ends_done {x : α} (h : ok x s) : (done x).Ends ok s := ⟨x, s, rfl, h⟩

/-- While a job sleeps, time passes. -/
theorem ends_sleep {ok : Unit → σ → Prop} {ms : Nat}
    (same : s = Clocked.setClock (Clocked.clock s) s)
    (h : ∀ now, ok () (Clocked.setClock { Clocked.clock s with now := now } s)) :
    (sleep ms).Ends ok s := by
  show ∃ x t, Job.finish (wait _ _) s = some (x, t) ∧ ok x t
  unfold Job.finish
  split
  · refine ⟨(), s, rfl, ?_⟩
    rw [same]
    exact h (Clocked.clock s).now
  · exact ⟨(), _, rfl, h _⟩

end

/-! ## Bounded jobs -/

/-- A job that does not wait. -/
def Instant : Job σ α → Prop
  | done _ => True
  | act _ next => ∀ s, (next s).Instant
  | wait _ _ => False
  | pause _ => False

section

omit [Clocked σ]

theorem Instant.bind {job : Job σ α} {f : α → Job σ β} (h : job.Instant)
    (hf : ∀ x, (f x).Instant) : (job.bind f).Instant := by
  induction job with
  | done x => exact hf x
  | act update next ih => exact fun s => ih s (h s)
  | wait event next => exact h.elim
  | pause next => exact h.elim

theorem Instant.bindExcept {x : ExceptT ε (Job σ) α} {f : α → ExceptT ε (Job σ) β}
    (h : x.run.Instant) (hf : ∀ v, (f v).run.Instant) : (x >>= f).run.Instant := by
  refine Instant.bind (f := ExceptT.bindCont f) h fun r => ?_
  cases r with
  | ok v => exact hf v
  | error e => trivial

theorem Instant.mapM {f : α → Job σ β} (hf : ∀ x, (f x).Instant) (l : List α) :
    (l.mapM f).Instant := by
  suffices loop : ∀ made, (List.mapM.loop f l made).Instant from loop []
  induction l with
  | nil => exact fun made => trivial
  | cons x rest ih => exact fun made => (hf x).bind fun y => ih (y :: made)

end

section

variable {job : Job σ (Except StoreError α)} {s : σ} {token : Token} {operation : String}

/-- What does not wait cannot be ended early. -/
theorem Instant.boundedBy (h : job.Instant) (deadline : Option Nat) :
    job.boundedBy token operation deadline = job := by
  induction job with
  | done x => rfl
  | act update next ih =>
      simp only [Job.boundedBy]
      congr
      funext s
      exact ih s (h s)
  | wait event next => exact h.elim
  | pause next => exact h.elim

theorem Instant.within (h : job.Instant) (live : isCancelled token s = false) :
    (job.within token operation).finish s = job.finish s := by
  show (if isCancelled token s then _ else _ : Job σ _).finish s = _
  rw [if_neg (Bool.eq_false_iff.1 live), h.boundedBy]

/-- A job that sleeps and then goes on without waiting is through before a later deadline. -/
theorem finish_boundedBy_sleep {ms : Nat} {next : Job σ (Except StoreError α)}
    (clockSet : ∀ clock, Clocked.clock (Clocked.setClock clock s) = clock)
    (instant : next.Instant) {deadline : Option Nat}
    (lasts : ∀ d, deadline = some d → (Clocked.clock s).now + Duration.timer ms ≤ d)
    (live : isCancelled token s = false) :
    (((sleep ms).bind fun _ => next).boundedBy token operation deadline).finish s =
      ((sleep ms).bind fun _ => next).finish s := by
  have first : earlier (some ((Clocked.clock s).now + Duration.timer ms)) deadline =
      some ((Clocked.clock s).now + Duration.timer ms) := by
    cases deadline with
    | none => rfl
    | some d => exact congrArg some (Nat.min_eq_left (lasts d rfl))
  show Job.finish (wait _ (act id fun u => if isCancelled token u then _
    else if Wait.isOver _ u then next.boundedBy token operation deadline else _)) s =
      Job.finish (wait _ next) s
  simp only [Job.finish, Wait.isOver, first, live, instant.boundedBy, Option.any_some,
    Bool.or_false, id]
  split
  · simp only [Bool.false_eq_true, if_false]
  · have awake : isCancelled token (Clocked.setClock { Clocked.clock s with
        now := (Clocked.clock s).now + Duration.timer ms } s) = false := by
      unfold isCancelled at *
      rw [clockSet]
      exact live
    simp only [awake, clockSet, Nat.le_refl, decide_true, Bool.false_eq_true, if_false, if_true]

end

/-! ## Jobs that wait for the clock -/

/-- A job all of whose waits have a deadline. -/
def Timed : Job σ α → Prop
  | done _ => True
  | act _ next => ∀ s, (next s).Timed
  | wait event next => event.deadline.isSome = true ∧ next.Timed
  | pause next => next.Timed

section

variable {job : Job σ α}

/-- Alone, such a job comes to an end. -/
theorem Timed.ends (h : job.Timed) (s : σ) : ∃ x t, job.finish s = some (x, t) := by
  induction job generalizing s with
  | done x => exact ⟨x, s, rfl⟩
  | act update next ih => exact ih s (h s) (update s)
  | wait event next ih =>
      obtain ⟨deadline, due⟩ := Option.isSome_iff_exists.1 h.1
      simp only [Job.finish, due]
      split
      · exact ih h.2 s
      · exact ih h.2 _
  | pause next ih => exact ih h s

omit [Clocked σ]

theorem Timed.bind {f : α → Job σ β} (h : job.Timed) (hf : ∀ x, (f x).Timed) :
    (job.bind f).Timed := by
  induction job with
  | done x => exact hf x
  | act update next ih => exact fun s => ih s (h s)
  | wait event next ih => exact ⟨h.1, ih h.2⟩
  | pause next ih => exact ih h

theorem Timed.bindExcept {x : ExceptT ε (Job σ) α} {f : α → ExceptT ε (Job σ) β}
    (h : x.run.Timed) (hf : ∀ v, (f v).run.Timed) : (x >>= f).run.Timed := by
  refine Timed.bind (f := ExceptT.bindCont f) h fun r => ?_
  cases r with
  | ok v => exact hf v
  | error e => trivial

theorem Timed.mapM {f : α → Job σ β} (hf : ∀ x, (f x).Timed) (l : List α) :
    (l.mapM f).Timed := by
  suffices loop : ∀ made, (List.mapM.loop f l made).Timed from loop []
  induction l with
  | nil => exact fun made => trivial
  | cons x rest ih => exact fun made => (hf x).bind fun y => ih (y :: made)

omit [Clocked τ] in
/-- A job on a part of the state waits for what it waits for alone. -/
theorem Timed.on {part : Part σ τ} (h : job.Timed) : (job.on part).Timed := by
  induction job with
  | done x => trivial
  | act update next ih => exact fun t => ih _ (h _)
  | wait event next ih => exact ⟨h.1, ih h.2⟩
  | pause next ih => exact ih h

theorem Instant.timed (h : job.Instant) : job.Timed := by
  induction job with
  | done x => trivial
  | act update next ih => exact fun s => ih s (h s)
  | wait event next => exact h.elim
  | pause next => exact h.elim

end

theorem timed_sleep (ms : Nat) : (sleep ms : Job σ Unit).Timed := fun _ => ⟨rfl, trivial⟩

theorem Timed.boundedBy {job : Job σ (Except StoreError α)} {token : Token} {operation : String}
    {deadline : Option Nat} (h : job.Timed) : (job.boundedBy token operation deadline).Timed := by
  induction job with
  | done x => trivial
  | act update next ih => exact fun s => ih s (h s)
  | wait event next ih =>
      obtain ⟨due, rest⟩ := h
      refine ⟨?_, fun s => ?_⟩
      · obtain ⟨time, due⟩ := Option.isSome_iff_exists.1 due
        rw [due]
        cases deadline with
        | none => rfl
        | some d => rfl
      · dsimp only
        split
        · trivial
        · split
          · exact ih rest
          · trivial
  | pause next ih =>
      intro s
      dsimp only
      split
      · trivial
      · intro u
        dsimp only
        split
        · trivial
        · exact ih h

theorem Timed.within {job : Job σ (Except StoreError α)} {token : Token} {operation : String}
    (h : job.Timed) : (job.within token operation).Timed := by
  intro s
  dsimp only
  split
  · trivial
  · exact h.boundedBy

end TemplateCache.Job
