import TemplateCache.Job

/-!
# Jobs that run alone

`Alone` says what a job ensures with which nobody interferes: while it waits, the clock goes on and
nothing else happens. What it says holds of what `Job.finish` returns. `Succeeds` is the same for
operations that may fail, about success only. `Under` is a contract that does not depend on the
state in which the job begins, but on an invariant that all of its steps keep.
-/

namespace TemplateCache.Job

variable {σ τ α β ε : Type} [Clocked σ] [Clocked τ]

def Alone (ok : α → σ → Prop) : Job σ α → σ → Prop
  | .done x, s => ok x s
  | .act update next, s => (next s).Alone ok (update s)
  | .wait _ next, s => next.Alone ok s ∧ ∀ clock, next.Alone ok (Clocked.setClock clock s)
  | .pause next, s => next.Alone ok s

section

variable {ok : α → σ → Prop} {s t : σ} {job : Job σ α} {x : α}

theorem Alone.finish (h : job.Alone ok s) (ends : job.finish s = some (x, t)) : ok x t := by
  induction job generalizing s with
  | done y =>
      cases ends
      exact h
  | act update next ih => exact ih s h ends
  | wait event next ih =>
      unfold Job.finish at ends
      split at ends
      · exact ih h.1 ends
      · split at ends
        · exact nomatch ends
        · exact ih (h.2 _) ends
  | pause next ih => exact ih h ends

theorem Alone.mono {ok' : α → σ → Prop} (imp : ∀ {x t}, ok x t → ok' x t)
    (h : job.Alone ok s) : job.Alone ok' s := by
  induction job generalizing s with
  | done y => exact imp h
  | act update next ih => exact ih s h
  | wait event next ih => exact ⟨ih h.1, fun clock => ih (h.2 clock)⟩
  | pause next ih => exact ih h

theorem alone_any (job : Job σ α) (all : ∀ x t, ok x t) : job.Alone ok s := by
  induction job generalizing s with
  | done y => exact all y s
  | act update next ih => exact ih s
  | wait event next ih => exact ⟨ih, fun clock => ih⟩
  | pause next ih => exact ih

theorem Alone.bind {ok : β → σ → Prop} {f : α → Job σ β}
    (h : job.Alone (fun x t => (f x).Alone ok t) s) : (job.bind f).Alone ok s := by
  induction job generalizing s with
  | done y => exact h
  | act update next ih => exact ih s h
  | wait event next ih => exact ⟨ih h.1, fun clock => ih (h.2 clock)⟩
  | pause next ih => exact ih h

theorem Alone.on {part : Part σ τ} {t : τ} (getSet : ∀ x t, part.get (part.set x t) = x)
    (getClock : ∀ clock t, part.get (Clocked.setClock clock t) =
      Clocked.setClock clock (part.get t))
    (h : job.Alone ok (part.get t)) : (job.on part).Alone (fun x t => ok x (part.get t)) t := by
  induction job generalizing t with
  | done y => exact h
  | act update next ih =>
      refine ih (part.get t) ?_
      rw [getSet]
      exact h
  | wait event next ih =>
      refine ⟨ih h.1, fun clock => ih ?_⟩
      rw [getClock]
      exact h.2 clock
  | pause next ih => exact ih h

/-- A bound only makes a job fail earlier. -/
theorem Alone.boundedBy {ok : Except StoreError α → σ → Prop} {token : Token}
    {operation : String} {deadline : Option Nat} {job : Job σ (Except StoreError α)}
    (failed : ∀ e t, ok (.error e) t) (h : job.Alone ok s) :
    (job.boundedBy token operation deadline).Alone ok s := by
  induction job generalizing s with
  | done y => exact h
  | act update next ih => exact ih s h
  | wait event next ih =>
      have resumed {u : σ} (rest : next.Alone ok u) :
          (if isCancelled token u then done (.error (.cancelled operation))
            else if event.isOver u then next.boundedBy token operation deadline
            else done (.error (timeoutError operation token))).Alone ok u := by
        split
        · exact failed _ u
        · split
          · exact ih rest
          · exact failed _ u
      exact ⟨resumed h.1, fun clock => resumed (h.2 clock)⟩
  | pause next ih =>
      show (if isPast deadline s then _ else _ : Job σ _).Alone ok s
      split
      · exact failed _ s
      · show (if isCancelled token s then _ else _ : Job σ _).Alone ok s
        split
        · exact failed _ s
        · exact ih h

theorem Alone.within {ok : Except StoreError α → σ → Prop} {token : Token}
    {operation : String} {job : Job σ (Except StoreError α)}
    (failed : ∀ e t, ok (.error e) t) (h : job.Alone ok s) :
    (job.within token operation).Alone ok s := by
  show (if isCancelled token s then _ else _ : Job σ _).Alone ok s
  split
  · exact failed _ s
  · exact h.boundedBy failed

end

/-! ## Operations that may fail -/

/-- If an operation that runs alone succeeds, its value and the state are `ok`. -/
def Succeeds (x : ExceptT ε (Job σ) α) (ok : α → σ → Prop) (s : σ) : Prop :=
  x.run.Alone (fun r t => ∀ v, r = .ok v → ok v t) s

section

variable {ok : α → σ → Prop} {s t : σ} {x : ExceptT ε (Job σ) α} {v : α}

theorem Succeeds.finish (h : Succeeds x ok s) (ends : x.run.finish s = some (.ok v, t)) :
    ok v t := Alone.finish h ends v rfl

theorem Succeeds.mono {ok' : α → σ → Prop} (imp : ∀ {v t}, ok v t → ok' v t)
    (h : Succeeds x ok s) : Succeeds x ok' s :=
  Alone.mono (fun fine v same => imp (fine v same)) h

theorem Succeeds.bind {ok : β → σ → Prop} {f : α → ExceptT ε (Job σ) β}
    (h : Succeeds x (fun v t => Succeeds (f v) ok t) s) : Succeeds (x >>= f) ok s := by
  refine Alone.bind (f := ExceptT.bindCont f) (Alone.mono (fun {r t} fine => ?_) h)
  cases r with
  | ok v => exact fine v rfl
  | error e => exact fun _ => nofun

theorem alone_lift {job : Job σ α} {ok : Except ε α → σ → Prop}
    (h : job.Alone (fun v t => ok (.ok v) t) s) :
    (ExceptT.lift job : ExceptT ε (Job σ) α).run.Alone ok s :=
  Alone.bind (f := fun v => Job.done (.ok v : Except ε α)) h

/-- With failures, each part of an operation is judged on its own too. -/
theorem Alone.bindExcept {ok : Except ε β → σ → Prop} {f : α → ExceptT ε (Job σ) β}
    (h : x.run.Alone (fun r t =>
      match r with
      | .ok v => (f v).run.Alone ok t
      | .error e => ok (.error e) t) s) : (x >>= f).run.Alone ok s := by
  refine Alone.bind (f := ExceptT.bindCont f) (h.mono fun {r t} fine => ?_)
  cases r with
  | ok v => exact fine
  | error e => exact fine

/-- What holds of the state alone, holds whatever becomes of the value. -/
theorem Alone.mapExcept {ok : σ → Prop} {f : α → β} (h : x.run.Alone (fun _ => ok) s) :
    (f <$> x).run.Alone (fun _ => ok) s := by
  refine Alone.bind (h.mono fun {r t} fine => ?_)
  cases r with
  | ok v => exact fine
  | error e => exact fine

theorem succeeds_pure (h : ok v s) : Succeeds (pure v : ExceptT ε (Job σ) α) ok s := by
  rintro w ⟨⟩
  exact h

theorem succeeds_throw (e : ε) : Succeeds (throw e : ExceptT ε (Job σ) α) ok s := fun _ => nofun

theorem succeeds_lift {job : Job σ α} (h : job.Alone ok s) :
    Succeeds (ExceptT.lift job : ExceptT ε (Job σ) α) ok s := by
  refine Alone.bind (f := fun v => Job.done (.ok v : Except ε α)) (h.mono fun fine => ?_)
  rintro v ⟨⟩
  exact fine

end

/-! ## Invariants -/

/-- Every step of a job keeps an invariant, and where it holds the value of the job is good. -/
def Under (inv : σ → Prop) (good : α → Prop) : Job σ α → Prop
  | .done x => good x
  | .act update next => ∀ s, inv s → inv (update s) ∧ (next s).Under inv good
  | .wait _ next => next.Under inv good
  | .pause next => next.Under inv good

/-- Under an invariant, an operation that succeeds has a good value. -/
def Yields (inv : σ → Prop) (good : α → Prop) (x : ExceptT ε (Job σ) α) : Prop :=
  x.run.Under inv fun r => ∀ v, r = .ok v → good v

section

variable {inv : σ → Prop} {good : α → Prop} {job : Job σ α} {x : ExceptT ε (Job σ) α} {s : σ}

theorem Under.alone (passes : ∀ clock s, inv s → inv (Clocked.setClock clock s))
    (h : job.Under inv good) (start : inv s) : job.Alone (fun x t => inv t ∧ good x) s := by
  induction job generalizing s with
  | done y => exact ⟨start, h⟩
  | act update next ih => exact ih s (h s start).2 (h s start).1
  | wait event next ih => exact ⟨ih h start, fun clock => ih h (passes clock s start)⟩
  | pause next ih => exact ih h start

theorem Yields.succeeds (passes : ∀ clock s, inv s → inv (Clocked.setClock clock s))
    (h : Yields inv good x) (start : inv s) : Succeeds x (fun v _ => good v) s :=
  (Under.alone passes h start).mono fun fine => fine.2

/-- A bound only makes a job fail earlier. -/
theorem Under.boundedBy {good : Except StoreError α → Prop} {token : Token} {operation : String}
    {deadline : Option Nat} {job : Job σ (Except StoreError α)} (failed : ∀ e, good (.error e))
    (h : job.Under inv good) : (job.boundedBy token operation deadline).Under inv good := by
  induction job with
  | done y => exact h
  | act update next ih => exact fun s holds => ⟨(h s holds).1, ih s (h s holds).2⟩
  | wait event next ih =>
      intro s holds
      refine ⟨holds, ?_⟩
      dsimp only
      split
      · exact failed _
      · split
        · exact ih h
        · exact failed _
  | pause next ih =>
      intro s holds
      refine ⟨holds, ?_⟩
      dsimp only
      split
      · exact failed _
      · intro u holds
        refine ⟨holds, ?_⟩
        dsimp only
        split
        · exact failed _
        · exact ih h

theorem Yields.within {token : Token} {operation : String} {x : ExceptT StoreError (Job σ) α}
    (h : Yields inv good x) :
    (Job.within token operation x.run).Under inv fun r => ∀ v, r = .ok v → good v := by
  intro s holds
  refine ⟨holds, ?_⟩
  dsimp only
  split
  · exact fun _ => nofun
  · exact Under.boundedBy (fun _ _ => nofun) h

end

section

omit [Clocked σ]

variable {inv : σ → Prop} {good : α → Prop} {good' : β → Prop} {job : Job σ α}
  {x : ExceptT ε (Job σ) α}

theorem Under.mono {weaker : α → Prop} (imp : ∀ {x}, good x → weaker x) (h : job.Under inv good) :
    job.Under inv weaker := by
  induction job with
  | done y => exact imp h
  | act update next ih => exact fun s holds => ⟨(h s holds).1, ih s (h s holds).2⟩
  | wait event next ih => exact ih h
  | pause next ih => exact ih h

theorem under_any : job.Under (fun _ => True) fun _ => True := by
  induction job with
  | done x => trivial
  | act update next ih => exact fun s _ => ⟨trivial, ih s⟩
  | wait event next ih => exact ih
  | pause next ih => exact ih

theorem Under.bind {f : α → Job σ β} (h : job.Under inv good)
    (hf : ∀ v, good v → (f v).Under inv good') : (job.bind f).Under inv good' := by
  induction job with
  | done y => exact hf y h
  | act update next ih => exact fun s holds => ⟨(h s holds).1, ih s (h s holds).2⟩
  | wait event next ih => exact ih h
  | pause next ih => exact ih h

omit [Clocked τ] in
/-- A job on a part of the state keeps an invariant that only its part bears upon. -/
theorem Under.on {part : Part σ τ} {inv' : τ → Prop} (holds : ∀ t, inv' t → inv (part.get t))
    (works : ∀ x t, inv x → inv' t → inv' (part.set x t)) (h : job.Under inv good) :
    (job.on part).Under inv' good := by
  induction job with
  | done x => exact h
  | act update next ih =>
      intro t start
      obtain ⟨kept, rest⟩ := h (part.get t) (holds t start)
      exact ⟨works _ t kept start, ih (part.get t) rest⟩
  | wait event next ih => exact ih h
  | pause next ih => exact ih h

theorem Under.mapM {good : α → β → Prop} {f : α → Job σ β} {l : List α}
    (hf : ∀ x ∈ l, (f x).Under inv (good x)) :
    (l.mapM f).Under inv fun ys => ∀ y ∈ ys, ∃ x ∈ l, good x y := by
  suffices loop : ∀ (rest : List α) (made : List β), (∀ x ∈ rest, x ∈ l) →
      (∀ y ∈ made, ∃ x ∈ l, good x y) →
      (List.mapM.loop f rest made).Under inv fun ys => ∀ y ∈ ys, ∃ x ∈ l, good x y from
    loop l [] (fun _ => id) fun _ none => absurd none List.not_mem_nil
  -- The loop collects its results in `made`, in reverse.
  intro rest
  induction rest with
  | nil => exact fun made _ fine y there => fine y (List.mem_reverse.1 there)
  | cons x rest ih =>
      intro made inside fine
      obtain ⟨here, later⟩ := List.forall_mem_cons.1 inside
      refine (hf x here).bind fun y is => ih (y :: made) later ?_
      exact List.forall_mem_cons.2 ⟨⟨x, here, is⟩, fine⟩

theorem Yields.mono {weaker : α → Prop} (imp : ∀ {v}, good v → weaker v) (h : Yields inv good x) :
    Yields inv weaker x :=
  Under.mono (fun fine v same => imp (fine v same)) h

theorem Yields.bind {f : α → ExceptT ε (Job σ) β} (h : Yields inv good x)
    (hf : ∀ v, good v → Yields inv good' (f v)) : Yields inv good' (x >>= f) := by
  refine Under.bind (f := ExceptT.bindCont f) h fun r fine => ?_
  cases r with
  | ok v => exact hf v (fine v rfl)
  | error e => exact fun _ => nofun

/-- Where it does not matter what the first operation returns. -/
theorem Yields.seq {f : α → ExceptT ε (Job σ) β} (h : Yields inv (fun _ => True) x)
    (hf : ∀ v, Yields inv good' (f v)) : Yields inv good' (x >>= f) := h.bind fun v _ => hf v

theorem Yields.mapM {f : α → ExceptT ε (Job σ) β} (hf : ∀ x, Yields inv (fun _ => True) (f x))
    (l : List α) : Yields inv (fun _ => True) (l.mapM f) := by
  suffices loop : ∀ made, Yields inv (fun _ => True) (List.mapM.loop f l made) from loop []
  induction l with
  | nil => exact fun made _ _ => trivial
  | cons x rest ih => exact fun made => (hf x).seq fun y => ih (y :: made)

theorem yields_pure {v : α} (h : good v) : Yields inv good (pure v : ExceptT ε (Job σ) α) := by
  rintro w ⟨⟩
  exact h

theorem yields_throw (e : ε) : Yields inv good (throw e : ExceptT ε (Job σ) α) := fun _ => nofun

theorem yields_lift (h : job.Under inv good) :
    Yields inv good (ExceptT.lift job : ExceptT ε (Job σ) α) := by
  refine Under.bind (f := fun v => Job.done (.ok v : Except ε α)) h fun v fine => ?_
  rintro w ⟨⟩
  exact fine

end
end TemplateCache.Job
