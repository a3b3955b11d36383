import TemplateCache.Proofs.Job.Alone
import TemplateCache.Proofs.Job.Plan

/-!
# Jobs that run to completion

`Runs` relates the state in which a job begins to its value and the state in which it ends, while
others change the state each time that it waits or gives way. What every step of the job and every
change of the others preserves, holds in the end.
-/

namespace TemplateCache.Job

variable {σ φ α : Type} [Clocked σ] {others : σ → σ → Prop} {job : Job σ α} {s t : σ} {x : α}

inductive Runs (others : σ → σ → Prop) : Job σ α → σ → α → σ → Prop where
  | done {x : α} {s : σ} : Runs others (done x) s x s
  | act {update : σ → σ} {next : σ → Job σ α} {s t : σ} {x : α}
      (rest : Runs others (next s) (update s) x t) : Runs others (act update next) s x t
  | wait {event : Wait σ} {next : Job σ α} {s u t : σ} {x : α} (changed : others s u)
      (due : event.isOver u = true) (rest : Runs others next u x t) :
      Runs others (wait event next) s x t
  | pause {next : Job σ α} {s u t : σ} {x : α} (changed : others s u)
      (rest : Runs others next u x t) : Runs others (pause next) s x t

/-- A job that runs alone runs to completion where others may let time pass. -/
theorem runs_of_finish (nothing : ∀ s, others s s)
    (passes : ∀ clock s, others s (Clocked.setClock clock s))
    (clockSet : ∀ clock (s : σ), Clocked.clock (Clocked.setClock clock s) = clock)
    (ends : job.finish s = some (x, t)) : job.Runs others s x t := by
  induction job generalizing s with
  | done y =>
      cases ends
      exact .done
  | act update next ih => exact .act (ih s ends)
  | wait event next ih =>
      unfold Job.finish at ends
      split at ends
      · exact .wait (nothing s) ‹_› (ih ends)
      · split at ends
        · exact nomatch ends
        · rename_i deadline due
          refine .wait (passes _ s) ?_ (ih ends)
          simp [Wait.isOver, due, clockSet]
  | pause next ih => exact .pause (nothing s) (ih ends)

/-- Time goes by and tokens are cancelled, and nothing else happens. -/
def Passes (s t : σ) : Prop := ∃ clock, t = Clocked.setClock clock s

theorem runs_alone (same : ∀ s : σ, s = Clocked.setClock (Clocked.clock s) s)
    (clockSet : ∀ clock (s : σ), Clocked.clock (Clocked.setClock clock s) = clock)
    (ends : job.finish s = some (x, t)) : job.Runs Passes s x t :=
  runs_of_finish (fun s => ⟨Clocked.clock s, same s⟩) (fun clock _ => ⟨clock, rfl⟩) clockSet ends

theorem Runs.mono {others' : σ → σ → Prop} (weaker : ∀ {s t}, others s t → others' s t)
    (runs : job.Runs others s x t) : job.Runs others' s x t := by
  induction runs with
  | done => exact .done
  | act rest ih => exact .act ih
  | wait changed due rest ih => exact .wait (weaker changed) due ih
  | pause changed rest ih => exact .pause (weaker changed) ih

/-- A sequence of jobs runs its parts one after the other. -/
theorem Runs.of_bind {β : Type} {f : α → Job σ β} {y : β}
    (runs : (job.bind f).Runs others s y t) :
    ∃ x u, job.Runs others s x u ∧ (f x).Runs others u y t := by
  induction job generalizing s with
  | done x => exact ⟨x, s, .done, runs⟩
  | act update next ih =>
      cases runs with
      | act rest =>
          obtain ⟨x, u, first, second⟩ := ih s rest
          exact ⟨x, u, .act first, second⟩
  | wait event next ih =>
      cases runs with
      | wait changed due rest =>
          obtain ⟨x, u, first, second⟩ := ih rest
          exact ⟨x, u, .wait changed due first, second⟩
  | pause next ih =>
      cases runs with
      | pause changed rest =>
          obtain ⟨x, u, first, second⟩ := ih rest
          exact ⟨x, u, .pause changed first, second⟩

/-- Where an operation fails, what would follow does not run. -/
theorem Runs.of_bindExcept {β ε : Type} {x : ExceptT ε (Job σ) α} {f : α → ExceptT ε (Job σ) β}
    {r : Except ε β} (runs : (x >>= f).run.Runs others s r t) :
    (∃ v u, x.run.Runs others s (.ok v) u ∧ (f v).run.Runs others u r t) ∨
      ∃ e, x.run.Runs others s (.error e) t ∧ r = .error e := by
  obtain ⟨first, u, before, after⟩ := Runs.of_bind (f := ExceptT.bindCont f) runs
  cases first with
  | ok v => exact .inl ⟨v, u, before, after⟩
  | error e =>
      cases after
      exact .inr ⟨e, before, rfl⟩

/-- What succeeds in two steps, succeeds in each. -/
theorem Runs.of_bindOk {β ε : Type} {x : ExceptT ε (Job σ) α} {f : α → ExceptT ε (Job σ) β} {w : β}
    (runs : (x >>= f).run.Runs others s (.ok w) t) :
    ∃ v u, x.run.Runs others s (.ok v) u ∧ (f v).run.Runs others u (.ok w) t := by
  rcases runs.of_bindExcept with found | ⟨e, -, failed⟩
  · exact found
  · cases failed

theorem Runs.of_map {β ε : Type} {x : ExceptT ε (Job σ) α} {f : α → β} {r : Except ε β}
    (runs : (f <$> x).run.Runs others s r t) :
    ∃ found, x.run.Runs others s found t ∧ r = found.map f := by
  obtain ⟨found, u, before, after⟩ := Runs.of_bind runs
  refine ⟨found, ?_⟩
  cases found with
  | ok v =>
      cases after
      exact ⟨before, rfl⟩
  | error e =>
      cases after
      exact ⟨before, rfl⟩

/-- A job that cannot fail, run as an operation. -/
theorem Runs.of_lift {ε : Type} {r : Except ε α}
    (runs : (ExceptT.lift job : ExceptT ε (Job σ) α).run.Runs others s r t) :
    ∃ v, r = .ok v ∧ job.Runs others s v t := by
  obtain ⟨v, u, before, after⟩ := Runs.of_bind (f := fun v => Job.done (.ok v : Except ε α)) runs
  cases after
  exact ⟨v, rfl, before⟩

/-- Jobs that run to completion run to completion in a sequence. -/
theorem Runs.bind {β : Type} {f : α → Job σ β} {u : σ} {y : β} (first : job.Runs others s x u)
    (second : (f x).Runs others u y t) : (job.bind f).Runs others s y t := by
  induction first with
  | done => exact second
  | act rest ih => exact .act (ih second)
  | wait changed due rest ih => exact .wait changed due (ih second)
  | pause changed rest ih => exact .pause changed (ih second)

theorem Runs.bindOk {β ε : Type} {x : ExceptT ε (Job σ) α} {f : α → ExceptT ε (Job σ) β}
    {r : Except ε β} {v : α} {u : σ} (first : x.run.Runs others s (.ok v) u)
    (second : (f v).run.Runs others u r t) : (x >>= f).run.Runs others s r t :=
  Runs.bind (f := ExceptT.bindCont f) first second

theorem Runs.bindError {β ε : Type} {x : ExceptT ε (Job σ) α} {f : α → ExceptT ε (Job σ) β}
    {e : ε} (first : x.run.Runs others s (.error e) t) :
    (x >>= f).run.Runs others s (.error e) t :=
  Runs.bind (f := ExceptT.bindCont f) first .done

/-- What follows an operation may be exchanged where it runs alike. -/
theorem Runs.bindExcept_congr {β ε : Type} {x : ExceptT ε (Job σ) α}
    {f g : α → ExceptT ε (Job σ) β} {r : Except ε β}
    (alike : ∀ {v u}, x.run.Runs others s (.ok v) u →
      ((f v).run.Runs others u r t ↔ (g v).run.Runs others u r t)) :
    (x >>= f).run.Runs others s r t ↔ (x >>= g).run.Runs others s r t := by
  constructor
  · intro runs
    rcases runs.of_bindExcept with ⟨v, u, first, second⟩ | ⟨e, failed, rfl⟩
    · exact first.bindOk ((alike first).1 second)
    · exact failed.bindError
  · intro runs
    rcases runs.of_bindExcept with ⟨v, u, first, second⟩ | ⟨e, failed, rfl⟩
    · exact first.bindOk ((alike first).2 second)
    · exact failed.bindError

/-- Operations that run alike may be exchanged. -/
theorem Runs.congr_bindExcept {β ε : Type} {x y : ExceptT ε (Job σ) α}
    {f : α → ExceptT ε (Job σ) β} {r : Except ε β}
    (alike : ∀ {r u}, x.run.Runs others s r u ↔ y.run.Runs others s r u) :
    (x >>= f).run.Runs others s r t ↔ (y >>= f).run.Runs others s r t := by
  constructor
  · intro runs
    rcases runs.of_bindExcept with ⟨v, u, first, second⟩ | ⟨e, failed, rfl⟩
    · exact (alike.1 first).bindOk second
    · exact (alike.1 failed).bindError
  · intro runs
    rcases runs.of_bindExcept with ⟨v, u, first, second⟩ | ⟨e, failed, rfl⟩
    · exact (alike.2 first).bindOk second
    · exact (alike.2 failed).bindError

/-- A check ends a job, or lets it go on. -/
theorem Runs.of_check {ε : Type} {fails : σ → Bool} {e : ε} {next : σ → Job σ (Except ε α)}
    {r : Except ε α}
    (runs : (Job.act id fun s => if fails s then .done (.error e) else next s).Runs others s r t) :
    (next s).Runs others s r t ∨ r = .error e ∧ t = s := by
  cases runs with
  | act rest =>
      dsimp only [id] at rest
      split at rest
      · cases rest
        exact .inr ⟨rfl, rfl⟩
      · exact .inl rest

/-- How a bounded job ends early. -/
def EndsEarly (token : Token) (operation : String) (r : Except StoreError α) : Prop :=
  r = .error (.cancelled operation) ∨ r = .error (timeoutError operation token)

/-- A bounded job that does not end early has run to completion. -/
theorem Runs.of_boundedBy {job : Job σ (Except StoreError α)} {token : Token} {operation : String}
    {deadline : Option Nat} {r : Except StoreError α}
    (runs : (job.boundedBy token operation deadline).Runs others s r t) :
    job.Runs others s r t ∨ EndsEarly token operation r := by
  induction job generalizing s with
  | done y =>
      cases runs
      exact .inl .done
  | act update next ih =>
      cases runs with
      | act rest => exact (ih s rest).imp_left .act
  | wait event next ih =>
      cases runs with
      | wait changed due rest =>
          rcases rest.of_check with passed | ⟨early, -⟩
          · split at passed
            · exact (ih passed).imp_left (.wait changed ‹_›)
            · cases passed
              exact .inr (.inr rfl)
          · exact .inr (.inl early)
  | pause next ih =>
      rcases runs.of_check with passed | ⟨early, -⟩
      · cases passed with
        | pause changed rest =>
            rcases rest.of_check with passed | ⟨early, -⟩
            · exact (ih passed).imp_left (.pause changed)
            · exact .inr (.inl early)
      · exact .inr (.inr early)

theorem Runs.of_within {job : Job σ (Except StoreError α)} {token : Token} {operation : String}
    {r : Except StoreError α} (runs : (job.within token operation).Runs others s r t) :
    job.Runs others s r t ∨ EndsEarly token operation r := by
  rcases runs.of_check with passed | ⟨early, -⟩
  · exact passed.of_boundedBy
  · exact .inr (.inl early)

theorem Runs.of_withinOk {job : Job σ (Except StoreError α)} {token : Token} {operation : String}
    {v : α} (runs : (job.within token operation).Runs others s (.ok v) t) :
    job.Runs others s (.ok v) t := by
  rcases runs.of_within with passed | early | early
  · exact passed
  · cases early
  · cases early

/-- A job on a part of the state runs there as it does alone. -/
theorem Runs.of_on {τ : Type} [Clocked τ] {part : Part σ τ} {above : τ → τ → Prop} {u v : τ}
    (getSet : ∀ x t, part.get (part.set x t) = x)
    (clockGet : ∀ t, Clocked.clock t = Clocked.clock (part.get t))
    (seen : ∀ {u v}, above u v → others (part.get u) (part.get v))
    (runs : (job.on part).Runs above u x v) : job.Runs others (part.get u) x (part.get v) := by
  induction job generalizing u with
  | done y =>
      cases runs
      exact .done
  | act update next ih =>
      cases runs with
      | act rest =>
          have onward := ih _ rest
          rw [getSet] at onward
          exact .act onward
  | wait event next ih =>
      cases runs with
      | @wait _ _ _ w _ _ changed due rest =>
          refine .wait (seen changed) ?_ (ih rest)
          unfold Wait.isOver at due ⊢
          rw [clockGet] at due
          exact due
  | pause next ih =>
      cases runs with
      | pause changed rest => exact .pause (seen changed) (ih rest)

/-- What happens at once, others do not disturb. -/
theorem AtOnce.runs {y : α} (h : job.AtOnce y s) (runs : job.Runs others s x t) :
    x = y ∧ t = s := by
  induction runs with
  | done => exact ⟨h, rfl⟩
  | act rest ih =>
      obtain ⟨same, ends⟩ := ih (by rw [h.1]; exact h.2)
      exact ⟨same, ends.trans h.1⟩
  | wait changed due rest => exact h.elim
  | pause changed rest => exact h.elim

/-- An invariant that every step of a job and every change of the others keeps holds in the end,
and the value is good. -/
theorem Under.runs {inv : σ → Prop} {good : α → Prop} (h : job.Under inv good)
    (runs : job.Runs others s x t) (other : ∀ {s t}, others s t → inv s → inv t)
    (start : inv s) : inv t ∧ good x := by
  induction runs with
  | done => exact ⟨start, h⟩
  | act rest ih => exact ih (h _ start).2 (h _ start).1
  | wait changed due rest ih => exact ih h (other changed start)
  | pause changed rest ih => exact ih h (other changed start)

/-- A job that keeps to a plan ends in a phase of which the invariant holds. -/
theorem Follows.runs {p : Plan σ φ} {ok : α → φ → σ → Prop} {a : φ} (inv : φ → σ → Prop)
    (h : job.Follows p ok a s) (runs : job.Runs others s x t)
    (moves : ∀ {a b s t}, p.moves a s b t → inv a s → inv b t)
    (other : ∀ {a s t}, others s t → inv a s → inv a t) (start : inv a s) :
    ∃ b, inv b t ∧ ok x b t := by
  induction runs generalizing a with
  | done =>
      obtain ⟨b, path, fine⟩ := h
      exact ⟨b, path.keeps inv moves start, fine⟩
  | act rest ih =>
      obtain ⟨b, path, next⟩ := h
      exact ih next (path.keeps inv moves start)
  | wait changed due rest ih =>
      obtain ⟨b, path, -, next⟩ := h
      exact ih (next _ due) (other changed (path.keeps inv moves start))
  | pause changed rest ih =>
      obtain ⟨b, path, -, next⟩ := h
      exact ih (next _) (other changed (path.keeps inv moves start))

theorem Ensures.runs {change : σ → σ → Prop} {good : α → σ → Prop} (inv : σ → Prop)
    (h : job.Ensures change good s) (runs : job.Runs others s x t)
    (step : ∀ {s t}, change s t → inv s → inv t)
    (other : ∀ {s t}, others s t → inv s → inv t) (start : inv s) : inv t ∧ good x t := by
  induction runs with
  | done => exact ⟨start, h⟩
  | act rest ih => exact ih h.2 (step h.1 start)
  | wait changed due rest ih => exact ih (h _) (other changed start)
  | pause changed rest ih => exact ih (h _) (other changed start)

/-- What a job begins with is where the invariant has to hold first. -/
theorem Begins.runs {update : σ → σ} {change : σ → σ → Prop} (inv : σ → Prop)
    (h : job.Begins update change) (runs : job.Runs others s x t)
    (step : ∀ {s t}, change s t → inv s → inv t)
    (other : ∀ {s t}, others s t → inv s → inv t) (start : inv (update s)) : inv t := by
  obtain ⟨next, rfl, keeps⟩ := h
  cases runs with
  | act rest => exact ((keeps s (update s)).runs inv rest step other start).1

end TemplateCache.Job
