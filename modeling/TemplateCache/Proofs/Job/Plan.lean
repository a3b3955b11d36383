import Mathlib.Logic.Relation
import TemplateCache.Job

/-!
# Jobs that follow a plan

A plan describes jobs from outside: phases, what a phase may do to the state, and the phases and
states in which a stretch may end. `Follows` says that a job keeps to a plan whatever others do
between its stretches, so what a plan preserves, every interleaving preserves.

`Ensures` is the weaker contract of a job whose phases do not matter: how each of its updates
changes the state, and what holds of the state in which it ends.
-/

namespace TemplateCache.Job

variable {σ τ φ α β : Type}

structure Plan (σ φ : Type) where
  moves : φ → σ → φ → σ → Prop
  rests : φ → σ → Prop

namespace Plan

/-- Moves one after the other, with nothing in between. -/
inductive Path (p : Plan σ φ) (a : φ) (s : σ) : φ → σ → Prop where
  | refl : Path p a s a s
  | tail {b c : φ} {t u : σ} : Path p a s b t → p.moves b t c u → Path p a s c u

variable {p : Plan σ φ} {a b c : φ} {s t u : σ}

theorem Path.single (h : p.moves a s b t) : p.Path a s b t := .tail .refl h

theorem Path.trans (h : p.Path a s b t) (h' : p.Path b t c u) : p.Path a s c u := by
  induction h' with
  | refl => exact h
  | tail _ m ih => exact .tail ih m

/-- What every move keeps, a path keeps. -/
theorem Path.keeps (inv : φ → σ → Prop) (h : p.Path a s b t)
    (keep : ∀ {a b s t}, p.moves a s b t → inv a s → inv b t) : inv a s → inv b t := by
  induction h with
  | refl => exact id
  | tail _ m ih => exact fun start => keep m (ih start)

end Plan

section Plans

variable [Clocked σ]

/-- A job in a phase keeps to a plan, and ends with a value, phase and state that are `ok`. Between
its stretches the state may become any other one. -/
def Follows (p : Plan σ φ) (ok : α → φ → σ → Prop) : Job σ α → φ → σ → Prop
  | .done x, a, s => ∃ b, p.Path a s b s ∧ ok x b s
  | .act update next, a, s =>
    ∃ b, p.Path a s b (update s) ∧ (next s).Follows p ok b (update s)
  | .wait event next, a, s =>
    ∃ b, p.Path a s b s ∧ (∀ t, event.isOver t = false → p.rests b t) ∧
      ∀ t, event.isOver t = true → next.Follows p ok b t
  | .pause next, a, s => ∃ b, p.Path a s b s ∧ p.rests b s ∧ ∀ t, next.Follows p ok b t

variable {p : Plan σ φ} {ok : α → φ → σ → Prop} {a b : φ} {s t : σ} {job : Job σ α}

/-- Moves that do not change the state may come first. -/
theorem Follows.after (path : p.Path a s b s) (h : job.Follows p ok b s) :
    job.Follows p ok a s := by
  cases job with
  | done x =>
      obtain ⟨c, hp, hx⟩ := h
      exact ⟨c, path.trans hp, hx⟩
  | act update next =>
      obtain ⟨c, hp, hn⟩ := h
      exact ⟨c, path.trans hp, hn⟩
  | wait event next =>
      obtain ⟨c, hp, hr, hn⟩ := h
      exact ⟨c, path.trans hp, hr, hn⟩
  | pause next =>
      obtain ⟨c, hp, hr, hn⟩ := h
      exact ⟨c, path.trans hp, hr, hn⟩

theorem Follows.mono {ok' : α → φ → σ → Prop} (imp : ∀ {x b t}, ok x b t → ok' x b t)
    (h : job.Follows p ok a s) : job.Follows p ok' a s := by
  induction job generalizing a s with
  | done x =>
      obtain ⟨c, hp, hx⟩ := h
      exact ⟨c, hp, imp hx⟩
  | act update next ih =>
      obtain ⟨c, hp, hn⟩ := h
      exact ⟨c, hp, ih s hn⟩
  | wait event next ih =>
      obtain ⟨c, hp, hr, hn⟩ := h
      exact ⟨c, hp, hr, fun t passed => ih (hn t passed)⟩
  | pause next ih =>
      obtain ⟨c, hp, hr, hn⟩ := h
      exact ⟨c, hp, hr, fun t => ih (hn t)⟩

theorem Follows.bind {f : α → Job σ β} {ok' : β → φ → σ → Prop}
    (h : job.Follows p (fun x b t => (f x).Follows p ok' b t) a s) :
    (job.bind f).Follows p ok' a s := by
  induction job generalizing a s with
  | done x =>
      obtain ⟨c, hp, hx⟩ := h
      exact hx.after hp
  | act update next ih =>
      obtain ⟨c, hp, hn⟩ := h
      exact ⟨c, hp, ih s hn⟩
  | wait event next ih =>
      obtain ⟨c, hp, hr, hn⟩ := h
      exact ⟨c, hp, hr, fun t passed => ih (hn t passed)⟩
  | pause next ih =>
      obtain ⟨c, hp, hr, hn⟩ := h
      exact ⟨c, hp, hr, fun t => ih (hn t)⟩

/-- A job between its stretches: it has ended, or may rest in its phase and will keep to the plan
when it goes on. -/
def Rests (p : Plan σ φ) (ok : α → φ → Prop) : Job σ α → φ → Prop
  | .done x, a => ok x a
  | job, a => (∃ s, p.rests a s) ∧ ∀ s, (Task.unpaused job).Follows p (fun x b _ => ok x b) a s

/-- A stretch is a path of the plan, which goes on until the job may rest or has ended. -/
theorem Follows.advance {ok : α → φ → Prop} (h : job.Follows p (fun x b _ => ok x b) a s) :
    ∃ b, p.Path a s b (job.advance s).2 ∧ (job.advance s).1.Rests p ok b ∧
      ((∃ x, (job.advance s).1 = .done x) ∨ p.rests b (job.advance s).2) := by
  induction job generalizing a s with
  | done x =>
      obtain ⟨b, hp, hx⟩ := h
      exact ⟨b, hp, hx, .inl ⟨x, rfl⟩⟩
  | act update next ih =>
      obtain ⟨b, hp, hn⟩ := h
      obtain ⟨c, hc, hr⟩ := ih s hn
      exact ⟨c, hp.trans hc, hr⟩
  | wait event next ih =>
      obtain ⟨b, hp, hr, hn⟩ := h
      unfold Job.advance
      split
      · rename_i passed
        obtain ⟨c, hc, hl⟩ := ih (hn s passed)
        exact ⟨c, hp.trans hc, hl⟩
      · rename_i early
        have may : p.rests b s := hr s (by simpa using early)
        exact ⟨b, hp, ⟨⟨s, may⟩, fun t => ⟨b, .refl, hr, hn⟩⟩, .inr may⟩
  | pause next ih =>
      obtain ⟨b, hp, hr, hn⟩ := h
      exact ⟨b, hp, ⟨⟨s, hr⟩, hn⟩, .inr hr⟩

/-- A job that gets its turn goes on from where it rested. -/
theorem Rests.turn {ok : α → φ → Prop} (h : job.Rests p ok a) (s : σ) :
    ∃ b, p.Path a s b ((Task.unpaused job).advance s).2 ∧
      ((Task.unpaused job).advance s).1.Rests p ok b ∧
      ((∃ x, ((Task.unpaused job).advance s).1 = .done x) ∨
        p.rests b ((Task.unpaused job).advance s).2) := by
  cases job with
  | done x => exact ⟨a, .refl, h, .inl ⟨x, rfl⟩⟩
  | act update next => exact (h.2 s).advance
  | wait event next => exact (h.2 s).advance
  | pause next => exact (h.2 s).advance

end Plans

/-! ## Contracts -/

/-- Every update of a job is a `change`, and it ends in a value and a state that are `ok`, whatever
the state has become each time that it goes on. -/
def Ensures (change : σ → σ → Prop) (ok : α → σ → Prop) : Job σ α → σ → Prop
  | .done x, s => ok x s
  | .act update next, s => change s (update s) ∧ (next s).Ensures change ok (update s)
  | .wait _ next, _ => ∀ t, next.Ensures change ok t
  | .pause next, _ => ∀ t, next.Ensures change ok t

variable {change : σ → σ → Prop} {good : α → σ → Prop} {s : σ} {job : Job σ α}

theorem Ensures.mono {change' : σ → σ → Prop} {good' : α → σ → Prop}
    (weaker : ∀ {s t}, change s t → change' s t) (imp : ∀ {x s}, good x s → good' x s)
    (h : job.Ensures change good s) : job.Ensures change' good' s := by
  induction job generalizing s with
  | done x => exact imp h
  | act update next ih => exact ⟨weaker h.1, ih s h.2⟩
  | wait event next ih => exact fun t => ih (h t)
  | pause next ih => exact fun t => ih (h t)

theorem Ensures.bind {f : α → Job σ β} {good' : β → σ → Prop}
    (h : job.Ensures change (fun x t => (f x).Ensures change good' t) s) :
    (job.bind f).Ensures change good' s := by
  induction job generalizing s with
  | done x => exact h
  | act update next ih => exact ⟨h.1, ih s h.2⟩
  | wait event next ih => exact fun t => ih (h t)
  | pause next ih => exact fun t => ih (h t)

theorem Ensures.on {change' : τ → τ → Prop} {part : Part σ τ} {t : τ}
    (getSet : ∀ x t, part.get (part.set x t) = x)
    (works : ∀ t x, change (part.get t) x → change' t (part.set x t))
    (h : job.Ensures change good (part.get t)) :
    (job.on part).Ensures change' (fun x t => good x (part.get t)) t := by
  induction job generalizing t with
  | done x => exact h
  | act update next ih =>
      refine ⟨works t _ h.1, ih _ ?_⟩
      rw [getSet]
      exact h.2
  | wait event next ih => exact fun u => ih (h _)
  | pause next ih => exact fun u => ih (h _)

section

variable [Clocked σ]

theorem Ensures.boundedBy {good : Except StoreError α → σ → Prop} {token : Token}
    {operation : String} {deadline : Option Nat} {job : Job σ (Except StoreError α)}
    (same : ∀ t, change t t) (failed : ∀ e t, good (.error e) t)
    (h : job.Ensures change good s) :
    (job.boundedBy token operation deadline).Ensures change good s := by
  induction job generalizing s with
  | done x => exact h
  | act update next ih => exact ⟨h.1, ih s h.2⟩
  | wait event next ih =>
      intro t
      refine ⟨same t, ?_⟩
      simp only [id]
      split
      · exact failed _ t
      · split
        · exact ih (h t)
        · exact failed _ t
  | pause next ih =>
      refine ⟨same s, ?_⟩
      simp only [id]
      split
      · exact failed _ s
      · intro t
        refine ⟨same t, ?_⟩
        simp only [id]
        split
        · exact failed _ t
        · exact ih (h t)

theorem Ensures.within {good : Except StoreError α → σ → Prop} {token : Token}
    {operation : String} {job : Job σ (Except StoreError α)}
    (same : ∀ t, change t t) (failed : ∀ e t, good (.error e) t)
    (h : job.Ensures change good s) :
    (job.within token operation).Ensures change good s := by
  refine ⟨same s, ?_⟩
  simp only [id]
  split
  · exact failed _ s
  · exact h.boundedBy same failed

end

/-- Every update of a job is a `change`, from any state. -/
def Keeps (change : σ → σ → Prop) (job : Job σ α) : Prop :=
  ∀ s, job.Ensures change (fun _ _ => True) s

section

variable {ε : Type}

theorem Keeps.mono {change' : σ → σ → Prop} (weaker : ∀ {s t}, change s t → change' s t)
    (h : job.Keeps change) : job.Keeps change' := fun s => (h s).mono weaker id

theorem keeps_any (job : Job σ α) (all : ∀ s t, change s t) : job.Keeps change := by
  induction job with
  | done x => exact fun _ => trivial
  | act update next ih => exact fun s => ⟨all _ _, ih s _⟩
  | wait event next ih => exact fun _ t => ih t
  | pause next ih => exact fun _ t => ih t

theorem keeps_pure (x : α) : (pure x : Job σ α).Keeps change := fun _ => trivial

theorem Keeps.bind {f : α → Job σ β} (h : job.Keeps change) (hf : ∀ x, (f x).Keeps change) :
    (job.bind f).Keeps change :=
  fun s => Ensures.bind ((h s).mono id fun _ => hf _ _)

theorem keeps_modifyGet {f : σ → α × σ} (h : ∀ s, change s (f s).2) :
    (modifyGet f).Keeps change := fun s => ⟨h s, trivial⟩

theorem Keeps.mapM {f : α → Job σ β} (hf : ∀ x, (f x).Keeps change) (l : List α) :
    (l.mapM f).Keeps change := by
  suffices loop : ∀ made, (List.mapM.loop f l made).Keeps change from loop []
  induction l with
  | nil => exact fun made => keeps_pure _
  | cons x rest ih => exact fun made => (hf x).bind fun y => ih (y :: made)

theorem Keeps.on {change' : τ → τ → Prop} {part : Part σ τ} (h : job.Keeps change)
    (getSet : ∀ x t, part.get (part.set x t) = x)
    (works : ∀ t x, change (part.get t) x → change' t (part.set x t)) :
    (job.on part).Keeps change' :=
  fun t => (Ensures.on getSet works (h (part.get t))).mono id fun _ => trivial

theorem keeps_bindCont {f : α → ExceptT ε (Job σ) β} (hf : ∀ v, (f v).run.Keeps change)
    (r : Except ε α) : (ExceptT.bindCont f r).Keeps change := by
  cases r with
  | ok v => exact hf v
  | error e => exact fun _ => trivial

/-- With failures, each part of an operation is judged on its own too. -/
theorem Keeps.bindExcept {x : ExceptT ε (Job σ) α} {f : α → ExceptT ε (Job σ) β}
    (h : x.run.Keeps change) (hf : ∀ v, (f v).run.Keeps change) : (x >>= f).run.Keeps change :=
  Keeps.bind (f := ExceptT.bindCont f) h (keeps_bindCont hf)

theorem Keeps.mapExcept {x : ExceptT ε (Job σ) α} {f : α → β} (h : x.run.Keeps change) :
    (f <$> x).run.Keeps change := by
  refine Keeps.bind h fun r => ?_
  cases r with
  | ok v => exact keeps_pure _
  | error e => exact keeps_pure _

theorem keeps_throw (e : ε) : (throw e : ExceptT ε (Job σ) α).run.Keeps change := fun _ => trivial

theorem keeps_lift (h : job.Keeps change) :
    (ExceptT.lift job : ExceptT ε (Job σ) α).run.Keeps change :=
  Keeps.bind (f := fun v => Job.done (.ok v : Except ε α)) h fun _ _ => trivial

/-- A stretch makes changes only, and so does what is left of the job. -/
theorem Ensures.advance [Clocked σ] {good : α → σ → Prop} (h : job.Ensures change good s) :
    Relation.ReflTransGen change s (job.advance s).2 ∧ (job.advance s).1.Keeps change := by
  induction job generalizing s with
  | done x => exact ⟨.refl, fun _ => trivial⟩
  | act update next ih =>
      obtain ⟨reached, rest⟩ := ih s h.2
      exact ⟨reached.head h.1, rest⟩
  | wait event next ih =>
      unfold Job.advance
      split
      · exact ih (h s)
      · exact ⟨.refl, fun _ t => (h t).mono id fun _ => trivial⟩
  | pause next ih => exact ⟨.refl, fun _ t => (h t).mono id fun _ => trivial⟩

/-- A job that gets its turn goes on as it is. -/
theorem Keeps.unpaused (h : job.Keeps change) : (Task.unpaused job).Keeps change := by
  cases job with
  | pause next => exact fun s => h s s
  | done x => exact h
  | act update next => exact h
  | wait event next => exact h

end

/-- A job begins with an update, and every later one is a `change`. -/
def Begins (update : σ → σ) (change : σ → σ → Prop) (job : Job σ α) : Prop :=
  ∃ next, job = .act update next ∧ ∀ s, (next s).Keeps change

section

variable {update : σ → σ}

theorem Begins.bind {f : α → Job σ β} (h : job.Begins update change)
    (hf : ∀ x, (f x).Keeps change) : (job.bind f).Begins update change := by
  obtain ⟨next, rfl, rest⟩ := h
  exact ⟨_, rfl, fun s => (rest s).bind hf⟩

theorem Begins.bindExcept {ε : Type} {x : ExceptT ε (Job σ) α} {f : α → ExceptT ε (Job σ) β}
    (h : x.run.Begins update change) (hf : ∀ v, (f v).run.Keeps change) :
    (x >>= f).run.Begins update change :=
  Begins.bind (f := ExceptT.bindCont f) h (keeps_bindCont hf)

theorem Begins.mapExcept {ε : Type} {x : ExceptT ε (Job σ) α} {f : α → β}
    (h : x.run.Begins update change) : (f <$> x).run.Begins update change := by
  refine Begins.bind h fun r => ?_
  cases r with
  | ok v => exact keeps_pure _
  | error e => exact keeps_pure _

theorem Begins.keeps (h : job.Begins update change) (first : ∀ s, change s (update s)) :
    job.Keeps change := by
  obtain ⟨next, rfl, rest⟩ := h
  exact fun s => ⟨first s, rest s _⟩

theorem Begins.on {change' : τ → τ → Prop} {part : Part σ τ} (h : job.Begins update change)
    (getSet : ∀ x t, part.get (part.set x t) = x)
    (works : ∀ t x, change (part.get t) x → change' t (part.set x t)) :
    (job.on part).Begins (fun t => part.set (update (part.get t)) t) change' := by
  obtain ⟨next, rfl, rest⟩ := h
  exact ⟨_, rfl, fun t => (rest _).on getSet works⟩

/-- Its first stretch is the update and changes after it, and so is what is left of it. -/
theorem Begins.advance [Clocked σ] (h : job.Begins update change) (s : σ) :
    Relation.ReflTransGen change (update s) (job.advance s).2 ∧
      (job.advance s).1.Keeps change := by
  obtain ⟨next, rfl, rest⟩ := h
  exact (rest s (update s)).advance

end

/-- A job ends at once with a value, and changes nothing. -/
def AtOnce (x : α) : Job σ α → σ → Prop
  | .done y, _ => y = x
  | .act update next, s => update s = s ∧ (next s).AtOnce x s
  | .wait _ _, _ => False
  | .pause _, _ => False

theorem AtOnce.bind {f : α → Job σ β} {x : α} {y : β} (h : job.AtOnce x s)
    (hf : (f x).AtOnce y s) : (job.bind f).AtOnce y s := by
  induction job with
  | done z =>
      cases h
      exact hf
  | act update next ih => exact ⟨h.1, ih s h.2⟩
  | wait event next => exact h.elim
  | pause next => exact h.elim

/-- A job on a part of the state stays in a phase that allows for its changes. -/
theorem Ensures.follows [Clocked τ] {part : Part σ τ} {p : Plan τ φ} {a : φ}
    {ok : α → φ → τ → Prop} {s : τ}
    (getSet : ∀ x t, part.get (part.set x t) = x) (rest : ∀ t, p.rests a t)
    (works : ∀ t x, change (part.get t) x → p.Path a t a (part.set x t))
    (ends : ∀ x t, good x (part.get t) → ok x a t)
    (h : job.Ensures change good (part.get s)) : (job.on part).Follows p ok a s := by
  induction job generalizing s with
  | done x => exact ⟨a, .refl, ends x s h⟩
  | act update next ih =>
      refine ⟨a, works s _ h.1, ih _ ?_⟩
      rw [getSet]
      exact h.2
  | wait event next ih => exact ⟨a, .refl, fun t _ => rest t, fun t _ => ih (h _)⟩
  | pause next ih => exact ⟨a, .refl, rest s, fun t => ih (h _)⟩

theorem AtOnce.follows [Clocked τ] {part : Part σ τ} {p : Plan τ φ} {a : φ} {x : α}
    {ok : α → φ → τ → Prop} {s : τ} (setGet : ∀ t, part.set (part.get t) t = t)
    (ends : ok x a s) (h : job.AtOnce x (part.get s)) : (job.on part).Follows p ok a s := by
  induction job with
  | done y => exact ⟨a, .refl, h ▸ ends⟩
  | act update next ih =>
      obtain ⟨same, rest⟩ := h
      have back : part.set (update (part.get s)) s = s := by rw [same, setGet]
      refine ⟨a, ?_, ?_⟩
      · show p.Path a s a (part.set (update (part.get s)) s)
        rw [back]
        exact .refl
      · show ((next (part.get s)).on part).Follows p ok a (part.set (update (part.get s)) s)
        rw [back]
        exact ih _ rest
  | wait event next => exact h.elim
  | pause next => exact h.elim

end TemplateCache.Job
