import Mathlib.Data.Option.Basic
import TemplateCache.Proofs.Job.Finish

/-!
# Jobs in lockstep

Two jobs are in lockstep under a relation of states if they take the same steps: from related states
each step of both leads to related states again, they wait for the same, and their values are `fine`
together. Then it makes no difference to how they run which of two related states they begin in, and
a bound ends both at the same time.
-/

namespace TemplateCache.Job

variable {σ α β ε : Type}

inductive Lockstep (same : σ → σ → Prop) (fine : α → α → Prop) : Job σ α → Job σ α → Prop where
  | done {x x' : α} (both : fine x x') : Lockstep same fine (done x) (done x')
  | act {update update' : σ → σ} {next next' : σ → Job σ α}
      (keeps : ∀ s s', same s s' → same (update s) (update' s'))
      (rest : ∀ s s', same s s' → Lockstep same fine (next s) (next' s')) :
      Lockstep same fine (act update next) (act update' next')
  | wait {event event' : Wait σ} {next next' : Job σ α} (deadline : event'.deadline = event.deadline)
      (ready : ∀ s s', same s s' → event'.ready s' = event.ready s)
      (rest : Lockstep same fine next next') :
      Lockstep same fine (wait event next) (wait event' next')
  | pause {next next' : Job σ α} (rest : Lockstep same fine next next') :
      Lockstep same fine (pause next) (pause next')

/-- Related states have one time, and go on with it together. -/
structure Timely [Clocked σ] (same : σ → σ → Prop) : Prop where
  clock : ∀ {s s'}, same s s' → Clocked.clock s' = Clocked.clock s
  passes : ∀ {s s'} clock, same s s' → same (Clocked.setClock clock s) (Clocked.setClock clock s')

/-- Two runs come to values that are `fine` together and to related states, or to no end both. -/
def Meet (same : σ → σ → Prop) (fine : α → α → Prop) : Option (α × σ) → Option (α × σ) → Prop :=
  Option.Rel fun p p' => fine p.1 p'.1 ∧ same p.2 p'.2

section

variable {same : σ → σ → Prop} {fine : α → α → Prop} {fine' : β → β → Prop} {job job' : Job σ α}
  {s s' : σ}

theorem Lockstep.mono {weaker : α → α → Prop} (imp : ∀ {x x'}, fine x x' → weaker x x')
    (h : Lockstep same fine job job') : Lockstep same weaker job job' := by
  induction h with
  | done both => exact .done (imp both)
  | act keeps rest ih => exact .act keeps ih
  | wait deadline ready rest ih => exact .wait deadline ready ih
  | pause rest ih => exact .pause ih

theorem Lockstep.bind {f g : α → Job σ β} (h : Lockstep same fine job job')
    (hf : ∀ x x', fine x x' → Lockstep same fine' (f x) (g x')) :
    Lockstep same fine' (job.bind f) (job'.bind g) := by
  induction h with
  | done both => exact hf _ _ both
  | act keeps rest ih => exact .act keeps ih
  | wait deadline ready rest ih => exact .wait deadline ready ih
  | pause rest ih => exact .pause ih

/-- Operations whose outcomes are the same fail together. -/
theorem Lockstep.bindExcept {fine' : Except ε β → Except ε β → Prop}
    {x y : ExceptT ε (Job σ) α} {f g : α → ExceptT ε (Job σ) β} (h : Lockstep same Eq x.run y.run)
    (hf : ∀ v, Lockstep same fine' (f v).run (g v).run)
    (failed : ∀ e, fine' (.error e) (.error e)) :
    Lockstep same fine' (x >>= f).run (y >>= g).run := by
  apply Lockstep.bind (f := ExceptT.bindCont f) (g := ExceptT.bindCont g) h
  rintro r _ rfl
  cases r with
  | ok v => exact hf v
  | error e => exact .done (failed e)

theorem lockstep_pure (r : Except ε α) :
    Lockstep same Eq (done r : Job σ (Except ε α)) (done r) := .done rfl

theorem lockstep_modifyGet {f g : σ → α × σ} (h : ∀ s s', same s s' → fine (f s).1 (g s').1 ∧
    same (f s).2 (g s').2) : Lockstep same fine (modifyGet f) (modifyGet g) :=
  .act (fun s s' rel => (h s s' rel).2) fun s s' rel => .done (h s s' rel).1

theorem lockstep_lift (h : Lockstep same Eq job job') :
    Lockstep same Eq (ExceptT.lift job : ExceptT ε (Job σ) α).run (ExceptT.lift job').run :=
  h.bind (f := fun v => Job.done (.ok v : Except ε α)) (g := fun v => Job.done (.ok v))
    fun _ _ both => .done (congrArg Except.ok both)

section

variable [Clocked σ] (timely : Timely same)
include timely

theorem lockstep_sleep (ms : Nat) : Lockstep same Eq (sleep ms : Job σ Unit) (sleep ms) :=
  .act (fun _ _ rel => rel) fun _ _ rel =>
    .wait (by rw [timely.clock rel]) (fun _ _ _ => rfl) (.done rfl)

theorem Timely.isCancelled (rel : same s s') (token : Token) :
    Job.isCancelled token s' = Job.isCancelled token s := by
  unfold Job.isCancelled
  rw [timely.clock rel]

theorem Timely.isOver (rel : same s s') {event event' : Wait σ}
    (deadline : event'.deadline = event.deadline)
    (ready : ∀ s s', same s s' → event'.ready s' = event.ready s) :
    event'.isOver s' = event.isOver s := by
  unfold Wait.isOver
  rw [timely.clock rel, deadline, ready s s' rel]

theorem Lockstep.finish (h : Lockstep same fine job job') (rel : same s s') :
    Meet same fine (job.finish s) (job'.finish s') := by
  induction h generalizing s s' with
  | done both => exact .some ⟨both, rel⟩
  | act keeps rest ih => exact ih s s' rel (keeps s s' rel)
  | @wait event event' next next' deadline ready rest ih =>
      simp only [Job.finish, timely.isOver rel deadline ready, deadline, timely.clock rel]
      split
      · exact ih rel
      · cases event.deadline with
        | none => exact .none
        | some time => exact ih (timely.passes _ rel)
  | pause rest ih => exact ih rel

end

end

section

variable [Clocked σ] {same : σ → σ → Prop} {fine : Except StoreError α → Except StoreError α → Prop}
  {job job' : Job σ (Except StoreError α)} {token : Token} {operation : String}

/-- A bound ends both jobs or none. -/
theorem Lockstep.boundedBy (timely : Timely same) (failed : ∀ e, fine (.error e) (.error e))
    (h : Lockstep same fine job job') (deadline : Option Nat) :
    Lockstep same fine (job.boundedBy token operation deadline)
      (job'.boundedBy token operation deadline) := by
  induction h with
  | done both => exact .done both
  | act keeps rest ih => exact .act keeps ih
  | wait first ready rest ih =>
      apply Lockstep.wait
      · rw [first]
      · intro s s' rel
        dsimp only
        rw [ready s s' rel, timely.isCancelled rel]
      · apply Lockstep.act (fun _ _ rel => rel)
        intro s s' rel
        rw [timely.isCancelled rel, timely.isOver rel first ready]
        split
        · exact .done (failed _)
        · split
          · exact ih
          · exact .done (failed _)
  | pause rest ih =>
      apply Lockstep.act (fun _ _ rel => rel)
      intro s s' rel
      have past : isPast deadline s' = isPast deadline s := by
        unfold isPast
        rw [timely.clock rel]
      rw [past]
      split
      · exact .done (failed _)
      · apply Lockstep.pause
        apply Lockstep.act (fun _ _ rel => rel)
        intro u u' rel
        rw [timely.isCancelled rel]
        split
        · exact .done (failed _)
        · exact ih

theorem Lockstep.within (timely : Timely same) (failed : ∀ e, fine (.error e) (.error e))
    (h : Lockstep same fine job job') :
    Lockstep same fine (job.within token operation) (job'.within token operation) := by
  apply Lockstep.act (fun _ _ rel => rel)
  intro s s' rel
  dsimp only
  rw [timely.isCancelled rel, timely.clock rel]
  split
  · exact .done (failed _)
  · exact h.boundedBy timely failed _

end

/-! ## Runs that meet -/

theorem Meet.map {τ : Type} {same : σ → σ → Prop} {same' : τ → τ → Prop} {fine : α → α → Prop} {fine' : β → β → Prop}
    {o o' : Option (α × σ)} {f g : α × σ → β × τ} (h : Meet same fine o o')
    (hf : ∀ p p', fine p.1 p'.1 → same p.2 p'.2 →
      fine' (f p).1 (g p').1 ∧ same' (f p).2 (g p').2) :
    Meet same' fine' (o.map f) (o'.map g) := by
  cases h with
  | none => exact .none
  | some both => exact .some (hf _ _ both.1 both.2)

section

variable [Clocked σ] {same same' : σ → σ → Prop} {x y : ExceptT ε (Job σ) α}
  {f g : α → ExceptT ε (Job σ) β} {s s' : σ}

/-- Where two operations meet in one outcome, both fail or both go on. -/
theorem Meet.bindExcept (h : Meet same Eq (x.run.finish s) (y.run.finish s'))
    (weaker : ∀ {t t'}, same t t' → same' t t')
    (rest : ∀ v t t', x.run.finish s = some (.ok v, t) → y.run.finish s' = some (.ok v, t') →
      same t t' → Meet same' Eq ((f v).run.finish t) ((g v).run.finish t')) :
    Meet same' Eq ((x >>= f).run.finish s) ((y >>= g).run.finish s') := by
  have first : (x >>= f).run.finish s = _ := finish_bind x.run (ExceptT.bindCont f) s
  have second : (y >>= g).run.finish s' = _ := finish_bind y.run (ExceptT.bindCont g) s'
  rw [first, second]
  cases ends : x.run.finish s with
  | none =>
      cases ends' : y.run.finish s' with
      | none => exact .none
      | some p' =>
          rw [ends, ends'] at h
          cases h
  | some p =>
      cases ends' : y.run.finish s' with
      | none =>
          rw [ends, ends'] at h
          cases h
      | some p' =>
          rcases p with ⟨r, t⟩
          rcases p' with ⟨r', t'⟩
          rw [ends, ends'] at h
          rcases h with ⟨rfl, rel⟩ | _
          cases r with
          | error e => exact .some ⟨rfl, weaker rel⟩
          | ok v => exact rest v t t' ends ends' rel

end

end TemplateCache.Job
