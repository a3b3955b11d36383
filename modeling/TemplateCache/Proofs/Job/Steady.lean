import TemplateCache.Proofs.Job.Finish
import TemplateCache.Proofs.Job.Plan

/-!
# Steady jobs

A steady job waits for nothing but the clock and its turn, so alone it comes to an end, and each of
its steps is a `change`. Both are properties of the program and not of a run, so they are proved
together, in one walk through an operation.
-/

namespace TemplateCache.Job

variable {σ τ α β ε : Type}

structure Steady (change : σ → σ → Prop) (job : Job σ α) : Prop where
  timed : job.Timed
  keeps : job.Keeps change

section

variable {change : σ → σ → Prop} {job : Job σ α}

theorem steady_pure (x : α) : (pure x : Job σ α).Steady change := ⟨trivial, keeps_pure x⟩

theorem Steady.bind {f : α → Job σ β} (h : job.Steady change) (hf : ∀ x, (f x).Steady change) :
    (job.bind f).Steady change :=
  ⟨h.timed.bind fun x => (hf x).timed, h.keeps.bind fun x => (hf x).keeps⟩

theorem Steady.bindExcept {x : ExceptT ε (Job σ) α} {f : α → ExceptT ε (Job σ) β}
    (h : x.run.Steady change) (hf : ∀ v, (f v).run.Steady change) :
    (x >>= f).run.Steady change :=
  ⟨h.timed.bindExcept fun v => (hf v).timed, h.keeps.bindExcept fun v => (hf v).keeps⟩

theorem steady_returns (r : Except ε α) :
    (ExceptT.mk (pure r) : ExceptT ε (Job σ) α).run.Steady change := steady_pure r

theorem steady_throw (e : ε) : (throw e : ExceptT ε (Job σ) α).run.Steady change := steady_pure _

theorem steady_lift (h : job.Steady change) :
    (ExceptT.lift job : ExceptT ε (Job σ) α).run.Steady change :=
  Steady.bind (f := fun v => Job.done (.ok v : Except ε α)) h fun _ => steady_pure _

theorem Steady.mapExcept {x : ExceptT ε (Job σ) α} {f : α → β} (h : x.run.Steady change) :
    (f <$> x).run.Steady change := by
  refine Steady.bind h fun r => ?_
  cases r with
  | ok v => exact steady_pure _
  | error e => exact steady_pure _

theorem steady_modifyGet {f : σ → α × σ} (h : ∀ s, change s (f s).2) :
    (modifyGet f).Steady change := ⟨fun _ => trivial, keeps_modifyGet h⟩

theorem steady_yield : (yield : Job σ Unit).Steady change := ⟨trivial, fun _ _ => trivial⟩

theorem Steady.within [Clocked σ] {job : Job σ (Except StoreError α)} (same : ∀ s, change s s)
    (h : job.Steady change) (token : Token) (operation : String) :
    (job.within token operation).Steady change :=
  ⟨h.timed.within, fun s => (h.keeps s).within same fun _ _ => trivial⟩

theorem steady_sleep [Clocked σ] (same : ∀ s, change s s) (ms : Nat) :
    (sleep ms : Job σ Unit).Steady change := ⟨timed_sleep ms, fun s => ⟨same s, fun _ => trivial⟩⟩

theorem Steady.on {change' : τ → τ → Prop} {part : Part σ τ} (h : job.Steady change)
    (getSet : ∀ x t, part.get (part.set x t) = x)
    (works : ∀ t x, change (part.get t) x → change' t (part.set x t)) :
    (job.on part).Steady change' := ⟨h.timed.on, h.keeps.on getSet works⟩

end

end TemplateCache.Job
