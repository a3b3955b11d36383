import TemplateCache.Proofs.Job.Alone
import TemplateCache.Proofs.Job.Runs
import TemplateCache.Proofs.Store.Lawful

/-!
# Writes take place as a whole

What a write does on its way to the medium leaves the overlay alone, and its last step puts the
record there at once. So a write that fails, at whichever point and for whatever reason, has not
touched the overlay, and one that succeeds has put there what the next read finds without asking the
medium.
-/

namespace TemplateCache

variable {π α ρ : Type}

/-- Others work on a site, and the store does what does not bear upon its overlay. -/
def Site.Around (others : Site π → Site π → Prop) : Site π → Site π → Prop :=
  Relation.ReflTransGen fun s t => others s t ∨ Site.SameOverlay s t

/-- What others leave alone, and what the overlay determines, is the same afterwards. -/
theorem Site.Around.same {others : Site π → Site π → Prop} {s t : Site π} {f : Site π → α}
    (h : Site.Around others s t) (kept : ∀ {s t}, others s t → f t = f s)
    (still : ∀ {s t}, Site.SameOverlay s t → f t = f s) : f t = f s := by
  induction h with
  | refl => rfl
  | tail _ step ih => exact (step.elim kept still).trans ih

namespace Storing

variable {others : Site π → Site π → Prop} {s t : Site π}

/-- Whoever else is at work, an operation puts one good record into the overlay, as its last step,
or fails and puts none. -/
def Commits (put : Overlay → ρ → Overlay) (good : ρ → Prop) (job : Storing π ρ) : Prop :=
  ∀ {others : Site π → Site π → Prop} {s t : Site π} {r : Except StoreError ρ},
    job.run.Runs others s r t →
    match r with
    | .error _ => Site.Around others s t
    | .ok record =>
      good record ∧ ∃ u, Site.Around others s u ∧ t = { u with overlay := put u.overlay record }

variable {put : Overlay → ρ → Overlay} {good : ρ → Prop}

theorem Still.around {job : Storing π α} {r : Except StoreError α} (h : job.Still)
    (runs : job.run.Runs others s r t) : Site.Around others s t :=
  ((h s).runs (Site.Around others s) runs (fun same reached => reached.tail (.inr same))
    (fun changed reached => reached.tail (.inl changed)) .refl).1

/-- Still steps may come first, and if one fails, the operation has failed. -/
theorem Still.commits {x : Storing π α} {f : α → Storing π ρ} (h : x.Still)
    (hf : ∀ v, (f v).Commits put good) : (x >>= f).Commits put good := by
  intro others s t r runs
  rcases runs.of_bindExcept with ⟨v, u, first, second⟩ | ⟨e, failed, rfl⟩
  · have before := h.around first
    have after := hf v second
    cases r with
    | error e => exact before.trans after
    | ok record =>
        obtain ⟨fine, w, reached, rfl⟩ := after
        exact ⟨fine, w, before.trans reached, rfl⟩
  · exact h.around failed

/-- What follows the resolution of a key need only be right for that key. -/
theorem commits_naming {named : Except NameError α} {f : α → Storing π ρ}
    (hf : ∀ v, named = .ok v → (f v).Commits put good) :
    (naming named >>= f).Commits put good := by
  cases named with
  | error e =>
      intro others s t r runs
      cases runs
      exact .refl
  | ok v => exact hf v rfl

theorem commits_keepContent {good : ContentRecord → Prop} {record : ContentRecord}
    (fine : good record) :
    (keepContent record : Storing π _).Commits Overlay.putContent good := by
  intro others s t r runs
  cases runs with
  | act rest =>
      cases rest
      exact ⟨fine, s, .refl, rfl⟩

theorem commits_keepCode {good : CodeRecord → Prop} {record : CodeRecord} (fine : good record) :
    (keepCode record : Storing π _).Commits Overlay.putCode good := by
  intro others s t r runs
  cases runs with
  | act rest =>
      cases rest
      exact ⟨fine, s, .refl, rfl⟩

end Storing

namespace Store

open Storing

/-- The writes of a store commit the records that they are for. -/
structure Commits (store : Store π) : Prop where
  writeContent : ∀ (address : Address) (content : Content) (token : Token),
    (store.writeContent address content token).Commits Overlay.putContent fun record =>
      ∃ key, address.key store.resolver .content = .ok key ∧
        record = writtenRecord address key content
  writeCode : ∀ (address : Address) (renderer : Renderer) (token : Token),
    (store.writeCode address renderer token).Commits Overlay.putCode fun record =>
      ∃ key, address.key store.resolver .code = .ok key ∧ record = ⟨key, address.name, renderer⟩

variable {resolver : Resolver}

theorem memory_commits : (memory resolver).Commits where
  writeContent _ _ _ :=
    commits_naming fun key named => commits_keepContent ⟨key, named, rfl⟩
  writeCode _ _ _ :=
    commits_naming fun key named => commits_keepCode ⟨key, named, rfl⟩

theorem delayed_commits (delay : Nat) : (delayed resolver delay).Commits :=
  have memory : (memory resolver).Commits := memory_commits
  { writeContent := memory.writeContent, writeCode := memory.writeCode }

open KeyValue in
theorem keyValue_commits (pageSize : Nat) : (keyValue resolver pageSize).Commits where
  writeContent address content token := by
    refine commits_naming fun key named => ?_
    refine ((still_put _ _ _).within _ _).commits fun _ => (still_remember _ _).commits fun _ => ?_
    exact commits_keepContent ⟨key, named, rfl⟩
  writeCode address renderer token := by
    refine commits_naming fun key named => ?_
    dsimp only
    split
    · exact commits_keepCode ⟨key, named, rfl⟩
    · refine ((still_put _ _ _).within _ _).commits fun _ => ?_
      refine (still_remember _ _).commits fun _ => ?_
      exact commits_keepCode ⟨key, named, rfl⟩

open Remote in
theorem remote_commits (r : Remote) : (remote r).Commits where
  writeContent address content token := by
    refine commits_naming fun key named => ?_
    generalize r.urlOf key = found
    refine (still_ofExcept _).commits fun url => ?_
    exact (still_post _ _ _ _ _).commits fun _ => commits_keepContent ⟨key, named, rfl⟩
  writeCode address renderer token := by
    refine commits_naming fun key named => ?_
    dsimp only
    split
    · exact commits_keepCode ⟨key, named, rfl⟩
    · generalize r.urlOf key = found
      refine (still_ofExcept _).commits fun url => (still_post _ _ _ _ _).commits fun _ => ?_
      exact commits_keepCode ⟨key, named, rfl⟩

open Files in
theorem files_commits (f : Sources) : (files f).Commits where
  writeContent address content token := by
    refine commits_naming fun key named => (still_outputRoot _).commits fun root => ?_
    refine ((still_writeText _ _ _).within _ _).commits fun _ => ?_
    exact commits_keepContent ⟨key, named, rfl⟩
  writeCode address renderer token := by
    refine commits_naming fun key named => ?_
    dsimp only
    split
    · exact commits_keepCode ⟨key, named, rfl⟩
    · refine (still_outputRoot _).commits fun root => ?_
      refine ((still_writeText _ _ _).within _ _).commits fun _ => ?_
      exact commits_keepCode ⟨key, named, rfl⟩

/-! ## Reading what was written -/

/-- A write of code returns the renderer that it was given, whatever others do before each of its
steps. -/
def Returns (store : Store π) : Prop :=
  ∀ address renderer token, Job.Yields (fun _ => True) (fun record => record.renderer = renderer)
    (store.writeCode address renderer token)

/-- Only the end of a write matters for what it returns. -/
theorem returns_after {good : ρ → Prop} {x : Storing π α} {f : α → Storing π ρ}
    (hf : ∀ v, Job.Yields (fun _ => True) good (f v)) :
    Job.Yields (fun _ => True) good (x >>= f) :=
  Job.Yields.seq (Job.Under.mono (fun _ _ _ => trivial) Job.under_any) hf

theorem returns_keepCode (key name : String) (renderer : Renderer) :
    Job.Yields (fun _ => True) (fun record => record.renderer = renderer)
      (keepCode ⟨key, name, renderer⟩ : Storing π CodeRecord) :=
  returns_after fun _ => Job.yields_pure rfl

theorem memory_returns : (memory resolver).Returns := fun _ _ _ =>
  returns_after fun _ => returns_keepCode _ _ _

theorem delayed_returns (delay : Nat) : (delayed resolver delay).Returns := memory_returns

theorem keyValue_returns (pageSize : Nat) : (keyValue resolver pageSize).Returns := by
  intro address renderer token
  refine returns_after fun key => ?_
  dsimp only
  split
  · exact returns_keepCode _ _ _
  · exact returns_after fun _ => returns_after fun _ => returns_keepCode _ _ _

theorem remote_returns (r : Remote) : (remote r).Returns := by
  intro address renderer token
  refine returns_after fun key => ?_
  dsimp only
  split
  · exact returns_keepCode _ _ _
  · generalize r.urlOf key = found
    exact returns_after fun _ => returns_after fun _ => returns_keepCode _ _ _

theorem files_returns (f : Sources) : (files f).Returns := by
  intro address renderer token
  refine returns_after fun key => ?_
  dsimp only
  split
  · exact returns_keepCode _ _ _
  · exact returns_after fun _ => returns_after fun _ => returns_keepCode _ _ _

end Store
end TemplateCache
