import TemplateCache.Proofs.Compiler.Discovery
import TemplateCache.Proofs.Store.Loading

/-!
# Tasks that settle a path

A settle task looks what a path holds and applies that. Between the two it gives way to others, so
what it applies is what the file had when the task looked. One stretch of a task either leaves the
compiler alone or ends the task, and then the registry has what the task has seen.
-/

namespace TemplateCache

open Job Store

/-! ## The registry -/

namespace Registry

variable {r : Registry} {given : ContentRecord} {path : Path} {name key text : String}
  {there : Except FileErrorKind String} {sure : Prop}

/-- A record under the key is listed under the name. -/
def Lists (r : Registry) (name key : String) : Prop :=
  ∀ record, r.byKey.get? key = some record → key ∈ r.keysOf name

theorem lists_empty : (∅ : Registry).Lists name key := nofun

theorem Lists.register (lists : r.Lists name key) (named : given.name = name)
    (keyed : given.key = key) : (r.register given).2.Lists name key := by
  cases changed : (r.register given).1.2.changed with
  | false =>
      rw [register_unchanged changed]
      exact lists
  | true =>
      obtain ⟨overridden, -, registry⟩ := register_changed changed
      rw [registry]
      intro record _
      exact mem_keysOf_insert.2 (.inl ⟨named.symm, keyed.symm⟩)

theorem Lists.removed (lists : r.Lists name key) : (r.remove name).2.byKey.get? key = none := by
  rw [byKey_remove]
  split
  · rfl
  · rename_i unlisted
    cases found : r.byKey.get? key with
    | none => rfl
    | some record => exact absurd (lists record found) unlisted

theorem Lists.remove (lists : r.Lists name key) : (r.remove name).2.Lists name key := by
  intro record found
  rw [lists.removed] at found
  cases found

/-- Under the key is what a file has, and nothing where it has no text. If a load of it is not
`sure` to succeed, there may be nothing under the key anyway. -/
structure Reflects (r : Registry) (path : Path) (key : String)
    (there : Except FileErrorKind String) (sure : Prop) : Prop where
  only : ∀ record, r.byKey.get? key = some record → record.origin = .discovered ∧
    ∃ text, there = .ok text ∧ record.content.same (.ofSource text path.extension?) = true
  present : sure → ∀ text, there = .ok text → ∃ record, r.byKey.get? key = some record

theorem reflects_register (same : there = .ok text) :
    (r.register (sourceRecord path name key text)).2.Reflects path key there sure := by
  have fresh : Found (sourceRecord path name key text) := ⟨rfl, rfl⟩
  obtain ⟨stored, found, discovered, content, -⟩ := rediscovers_register (r := r) fresh
  change _ = some stored at found
  constructor
  · intro record found'
    cases found.symm.trans found'
    exact ⟨discovered, text, same, content⟩
  · intro _ _ _
    exact ⟨stored, found⟩

theorem Lists.reflects_remove (lists : r.Lists name key)
    (lost : sure → ∀ text, there ≠ .ok text) :
    (r.remove name).2.Reflects path key there sure := by
  constructor
  · intro record found
    rw [lists.removed] at found
    cases found
  · intro certain text same
    exact absurd same (lost certain text)

end Registry

/-! ## What a task sees -/

namespace Bench

/-- A step that leaves alone what the compiler remembers. -/
structure Observes (b d : Bench Output) : Prop where
  state : d.state = b.state
  site : Files.Advances b.site d.site

variable {b d e : Bench Output}

theorem Observes.refl (b : Bench Output) : b.Observes b := ⟨rfl, .refl _⟩

theorem Observes.trans (h : b.Observes d) (h' : d.Observes e) : b.Observes e :=
  ⟨h'.state.trans h.state, h.site.trans h'.site⟩

theorem observes_of_path (path : Relation.ReflTransGen Observes b d) : b.Observes d := by
  induction path with
  | refl => exact .refl b
  | tail _ step ih => exact ih.trans step

end Bench

/-- What a task sees at the path of a file: a text, which is that of the file if the file is
`known`, or that there is nothing to register. -/
inductive Observed (known sure : Prop) (path : Path) (name key : String)
    (there : Except FileErrorKind String) : Except CompileError (Option PathChange) → Prop where
  | updated (text : String) (same : known → there = .ok text) :
    Observed known sure path name key there
      (.ok (some (.updated (sourceRecord path name key text))))
  | removed (lost : known → sure → ∀ text, there ≠ .ok text) :
    Observed known sure path name key there (.ok (some (.removed name)))
  | passed (unknown : ¬known) : Observed known sure path name key there (.ok none)

section

variable {c : Compiler Output} {s : Sources} {t : FileTree} {path : Path} {token : Token}
  {name key : String} {known sure : Prop} {b : Bench Output}

/-- What others leave as it is while a task works whose file is `known`. -/
abbrev Bench.Rely (s : Sources) (t : FileTree) (path : Path) (token : Token) (known sure : Prop)
    (b : Bench Output) : Prop :=
  known → Files.Rely s t path token sure b.site

/-- A store operation of a task does the same to the bench as to the site. -/
theorem amid_storing {α : Type} {job : Storing Output α} {inv : Site Output → Prop}
    {inv' : Bench Output → Prop} {ok : Except StoreError α → Prop}
    (seen : ∀ d : Bench Output, inv' d → inv d.site)
    (h : job.run.Amid Files.Advances inv (fun r _ => ok r) b.site) :
    (Compiling.storing job).run.Amid Bench.Observes inv' (fun r _ => ∃ v, r = .ok v ∧ ok v) b := by
  apply amid_lift
  apply h.on
  · intro x t
    rfl
  · intro t x advances
    exact ⟨rfl, advances⟩
  · exact seen
  · intro r t fine
    exact ⟨r, rfl, fine⟩

theorem amid_eventAt (store : c.store = .files s) (named : s.nameOf path = some name)
    (keyed : s.keyOf name path = .ok key) (unlimited : sure → token.timeout = none)
    (noDir : known → t.isDir path = false) (holds : b.Rely s t path token known sure) :
    (c.eventAt path token).run.Amid Bench.Observes (Bench.Rely s t path token known sure)
      (fun r _ => Observed known sure path name key (t.readText path) r) b := by
  have located : c.store.nameOf path = some name := by
    rw [store]
    exact named
  unfold Compiler.eventAt
  rw [located, store]
  refine Amid.bindExcept (amid_lift ⟨.refl b, ?_⟩)
  show Amid _ _ _ (ExceptT.run (if b.site.environment.files.isDir path = true then _ else _)) b
  split
  · rename_i isDir
    apply Observed.passed
    intro is
    have same : b.site.environment.files.isDir path = t.isDir path := by
      unfold FileTree.isDir
      rw [(holds is).file]
    rw [same, noDir is] at isDir
    cases isDir
  · refine Amid.bindExcept ((amid_storing (fun d => id)
      (Files.amid_readSource named keyed unlimited holds)).mono ?_)
    rintro _ d ⟨r, rfl, loaded⟩
    dsimp only
    have removes (lost : known → sure → ∀ text, t.readText path ≠ .ok text) :
        (do let _ ← Compiling.storing ((Store.files s).unregister name token)
            return some (.removed name) : Compiling Output (Option PathChange)).run.Amid
          Bench.Observes (Bench.Rely s t path token known sure)
          (fun r _ => Observed known sure path name key (t.readText path) r) d := by
      have gone : ((Store.files s).unregister name token).run.Amid Files.Advances (fun _ => True)
          (fun _ _ => True) d.site := Files.amid_unregister name token
      refine Amid.bindExcept ((amid_storing (fun _ _ => trivial) gone).mono ?_)
      rintro _ e ⟨r, rfl, -⟩
      exact .removed lost
    cases loaded with
    | read text same => exact .updated text same
    | missed nothing lost =>
        rcases r with e | (_ | record)
        · exact removes lost
        · exact removes lost
        · exact absurd rfl (nothing record)

end

/-! ## What a task does -/

namespace Compiler

/-- A task applies what it has seen. -/
def applied {π : Type} (c : Compiler π) (token : Token)
    (r : Except CompileError (Option PathChange)) : Job (Bench π) (Except CompileError Answer) :=
  match r with
  | .error e => .done (.error e)
  | .ok none => .done (.ok .nothing)
  | .ok (some event) =>
    .act (fun b => if isCancelled token b then b else c.apply event b) fun _ => .done (.ok .nothing)

variable {c : Compiler Output} {s : Sources} {t : FileTree} {path : Path} {token : Token}
  {name key : String} {known sure : Prop} {b d : Bench Output}
  {there : Except FileErrorKind String}

theorem settle_job {π : Type} {c : Compiler π} (path : Path) (token : Token) :
    ((Command.settle path token).work c).run = .act id fun b =>
      if isCancelled token b then .done (.ok .nothing)
      else (c.eventAt path token).run.bind (c.applied token) := by
  refine congrArg (Job.act id) (funext fun b => ?_)
  show Job.bind (ExceptT.run (if isCancelled token b = true then _ else _)) _ = _
  cases isCancelled token b with
  | true => rfl
  | false =>
      show Job.bind (Job.bind (c.eventAt path token).run _) _ = _
      rw [bind_assoc]
      refine congrArg (Job.bind _) (funext fun r => ?_)
      rcases r with e | (_ | event)
      · rfl
      · rfl
      · rfl

/-- What a task leaves when it ends: the registry has what the task has seen. -/
structure Settled (known sure : Prop) (path : Path) (name key : String)
    (there : Except FileErrorKind String) (b d : Bench Output) : Prop where
  site : Files.Advances b.site d.site
  lists : d.state.registry.Lists name key
  reflects : known → d.state.registry.Reflects path key there sure

/-- Applying what was seen takes no time. -/
theorem settled_applied (live : isCancelled token b = false)
    (lists : b.state.registry.Lists name key)
    {r : Except CompileError (Option PathChange)}
    (observed : Observed known sure path name key there r) :
    ∃ x d, (c.applied token r).advance b = (.done x, d) ∧
      Settled known sure path name key there b d := by
  cases observed with
  | updated text same =>
      let record := sourceRecord path name key text
      have applies : (c.applied token (.ok (some (.updated record)))).advance b =
          (.done (.ok .nothing), (Bench.register c.store.resolver record b).2) :=
        congrArg (Prod.mk _) (if_neg (Bool.eq_false_iff.1 live))
      obtain ⟨environment, own⟩ :
          (Bench.register c.store.resolver record b).2.site.environment = b.site.environment ∧
            (Bench.register c.store.resolver record b).2.site.own = b.site.own :=
        Bench.medium_register record
      refine ⟨_, _, applies, .of_own (by rw [environment]) own, ?_, fun is => ?_⟩
      · rw [Bench.registry_register]
        exact lists.register rfl rfl
      · rw [Bench.registry_register]
        exact Registry.reflects_register (same is)
  | removed lost =>
      have applies : (c.applied token (.ok (some (.removed name)))).advance b =
          (.done (.ok .nothing), Bench.eraseName c.store.resolver name b) :=
        congrArg (Prod.mk _) (if_neg (Bool.eq_false_iff.1 live))
      obtain ⟨environment, own⟩ :
          (Bench.eraseName c.store.resolver name b).site.environment = b.site.environment ∧
            (Bench.eraseName c.store.resolver name b).site.own = b.site.own :=
        Bench.medium_invalidate _ _
      refine ⟨_, _, applies, .of_own (by rw [environment]) own, ?_, fun is => ?_⟩
      · rw [Bench.registry_eraseName]
        exact lists.remove
      · rw [Bench.registry_eraseName]
        exact lists.reflects_remove (lost is)
  | passed unknown =>
      refine ⟨_, _, rfl, .refl _, lists, fun is => absurd is unknown⟩

/-- A stretch of a task ends it, or leaves alone what the compiler remembers. -/
theorem settle_stretch (live : isCancelled token b = false)
    (lists : b.state.registry.Lists name key)
    {work : Job (Bench Output) (Except CompileError (Option PathChange))}
    (sees : work.Amid Bench.Observes (Bench.Rely s t path token known sure)
      (fun r _ => Observed known sure path name key there r) b) :
    (∃ x d, (work.bind (c.applied token)).advance b = (.done x, d) ∧
        Settled known sure path name key there b d) ∨
      ∃ next d, (work.bind (c.applied token)).advance b =
          ((Job.pause next).bind (c.applied token), d) ∧ b.Observes d ∧
        ∀ u, Bench.Rely s t path token known sure u →
          next.Amid Bench.Observes (Bench.Rely s t path token known sure)
            (fun r _ => Observed known sure path name key there r) u := by
  obtain ⟨way, outcome⟩ := sees.advance
  have observes := Bench.observes_of_path way
  rcases advance_bind work (c.applied token) b with
    ⟨r, d, ends, whole⟩ | ⟨rest, d, stops, isOpen, whole⟩
  · rw [ends] at outcome observes
    rcases outcome with ⟨_, _, ⟨⟩, observed⟩ | ⟨next, _, ⟨⟩, -⟩
    have live' : isCancelled token d = false := by
      unfold isCancelled at live ⊢
      show d.site.environment.clock.isCancelled token = false
      rw [observes.site.clock]
      exact live
    rw [← observes.state] at lists
    obtain ⟨x, e, applies, settled⟩ := settled_applied (c := c) live' lists observed
    left
    refine ⟨x, e, whole.trans applies, observes.site.trans settled.site, settled.lists,
      settled.reflects⟩
  · rw [stops] at outcome observes
    rcases outcome with ⟨x, _, ⟨⟩, -⟩ | ⟨next, _, ⟨⟩, later⟩
    · exact absurd rfl (isOpen x)
    · exact .inr ⟨next, d, whole, observes, later⟩

end Compiler
end TemplateCache
