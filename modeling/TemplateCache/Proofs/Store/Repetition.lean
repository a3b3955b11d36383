import Mathlib.Data.List.Sort
import TemplateCache.Proofs.Store.Sweep.Alone

/-!
# Calls that are repeated

A removal takes what it removes from the memory of the store before it turns to the medium, so when
the medium fails the store has forgotten it. When the call is repeated, it removes what the store
still knows by other means: the plain keys of a name, all documents of a collection, an output
directory that is set. What only its memory could tell, it leaves.
-/

namespace TemplateCache

open Job Relation

variable {π α : Type}

/-- A store remembers the same. -/
def Site.SameMemory (s t : Site π) : Prop := t.overlay = s.overlay ∧ t.own = s.own

namespace Storing

variable {β : Type} {others : Site π → Site π → Prop} {s t : Site π} {r : Except StoreError β}

theorem runs_gets {f : Site π → α} {g : α → Storing π β}
    (runs : (gets f >>= g).run.Runs others s r t) : (g (f s)).run.Runs others s r t := by
  cases runs with
  | act rest => exact rest

theorem runs_modify {f : Site π → Site π} {g : Unit → Storing π β}
    (runs : (modify f >>= g).run.Runs others s r t) : (g ()).run.Runs others (f s) r t := by
  cases runs with
  | act rest => exact rest

theorem runs_naming {named : Except NameError α} {f : α → Storing π β}
    (runs : (naming named >>= f).run.Runs others s r t) :
    (∃ v, named = .ok v ∧ (f v).run.Runs others s r t) ∨ ∃ reason, r = .error (.naming reason) := by
  cases named with
  | ok v => exact .inl ⟨v, rfl, runs⟩
  | error reason =>
      cases runs
      exact .inr ⟨reason, rfl⟩

end Storing

/-- Once a name is erased, only its plain keys are known. -/
theorem Overlay.listsContent_eraseName {o : Overlay} {resolver : Resolver} {name key : String} :
    (o.eraseName name).ListsContent resolver name key ↔
      resolver.resolve name .content none none = .ok key := by
  constructor
  · rintro (plain | ⟨record, found, own⟩)
    · exact plain
    · simp [eraseName, removeCode, Option.filter_eq_some_iff, own] at found
  · exact .inl

theorem Overlay.listsCode_eraseName {o : Overlay} {resolver : Resolver} {name key : String} :
    (o.eraseName name).ListsCode resolver name key ↔
      resolver.resolve name .code none none = .ok key := by
  constructor
  · rintro (plain | ⟨record, found, own⟩)
    · exact plain
    · simp [eraseName, removeCode, Option.filter_eq_some_iff, own] at found
  · exact .inl

namespace Store

/-! ## A key-value engine -/

namespace KeyValue

variable {s t u : Site Written} {token : Token} {operation : String}
  {others : Site Written → Site Written → Prop}

/-- What is bound by a token runs to completion after a wait, or has not begun. -/
theorem runs_within_delayed {x : Keeping α} (instant : x.run.Instant) {r : Except StoreError α}
    (runs : (Storing.within token operation (do engineDelay; x)).run.Runs others s r t) :
    (∃ u, ReflTransGen others s u ∧ x.run.Runs others u r t) ∨
      EndsEarly token operation r ∧ ReflTransGen others s t := by
  rcases Runs.of_check runs with passed | ⟨early, rfl⟩
  · cases passed with
    | act passed =>
        cases passed with
        | act passed =>
            cases passed with
            | wait changed due rest =>
                rcases rest.of_check with passed | ⟨early, rfl⟩
                · split at passed
                  · replace passed : (x.run.boundedBy token operation _).Runs others _ r t := passed
                    rw [instant.boundedBy] at passed
                    exact .inl ⟨_, .single changed, passed⟩
                  · cases passed
                    exact .inr ⟨.inr rfl, .single changed⟩
                · exact .inr ⟨.inl early, .single changed⟩
  · exact .inr ⟨.inl early, .refl⟩

theorem runs_within_instant {x : Keeping α} (instant : x.run.Instant) {r : Except StoreError α}
    (runs : (Storing.within token operation x).run.Runs others s r t) :
    x.run.Runs others s r t ∨ EndsEarly token operation r ∧ t = s := by
  rcases Runs.of_check runs with passed | ⟨early, same⟩
  · rw [instant.boundedBy] at passed
    exact .inl passed
  · exact .inr ⟨.inl early, same⟩

/-- Deletions that are due delete what the engine does not refuse to delete. -/
theorem runs_deletions {documents : List (Collection × String)} {r : Except StoreError Unit}
    (runs : (deletions documents).run.Runs Passes s r t) :
    Erases documents s t ∧ ∀ e, r = .error e → ∃ failure, e = .batch failure := by
  rcases runs.of_bindExcept with ⟨outcomes, u, deleting, rest⟩ | ⟨e, failed, -⟩
  · obtain ⟨_, same, deleting⟩ := Runs.of_lift deleting
    cases same
    obtain ⟨visited, keyed, rfl, visits⟩ := runs_visits deleting
    obtain ⟨erases, -⟩ := Visits.erases id visits
    rw [keyed, List.map_id] at erases
    cases rest
    have reports := reports_collect (visited.map (·.2)) ()
    refine ⟨erases, fun e failed => ?_⟩
    replace reports : Reports (visited.map (·.2)) () (.error e) := failed ▸ reports
    cases reports with
    | failed results some => exact ⟨_, rfl⟩
  · obtain ⟨_, same, -⟩ := Runs.of_lift failed
    cases same

theorem EndsEarly.not_batch {e : StoreError} {failure : BatchFailure String StoreError}
    (early : EndsEarly token operation (.error e : Except StoreError α)) : e ≠ .batch failure := by
  rintro rfl
  rcases early with cancelled | late
  · cases cancelled
  · cases late

/-- A deletion of documents that fails has deleted what the engine did not refuse to delete, or has
not begun. -/
theorem runs_failed_deletion {documents : List (Collection × String)} {e : StoreError}
    (runs : (Storing.within token operation (deleteAll documents)).run.Runs Passes s
      (.error e) t) :
    Erases documents s t ∧ (∃ failure, e = .batch failure) ∨
      Erases [] s t ∧ ∀ failure, e ≠ .batch failure := by
  cases documents with
  | nil =>
      rw [deleteAll_nil] at runs
      rcases runs_within_instant (instant_deletions _) runs with deleting | ⟨early, rfl⟩
      · obtain ⟨erases, batch⟩ := runs_deletions deleting
        exact .inl ⟨erases, batch e rfl⟩
      · exact .inr ⟨erases_passes .refl, fun _ => EndsEarly.not_batch early⟩
  | cons d rest =>
      rw [deleteAll_cons] at runs
      rcases runs_within_delayed (instant_deletions _) runs with
        ⟨u, changed, deleting⟩ | ⟨early, changed⟩
      · obtain ⟨erases, batch⟩ := runs_deletions deleting
        exact .inl ⟨(erases_passes changed).trans erases, batch e rfl⟩
      · exact .inr ⟨erases_passes changed, fun _ => EndsEarly.not_batch early⟩

/-- The documents of a name under its plain keys. -/
def Plain (resolver : Resolver) (name : String) : Collection × String → Prop
  | (.content, key) => resolver.resolve name .content none none = .ok key
  | (.code, key) => resolver.resolve name .code none none = .ok key

theorem listed_eraseName {o : Overlay} {resolver : Resolver} {name : String}
    {d : Collection × String} :
    Listed (o.eraseName name) resolver name d ↔ Plain resolver name d := by
  obtain ⟨collection, key⟩ := d
  cases collection with
  | content => exact Overlay.listsContent_eraseName
  | code => exact Overlay.listsCode_eraseName

/-- What a failed call deleted of the documents that it was to delete. -/
def Lost (s : Site Written) (e : StoreError) (d : Collection × String) : Prop :=
  (∃ failure, e = .batch failure) ∧ (deletion d.1 s d.2).toOption.isSome = true

variable {resolver : Resolver} {pageSize : Nat} {name : String} {e : StoreError}

/-- What a failed call leaves of the documents that it was to delete, and of all others. -/
def Leaves (meant : Collection × String → Prop) (e : StoreError) (s t : Site Written) : Prop :=
  ∀ d, (meant d ∧ Lost s e d → document d.1 d.2 t = none) ∧
    (¬(meant d ∧ Lost s e d) → document d.1 d.2 t = document d.1 d.2 s)

theorem leaves_of_failed {documents : List (Collection × String)}
    {meant : Collection × String → Prop} (among : ∀ d, d ∈ documents ↔ meant d)
    (deleted : Erases documents s t ∧ (∃ failure, e = .batch failure) ∨
      Erases [] s t ∧ ∀ failure, e ≠ .batch failure) : Leaves meant e s t := by
  rintro ⟨collection, key⟩
  rcases deleted with ⟨erases, batch⟩ | ⟨erases, early⟩
  · constructor
    · rintro ⟨listed, -, deletable⟩
      rw [erases.left, if_pos ⟨(among _).2 listed, deletable⟩]
    · intro kept
      rw [erases.left, if_neg]
      rintro ⟨there, deletable⟩
      exact kept ⟨(among _).1 there, batch, deletable⟩
  · constructor
    · rintro ⟨-, ⟨failure, batch⟩, -⟩
      exact absurd batch (early failure)
    · intro kept
      rw [erases.left, if_neg]
      simp

/-- An unregistration that fails has forgotten the name. -/
theorem runs_failed_unregister
    (runs : ((keyValue resolver pageSize).unregister name token).run.Runs Passes s (.error e) t)
    (fault : ∀ reason, e ≠ .naming reason) :
    (∃ key, resolver.resolve name .content none none = .ok key) ∧
      (∃ key, resolver.resolve name .code none none = .ok key) ∧
      t.overlay = s.overlay.eraseName name ∧ Leaves (Listed s.overlay resolver name) e s t := by
  have named {reason : NameError} (same : (.error e : Except StoreError Unit) =
      .error (.naming reason)) : False := by
    cases same
    exact fault reason rfl
  rcases Storing.runs_naming (Storing.runs_modify (Storing.runs_gets runs)) with
    ⟨contentKey, content, runs⟩ | ⟨reason, same⟩
  · rcases Storing.runs_naming runs with ⟨codeKey, code, runs⟩ | ⟨reason, same⟩
    · have deleted := runs_failed_deletion runs
      refine ⟨⟨_, content⟩, ⟨_, code⟩, ?_, ?_⟩
      · rcases deleted with ⟨erases, -⟩ | ⟨erases, -⟩
        · exact erases.overlay
        · exact erases.overlay
      · exact leaves_of_failed (s := { s with overlay := s.overlay.eraseName name })
          (fun d => mem_nameDocuments content code) deleted
    · exact (named same).elim
  · exact (named same).elim

/-- A clearance of a store that fails has forgotten which documents are its own. -/
theorem runs_failed_clear
    (runs : ((keyValue resolver pageSize).clear false token).run.Runs Passes s (.error e) t) :
    t.own = [] ∧ Leaves (· ∈ s.own) e s t := by
  have deleted := runs_failed_deletion
    (Storing.runs_modify (Storing.runs_gets (Storing.runs_modify runs)))
  constructor
  · have forgotten : ∀ d, d ∉ t.own := by
      intro d there
      rcases deleted with ⟨erases, -⟩ | ⟨erases, -⟩
      · exact absurd (erases.own d there) List.not_mem_nil
      · exact absurd (erases.own d there) List.not_mem_nil
    exact List.eq_nil_iff_forall_not_mem.2 forgotten
  · exact leaves_of_failed (s := { s with overlay := ∅, own := [] }) (fun d => Iff.rfl) deleted

/-- An unregistration that nothing disturbs succeeds. -/
theorem finish_unregister (pageSize : Nat) (ready : Ready token s)
    (content : ∃ key, resolver.resolve name .content none none = .ok key)
    (code : ∃ key, resolver.resolve name .code none none = .ok key) :
    ∃ t, ((keyValue resolver pageSize).unregister name token).run.finish s = some (.ok (), t) ∧
      ∀ d, (Listed s.overlay resolver name d → document d.1 d.2 t = none) ∧
        (¬Listed s.overlay resolver name d → document d.1 d.2 t = document d.1 d.2 s) := by
  obtain ⟨contentKey, content⟩ := content
  obtain ⟨codeKey, code⟩ := code
  have succeeds : ((keyValue resolver pageSize).unregister name token).run.Ends
      (fun r _ => r = .ok ()) s := by
    refine Ends.bindExcept ⟨_, _, rfl, ?_⟩
    refine Ends.bindExcept ⟨_, _, rfl, ?_⟩
    dsimp only
    rw [content, code]
    have ready : Ready token { s with overlay := s.overlay.eraseName name } :=
      ⟨ready.faultless, ready.live, ready.lasts⟩
    exact (ends_within_deleteAll _ ready).mono fun fine => fine.1
  obtain ⟨r, t, ends, rfl⟩ := succeeds
  obtain ⟨documents, removes, among⟩ :=
    (succeeds_unregister resolver pageSize name token s).finish ends
  refine ⟨t, ends, fun d => ⟨fun listed => ?_, fun unlisted => ?_⟩⟩
  · exact removes.gone ((among d).2 listed)
  · exact removes.kept fun there => unlisted ((among d).1 there)

/-- A clearance that nothing disturbs deletes the store's own documents, or all that there are. -/
theorem finish_clear (all : Bool) (ready : Ready token s) :
    ∃ t, ((keyValue resolver pageSize).clear all token).run.finish s = some (.ok (), t) ∧
      ∀ d, (all = true ∨ d ∈ s.own → document d.1 d.2 t = none) ∧
        (¬(all = true ∨ d ∈ s.own) → document d.1 d.2 t = document d.1 d.2 s) := by
  have succeeds : ((keyValue resolver pageSize).clear all token).run.Ends
      (fun r t => r = .ok () ∧ ∀ d, (all = true ∨ d ∈ s.own → document d.1 d.2 t = none) ∧
        (¬(all = true ∨ d ∈ s.own) → document d.1 d.2 t = document d.1 d.2 s)) s := by
    refine Ends.bindExcept ⟨_, _, rfl, ?_⟩
    dsimp only
    cases all with
    | true =>
        refine (ends_sweeps (Nat.le_max_right pageSize 1)
          (s := { s with overlay := ∅ }) ⟨ready.faultless, ready.live, ready.lasts⟩).mono ?_
        rintro r t ⟨rfl, documents, -, empty⟩
        refine ⟨rfl, fun d => ⟨fun _ => empty d.1 d.2, fun kept => ?_⟩⟩
        simp at kept
    | false =>
        refine Ends.bindExcept ⟨_, _, rfl, ?_⟩
        refine Ends.bindExcept ⟨_, _, rfl, ?_⟩
        dsimp only
        have ready : Ready token { s with overlay := ∅, own := [] } :=
          ⟨ready.faultless, ready.live, ready.lasts⟩
        refine (ends_within_deleteAll s.own ready).mono ?_
        rintro r t ⟨rfl, deleted⟩
        refine ⟨rfl, fun d => ⟨fun meant => ?_, fun kept => ?_⟩⟩
        · exact deleted.removes.gone (meant.resolve_left nofun)
        · exact deleted.removes.kept fun there => kept (.inr there)
  obtain ⟨r, t, ends, rfl, documents⟩ := succeeds
  exact ⟨t, ends, documents⟩

/-- What is known again is removed, and what only the failed call knew stays unless that call
removed it. -/
theorem Leaves.repeated {meant known : Collection × String → Prop} {t' : Site Written}
    (leaves : Leaves meant e s t)
    (same : ∀ d : Collection × String, document d.1 d.2 t' = document d.1 d.2 t)
    (again : ∀ d, (known d → document d.1 d.2 u = none) ∧
      (¬known d → document d.1 d.2 u = document d.1 d.2 t')) (d : Collection × String) :
    (known d ∨ meant d ∧ Lost s e d → document d.1 d.2 u = none) ∧
      (¬(known d ∨ meant d ∧ Lost s e d) → document d.1 d.2 u = document d.1 d.2 s) := by
  by_cases here : known d
  · have gone := (again d).1 here
    exact ⟨fun _ => gone, fun kept => absurd (.inl here) kept⟩
  · have stays := ((again d).2 here).trans (same d)
    constructor
    · intro lost
      rw [stays]
      exact (leaves d).1 (lost.resolve_left here)
    · intro kept
      rw [stays]
      exact (leaves d).2 fun lost => kept (.inr lost)

end KeyValue

/-! ## Files -/

namespace Files

open FileTree

variable {sources : Sources} {name : String} {token : Token} {s t : Site Output} {e : StoreError}
  {all : Bool}

/-! ### What a failed call forgets -/

theorem keeps_removeAll (remove : Remover) (paths : List Path) :
    (removeAll remove paths).run.Keeps Site.SameMemory := by
  refine Keeps.bindExcept (keeps_lift (keeps_modifyGet fun _ => ⟨rfl, rfl⟩)) fun results => ?_
  dsimp only
  split
  · exact fun _ => trivial
  · exact Keeps.bindExcept (keeps_lift fun _ _ => trivial) fun _ _ => trivial

theorem keeps_tempDirs (settings : FileStoreSettings) :
    (tempDirs settings).run.Keeps Site.SameMemory := by
  refine Keeps.bindExcept ?_ fun found => ?_
  · refine Keeps.bindExcept (keeps_lift (keeps_modifyGet fun _ => ⟨rfl, rfl⟩)) fun _ => ?_
    exact Keeps.bindExcept (keeps_lift fun _ _ => trivial) fun _ _ => trivial
  · cases found with
    | ok found => exact fun _ => trivial
    | error kind => exact fun _ => trivial

/-- What only keeps its memory, still has it in the end. -/
theorem memory_of_runs {operation : String} {x : Filing α} {r : Except StoreError α}
    (keeps : x.run.Keeps Site.SameMemory)
    (runs : (Storing.within token operation x).run.Runs Passes s r t) : Site.SameMemory s t := by
  have within : (Storing.within token operation x).run.Keeps Site.SameMemory :=
    fun u => Ensures.within (fun _ => ⟨rfl, rfl⟩) (fun _ _ => trivial) (keeps u)
  refine (Ensures.runs (Site.SameMemory s) (within s) runs ?_ ?_ ⟨rfl, rfl⟩).1
  · rintro u v ⟨overlay, own⟩ ⟨overlay', own'⟩
    exact ⟨overlay.trans overlay', own.trans own'⟩
  · rintro u v ⟨clock, rfl⟩ ⟨overlay, own⟩
    exact ⟨overlay, own⟩

/-- An unregistration that fails has forgotten the name, and knows its output directory. -/
theorem runs_failed_unregister
    (runs : ((files sources).unregister name token).run.Runs Passes s (.error e) t)
    (fault : ∀ reason, e ≠ .naming reason) :
    (∃ dir, s.own.dir = some dir) ∧ t.overlay = s.overlay.eraseName name ∧ t.own = s.own := by
  have named {reason : NameError} (same : (.error e : Except StoreError Unit) =
      .error (.naming reason)) : False := by
    cases same
    exact fault reason rfl
  rcases Storing.runs_naming (Storing.runs_modify (Storing.runs_gets runs)) with
    ⟨contentKey, content, runs⟩ | ⟨reason, same⟩
  · rcases Storing.runs_naming runs with ⟨codeKey, code, runs⟩ | ⟨reason, same⟩
    · replace runs := Storing.runs_gets runs
      dsimp only at runs
      cases known : s.own.dir with
      | none =>
          rw [known] at runs
          cases runs
      | some dir =>
          rw [known] at runs
          obtain ⟨overlay, own⟩ := memory_of_runs (keeps_removeAll _ _) runs
          exact ⟨⟨dir, rfl⟩, overlay, own⟩
    · exact (named same).elim
  · exact (named same).elim

/-- A clearance forgets all but the output directory that is set. -/
theorem memory_of_clear {r : Except StoreError Unit}
    (runs : ((files sources).clear all token).run.Runs Passes s r t) :
    t.overlay = ∅ ∧ t.own = { dir := sources.settings.outputDir } := by
  have keeps (current : List Path) : (do
      let others ← if all then tempDirs sources.settings else pure []
      removeAll FileTree.removeDir (Path.dedup (Path.sort (current ++ others))) :
        Filing Unit).run.Keeps Site.SameMemory := by
    cases all with
    | true => exact Keeps.bindExcept (keeps_tempDirs _) fun _ => keeps_removeAll _ _
    | false => exact keeps_removeAll _ _
  exact memory_of_runs (keeps _)
    (Storing.runs_modify (Storing.runs_gets (Storing.runs_modify runs)))

/-- A clearance remembers no output directory but the one that is set. -/
theorem runs_clear {r : Except StoreError Unit}
    (runs : ((files sources).clear all token).run.Runs Passes s r t) :
    t.own.dir = sources.settings.outputDir := by
  rw [(memory_of_clear runs).2]

/-! ### What a call removes -/

/-- Directories are gone, and what was not in any of them is as before. -/
structure Empties (paths : List Path) (t u : FileTree) : Prop where
  thins : t.Thins u
  cleared : ∀ p ∈ paths, u.Cleared p
  kept : ∀ place, ¬t.Holds paths place → u.entry? place = t.entry? place

theorem removing_dirs : Removing FileTree.removeDir Empties where
  nothing t := ⟨.refl t, fun _ there => absurd there List.not_mem_nil, fun _ _ => rfl⟩
  more {paths more t u v} first second := by
    have mono {p : List Path} {place : Place} (among : ∀ q ∈ p, q ∈ paths ++ more)
        (holds : t.Holds p place) : t.Holds (paths ++ more) place := by
      obtain ⟨q, there, found⟩ := holds
      exact ⟨q, among q there, found⟩
    refine ⟨first.thins.trans second.thins, fun p there => ?_, fun place apart => ?_⟩
    · rcases List.mem_append.1 there with before | after
      · exact (first.cleared p before).thins second.thins
      · exact second.cleared p after
    · rw [second.kept place, first.kept place]
      · exact fun holds => apart (mono (fun _ => List.mem_append_left _) holds)
      · exact fun holds =>
          apart (mono (fun _ => List.mem_append_right _) (holds.of_thins first.thins))
  one {t p} fine := by
    refine ⟨thins_removeDir, fun q there => ?_, fun place apart => removeDir_keeps apart⟩
    rw [List.mem_singleton.1 there]
    exact removeDir_cleared fine

/-- A real directory where temporary ones are made, that is named like them. -/
def TempDir (settings : FileStoreSettings) (t : FileTree) (p : Path) : Prop :=
  ∃ found name, t.list settings.tempParent = .ok found ∧ (name, .directory) ∈ found ∧
    settings.tempPrefix.toList.isPrefixOf name.toList = true ∧
    settings.tempParent.join ⟨name⟩ = p

theorem succeeds_tempDirs (settings : FileStoreSettings) (s : Site Output) :
    Succeeds (tempDirs settings) (fun dirs u =>
      (∀ p, p ∈ dirs ↔ TempDir settings s.environment.files p) ∧ u = s) s := by
  have listed : Succeeds (transfer fun t => (t.list settings.tempParent, t))
      (fun found u => found = s.environment.files.list settings.tempParent ∧ u = s) s := by
    rintro v ⟨⟩
    exact ⟨rfl, rfl⟩
  refine Succeeds.bind (listed.mono ?_)
  rintro found u ⟨same, rfl⟩
  cases found with
  | error kind => exact succeeds_throw _
  | ok found =>
      refine succeeds_pure ⟨fun p => ?_, rfl⟩
      rw [List.mem_filterMap]
      constructor
      · rintro ⟨⟨name, entry⟩, there, chosen⟩
        dsimp only at chosen
        split at chosen
        · rename_i fits
          rw [Bool.and_eq_true, beq_iff_eq] at fits
          cases chosen
          obtain ⟨named, rfl⟩ := fits
          exact ⟨found, name, same.symm, there, named, rfl⟩
        · cases chosen
      · rintro ⟨found', name, listed, there, named, rfl⟩
        cases same.trans listed
        refine ⟨(name, .directory), there, ?_⟩
        simp [named]

/-- The directories that a clearance removes. -/
def Clears (settings : FileStoreSettings) (dir : Option Path) (all : Bool) (t : FileTree)
    (p : Path) : Prop := dir = some p ∨ all = true ∧ TempDir settings t p

/-- A clearance that succeeds has removed its directories one after the other. -/
theorem Removing.clear {lost : List Path → FileTree → FileTree → Prop}
    {ok : Unit → Site Output → Prop} (h : Removing FileTree.removeDir lost) (sources : Sources)
    (all : Bool) (token : Token) (s : Site Output)
    (ends : ∀ paths (u : Site Output),
      (∀ p, p ∈ paths ↔ Clears sources.settings s.own.dir all s.environment.files p) →
        lost (Path.dedup (Path.sort paths)) s.environment.files u.environment.files → ok () u) :
    Succeeds ((files sources).clear all token) ok s := by
  refine Succeeds.bind (Storing.succeeds_modify ?_)
  refine Succeeds.bind (Storing.succeeds_gets ?_)
  refine Succeeds.bind (Storing.succeeds_modify ?_)
  refine Storing.succeeds_within ?_
  cases all with
  | false =>
      refine Succeeds.bind (succeeds_pure (h.succeeds fun u => ends _ u fun p => ?_))
      simp [Clears]
  | true =>
      refine Succeeds.bind ((succeeds_tempDirs _ _).mono ?_)
      rintro others u ⟨among, rfl⟩
      refine h.succeeds fun u => ends _ u fun p => ?_
      simp [Clears, among]

/-- A clearance that succeeds leaves nothing of the directories that it is to remove. -/
theorem succeeds_clear (sources : Sources) (all : Bool) (token : Token) (s : Site Output) :
    Succeeds ((files sources).clear all token) (fun _ u =>
      (∀ p, Clears sources.settings s.own.dir all s.environment.files p →
        ∃ q, q.same p = true ∧ u.environment.files.Cleared q) ∧
      ∀ place, (∀ p, Clears sources.settings s.own.dir all s.environment.files p →
        ¬s.environment.files.Holds [p] place) →
          u.environment.files.entry? place = s.environment.files.entry? place) s := by
  refine removing_dirs.clear sources all token s fun paths u listed empties =>
    ⟨fun p cleared => ?_, fun place apart => ?_⟩
  · obtain ⟨q, there, same⟩ :=
      Path.exists_mem_dedup _ p (Path.mem_sort.2 ((listed p).2 cleared))
    exact ⟨q, same, empties.cleared q there⟩
  · refine empties.kept place ?_
    rintro ⟨p, there, held⟩
    have chosen := (listed p).1 (Path.mem_sort.1 (Path.mem_of_mem_dedup there))
    exact apart p chosen ⟨p, List.mem_singleton_self p, held⟩

/-! ### Calls come to an end -/

theorem timed_removeAll (remove : Remover) (paths : List Path) :
    (removeAll remove paths).run.Timed := by
  refine Timed.bindExcept (fun _ => trivial) fun results => ?_
  dsimp only
  split
  · trivial
  · trivial

theorem timed_tempDirs (settings : FileStoreSettings) : (tempDirs settings).run.Timed := by
  refine Timed.bindExcept (fun _ => trivial) fun found => ?_
  cases found with
  | ok found => trivial
  | error kind => trivial

theorem timed_unregister (sources : Sources) (name : String) (token : Token) :
    ((files sources).unregister name token).run.Timed := by
  have named {β : Type} (r : Except NameError β) : (Storing.naming r : Filing β).run.Timed := by
    cases r with
    | ok v => trivial
    | error e => trivial
  refine Timed.bindExcept (fun _ => trivial) fun before => ?_
  refine Timed.bindExcept (fun _ => trivial) fun _ => ?_
  refine Timed.bindExcept (named _) fun contentKey => ?_
  refine Timed.bindExcept (named _) fun codeKey => ?_
  refine Timed.bindExcept (fun _ => trivial) fun o => ?_
  cases o.dir with
  | none => trivial
  | some dir => exact Timed.within (timed_removeAll _ _)

theorem timed_clear (sources : Sources) (all : Bool) (token : Token) :
    ((files sources).clear all token).run.Timed := by
  refine Timed.bindExcept (fun _ => trivial) fun _ => ?_
  refine Timed.bindExcept (fun _ => trivial) fun o => ?_
  refine Timed.bindExcept (fun _ => trivial) fun _ => ?_
  refine Timed.within ?_
  cases all with
  | false => exact timed_removeAll _ _
  | true => exact (timed_tempDirs _).bindExcept fun _ => timed_removeAll _ _

end Files

/-! ## What a repeated call leaves -/

open KeyValue Files in
/-- A removal has failed, and is repeated after the fault is gone. Over an engine it then succeeds,
and of what the failed call was to delete all is gone that the call deleted, and what the store
still knows: the documents under the plain keys of a name, and all documents if it clears for all.
What the failed call did not delete of the variants of a name that the overlay had, and of the
documents that the store wrote, stays. Over files, where the repeated call succeeds, nothing is left
at the plain paths of a name, of an output directory that is set and, if it clears for all, of
the temporary directories; nothing else is removed, so the temporary output directory stays where
the call does not clear for all. -/
theorem repeated_call_removes_what_is_known (resolver : Resolver) (pageSize : Nat)
    (sources : Sources) (token token' : Token) :
    (∀ (e : StoreError) (s t t' : Site Written), Site.SameMemory t t' →
      (∀ d : Collection × String, document d.1 d.2 t' = document d.1 d.2 t) → Ready token' t' →
      (∀ name, ((keyValue resolver pageSize).unregister name token).run.Runs Job.Passes s
          (.error e) t → (∀ reason, e ≠ .naming reason) → ∃ u,
        ((keyValue resolver pageSize).unregister name token').run.finish t' = some (.ok (), u) ∧
          ∀ d, let gone :=
              KeyValue.Plain resolver name d ∨ Listed s.overlay resolver name d ∧ Lost s e d
            (gone → document d.1 d.2 u = none) ∧
              (¬gone → document d.1 d.2 u = document d.1 d.2 s)) ∧
      (((keyValue resolver pageSize).clear false token).run.Runs Job.Passes s (.error e) t → ∃ u,
        ((keyValue resolver pageSize).clear false token').run.finish t' = some (.ok (), u) ∧
          ∀ d, let gone := d ∈ s.own ∧ Lost s e d
            (gone → document d.1 d.2 u = none) ∧
              (¬gone → document d.1 d.2 u = document d.1 d.2 s)) ∧
      (((keyValue resolver pageSize).clear true token).run.Runs Job.Passes s (.error e) t → ∃ u,
        ((keyValue resolver pageSize).clear true token').run.finish t' = some (.ok (), u) ∧
          ∀ d : Collection × String, document d.1 d.2 u = none)) ∧
    ∀ (e : StoreError) (s t t' : Site Output), Site.SameMemory t t' →
      (∀ name, ((files sources).unregister name token).run.Runs Job.Passes s (.error e) t →
        (∀ reason, e ≠ .naming reason) → ∃ dir r u, s.own.dir = some dir ∧
          ((files sources).unregister name token').run.finish t' = some (r, u) ∧ (r = .ok () →
            (∀ d, KeyValue.Plain sources.resolver name d →
              ∃ p, p.same (dir.join (relativePath d.2)) = true ∧ u.environment.files.Lacks p) ∧
            ∀ place, (∀ d, KeyValue.Plain sources.resolver name d →
                ¬t'.environment.files.Covers [dir.join (relativePath d.2)] place) →
              u.environment.files.entry? place = t'.environment.files.entry? place)) ∧
      ∀ all, ((files sources).clear all token).run.Runs Job.Passes s (.error e) t → ∃ r u,
        ((files sources).clear all token').run.finish t' = some (r, u) ∧ (r = .ok () →
          let clears := Clears sources.settings sources.settings.outputDir all t'.environment.files
          (∀ p, clears p → ∃ q, q.same p = true ∧ u.environment.files.Cleared q) ∧
          ∀ place, (∀ p, clears p → ¬t'.environment.files.Holds [p] place) →
            u.environment.files.entry? place = t'.environment.files.entry? place) := by
  refine ⟨?_, ?_⟩
  · intro e s t t' memory same ready
    refine ⟨fun name runs fault => ?_, fun runs => ?_, fun runs => ?_⟩
    · obtain ⟨content, code, forgotten, leaves⟩ := runs_failed_unregister runs fault
      obtain ⟨u, ends, again⟩ := finish_unregister pageSize ready content code
      have overlay : t'.overlay = s.overlay.eraseName name := memory.1.trans forgotten
      simp only [overlay, listed_eraseName] at again
      exact ⟨u, ends, leaves.repeated same again⟩
    · obtain ⟨forgotten, leaves⟩ := runs_failed_clear runs
      obtain ⟨u, ends, again⟩ := finish_clear false ready
      refine ⟨u, ends, fun d => ?_⟩
      have stays : document d.1 d.2 u = document d.1 d.2 t := by
        rw [(again d).2, same d]
        simp [memory.2, forgotten]
      rw [stays]
      exact leaves d
    · obtain ⟨u, ends, again⟩ := finish_clear true ready
      exact ⟨u, ends, fun d => (again d).1 (.inl rfl)⟩
  · intro e s t t' memory
    refine ⟨fun name runs fault => ?_, fun all runs => ?_⟩
    · obtain ⟨⟨dir, known⟩, forgotten, own⟩ := Files.runs_failed_unregister runs fault
      have overlay : t'.overlay = s.overlay.eraseName name := memory.1.trans forgotten
      have known' : t'.own.dir = some dir := by rw [memory.2, own, known]
      obtain ⟨r, u, ends⟩ := (timed_unregister sources name token').ends t'
      refine ⟨dir, r, u, known, ends, ?_⟩
      rintro rfl
      obtain ⟨lacks, kept⟩ := (Files.succeeds_unregister sources name token' t' known').finish ends
      rw [overlay] at lacks kept
      refine ⟨fun d plain => lacks d.2 ?_, fun place apart => kept place fun key listed => ?_⟩
      · obtain ⟨collection, key⟩ := d
        cases collection with
        | content => exact .inl (Overlay.listsContent_eraseName.2 plain)
        | code => exact .inr (Overlay.listsCode_eraseName.2 plain)
      · rcases listed with content | code
        · exact apart (.content, key) (Overlay.listsContent_eraseName.1 content)
        · exact apart (.code, key) (Overlay.listsCode_eraseName.1 code)
    · obtain ⟨r, u, ends⟩ := (timed_clear sources all token').ends t'
      refine ⟨r, u, ends, ?_⟩
      rintro rfl
      have known : t'.own.dir = sources.settings.outputDir := by
        rw [memory.2]
        exact Files.runs_clear runs
      have cleared := (Files.succeeds_clear sources all token' t').finish ends
      rw [known] at cleared
      exact cleared

namespace Sample

/-- What an operation leaves, however it ends. -/
def leaving (x : Storing π α) (s : Site π) : Site π := ((x.run.finish s).map (·.2)).getD s

/-- Whether an operation that comes to an end succeeds. -/
def success? (x : Storing π α) (s : Site π) : Option Bool :=
  (x.run.finish s).map fun (r, _) => r.toOption.isSome

def faulty (faults : List Fault) (s : Site Written) : Site Written :=
  { s with environment := { s.environment with engine := { s.environment.engine with faults } } }

def refusal : Fault := ⟨some .delete, none, none, .refused "no"⟩

def engineStore : Store Written := keyValue ⟨.standard, none⟩ 10

/-- A call was refused, and a token is not cancelled. -/
def refused (token : Token) : Except StoreError Unit × Site Written → Bool
  | (.error (.batch _), t) => !Job.isCancelled token t
  | _ => false

/-- Content of the name `a` has been written, and one of its own for French. -/
def wrote : Site Written :=
  leaving (do
    let _ ← engineStore.writeContent ⟨"a", none, none⟩ (.text "hello") ⟨[1], none⟩
    let _ ← engineStore.writeContent ⟨"a", none, some (KeyMap.insert ∅ "lang" "fr")⟩
      (.text "salut") ⟨[1], none⟩) { own := [] }

/-- A store over files whose output directory is the given one, or a temporary one. -/
def fileStore (dir : Option Path) : Store Output :=
  files ⟨{ sourceDir := ⟨"/in"⟩, outputDir := dir, tempRoot := some ⟨"/tmp"⟩ },
    ⟨.standard, none⟩, none⟩

/-- Content of the name `a` has been written, and a token has been cancelled. -/
def output (dir : Option Path) : Site Output :=
  leaving (do let _ ← (fileStore dir).writeContent ⟨"a", none, none⟩ (.text "hello") ⟨[1], none⟩) {
    own := { dir := dir }
    environment := {
      clock := { cancelled := [0] }
      files := { entries := .ofPairs [("/tmp", .directory), ("/out", .directory)] } } }

/-- The order of removals, in a form that can be evaluated where there is at most one. -/
def few : List Path → List Path
  | [] => []
  | [p] => [p]
  | paths => Path.dedup (Path.sort paths)

theorem few_eq (paths : List Path) : Path.dedup (Path.sort paths) = few paths := by
  rcases paths with _ | ⟨p, _ | ⟨q, rest⟩⟩
  · simp [Path.sort, Path.dedup, few]
  · simp [Path.sort, Path.dedup, few]
  · rfl

end Sample

open Store.Sample KeyValue Files in
/-- The plain content of a name is gone in the end, and so is an output directory that is set. -/
theorem known_removals_are_made_up_for :
    (∃ u, (engineStore.unregister "a" ⟨[1], none⟩).run.finish (faulty []
        (leaving (engineStore.unregister "a" ⟨[0], none⟩) (faulty [refusal] wrote))) =
        some (.ok (), u) ∧ document .content "partials/a.html" wrote ≠ none ∧
          document .content "partials/a.html" u = none) ∧
    ∃ u, ((fileStore (some ⟨"/out"⟩)).clear false ⟨[1], none⟩).run.finish
        (leaving ((fileStore (some ⟨"/out"⟩)).clear false ⟨[0], none⟩) (output (some ⟨"/out"⟩))) =
        some (.ok (), u) ∧ ∃ q : Path, q.same ⟨"/out"⟩ = true ∧ u.environment.files.Cleared q := by
  have repeated := repeated_call_removes_what_is_known ⟨.standard, none⟩ 10
    ⟨{ sourceDir := ⟨"/in"⟩, outputDir := some ⟨"/out"⟩, tempRoot := some ⟨"/tmp"⟩ },
      ⟨.standard, none⟩, none⟩ ⟨[0], none⟩ ⟨[1], none⟩
  constructor
  · have failed : ((engineStore.unregister "a" ⟨[0], none⟩).run.finish
        (faulty [refusal] wrote)).map (refused ⟨[1], none⟩) = some true := by
      unfold engineStore keyValue keyValue.distinct
      simp only [List.mergeSort_eq_insertionSort (α := String) (· ≤ ·)]
      decide +kernel
    obtain ⟨⟨r, t⟩, ends, failed⟩ := Option.map_eq_some_iff.1 failed
    unfold leaving
    rw [ends]
    rcases r with e | _
    · cases e with
      | batch failure =>
          have live : (!Job.isCancelled ⟨[1], none⟩ t) = true := failed
          rw [Bool.not_eq_true'] at live
          have ready : Ready ⟨[1], none⟩ (faulty [] t) :=
            ⟨rfl, live, fun _ never => by cases never⟩
          obtain ⟨u, again, left⟩ := (repeated.1 _ (faulty [refusal] wrote) t (faulty [] t)
            ⟨rfl, rfl⟩ (fun _ => rfl) ready).1 "a"
            (Job.runs_alone (fun _ => rfl) (fun _ _ => rfl) ends) fun _ other => by cases other
          exact ⟨u, again, by decide +kernel, (left (.content, _)).1 (.inl rfl)⟩
      | _ => cases failed
    · cases failed
  · have failed : (((fileStore (some ⟨"/out"⟩)).clear false ⟨[0], none⟩).run.finish
        (output (some ⟨"/out"⟩))).map (·.1.toOption) = some none := by
      unfold fileStore files
      simp only [few_eq]
      decide +kernel
    obtain ⟨⟨r, t⟩, ends, failed⟩ := Option.map_eq_some_iff.1 failed
    have fine : (((fileStore (some ⟨"/out"⟩)).clear false ⟨[1], none⟩).run.finish
        (leaving ((fileStore (some ⟨"/out"⟩)).clear false ⟨[0], none⟩)
          (output (some ⟨"/out"⟩)))).map (·.1.toOption) = some (some ()) := by
      unfold fileStore files
      simp only [few_eq]
      decide +kernel
    unfold leaving at fine ⊢
    rw [ends] at fine ⊢
    rcases r with e | _
    · obtain ⟨r, u, again, left⟩ := (repeated.2 e _ t t ⟨rfl, rfl⟩).2 false
        (Job.runs_alone (fun _ => rfl) (fun _ _ => rfl) ends)
      have again' : ((fileStore (some ⟨"/out"⟩)).clear false ⟨[1], none⟩).run.finish t =
          some (r, u) := again
      refine ⟨u, ?_⟩
      replace fine : (((fileStore (some ⟨"/out"⟩)).clear false ⟨[1], none⟩).run.finish t).map
          (·.1.toOption) = some (some ()) := fine
      rw [again'] at fine
      cases r with
      | error e => cases fine
      | ok _ => exact ⟨again', (left rfl).1 _ (.inl rfl)⟩
    · cases failed

open Store.Sample KeyValue Files in
/-- What was only remembered stays: the store's own documents and a temporary output directory when
a clearance is repeated, and the variants of a name when its unregistration is. -/
theorem remembered_removals_are_forgotten :
    (let clear := engineStore.clear false ⟨[1], none⟩
      let failed := leaving clear (faulty [refusal] wrote)
      success? clear (faulty [refusal] wrote) = some false ∧
        success? clear (faulty [] failed) = some true ∧
        (document .content "partials/a.html" (leaving clear (faulty [] wrote))).isSome = false ∧
        (document .content "partials/a.html" (leaving clear (faulty [] failed))).isSome = true) ∧
    (let unregister := engineStore.unregister "a" ⟨[1], none⟩
      let failed := leaving unregister (faulty [refusal] wrote)
      let french := "partials/a.html?lang=fr"
      success? unregister (faulty [refusal] wrote) = some false ∧
        success? unregister (faulty [] failed) = some true ∧
        (document .content french (leaving unregister (faulty [] wrote))).isSome = false ∧
        (document .content french (leaving unregister (faulty [] failed))).isSome = true) ∧
    (let clear token := (fileStore none).clear false ⟨[token], none⟩
      let failed := leaving (clear 0) (output none)
      let file : Path := ⟨"/tmp/quill-zQ0000/partials/a.html"⟩
      success? (clear 0) (output none) = some false ∧ success? (clear 1) failed = some true ∧
        (leaving (clear 1) (output none)).environment.files.readText file = .error .notFound ∧
        (leaving (clear 1) failed).environment.files.readText file = .ok "hello") := by
  refine ⟨by decide +kernel, ?_, ?_⟩
  · unfold engineStore keyValue keyValue.distinct
    simp only [List.mergeSort_eq_insertionSort (α := String) (· ≤ ·)]
    decide +kernel
  · unfold fileStore files
    simp only [few_eq]
    decide +kernel

end Store
end TemplateCache
