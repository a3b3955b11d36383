import Mathlib.Data.Option.Basic
import TemplateCache.Proofs.Files.Walk
import TemplateCache.Proofs.Job.Prompt
import TemplateCache.Proofs.Store.Sources

/-!
# What a scan of source files finds

A scan that can walk the source tree and lay out the output tree finds the record of every source
file that has a name and a text, whatever becomes of the other files. No two files have the same
key, since a file has a name only where it is at the place of its own key.
-/

namespace TemplateCache.Store

open Job

/-! ## Names and keys of source files -/

namespace Sources

variable {s : Sources} {path : Path} {name key : String} {names names' : List String}

/-- What a scan makes of a source file that has a name and a text. -/
def recordOf? (s : Sources) (t : FileTree) (path : Path) : Option ContentRecord := do
  let name ← s.nameOf path
  let text ← (t.readText path).toOption
  let key ← (s.keyOf name path).toOption
  return .make name key (.ofSource text path.extension?) .discovered path.extension? none

/-- The records of all source files that a walk comes to. -/
def recordsOf (s : Sources) (t : FileTree) : List ContentRecord :=
  (Walk.below t s.settings.sourceDir).files.filterMap (s.recordOf? t)

/-- The path that a walk has for the file with some names. -/
def pathOf (s : Sources) (names : List String) : Path :=
  s.settings.sourceDir.join (Path.ofNames names)

theorem relative_pathOf (s : Sources) (proper : Place.Proper names) (many : names ≠ []) :
    s.relative? (s.pathOf names) = some (Path.ofNames names) := by
  unfold relative? pathOf
  rw [Path.stripPrefix_join _ proper many]
  rfl

theorem toOption_eq_some {ε α : Type} {r : Except ε α} {a : α} (h : r.toOption = some a) :
    r = .ok a := by
  cases r with
  | ok b =>
      cases h
      rfl
  | error e => cases h

/-- A file that has a name is not hidden, and it is at the place of its key. -/
theorem nameOf_eq_some (named : s.nameOf path = some name) :
    ∃ relative key, s.relative? path = some relative ∧ s.keyOf name path = .ok key ∧
      (∀ part ∈ relative.parts, ∃ n, part.normal? = some n ∧ isHidden n = false) ∧
      (s.fileOf key).same (s.pathOf relative.normalNames) = true := by
  unfold nameOf at named
  obtain ⟨relative, below, named⟩ := Option.bind_eq_some_iff.1 named
  obtain ⟨_, shown, named⟩ := Option.bind_eq_some_iff.1 named
  obtain ⟨_, -, named⟩ := Option.bind_eq_some_iff.1 named
  obtain ⟨key, keyed, named⟩ := Option.bind_eq_some_iff.1 named
  obtain ⟨_, own, same⟩ := Option.bind_eq_some_iff.1 named
  rw [Option.some.inj same] at keyed
  replace shown := List.all_eq_true.1 ((Option.guard_eq_some' _).1 shown)
  refine ⟨relative, key, below, toOption_eq_some keyed, fun part there => ?_,
    (Option.guard_eq_some' _).1 own⟩
  obtain ⟨n, normal, visible⟩ := (Option.any_eq_true _ _).1 (shown part there)
  exact ⟨n, normal, by simpa using visible⟩

theorem recordOf?_eq {t : FileTree} (named : s.nameOf path = some name)
    (keyed : s.keyOf name path = .ok key) :
    s.recordOf? t path = (t.readText path).toOption.map fun text =>
      .make name key (.ofSource text path.extension?) .discovered path.extension? none := by
  unfold recordOf?
  rw [named]
  cases t.readText path with
  | ok text =>
      show ((s.keyOf name path).toOption.bind fun key => _) = _
      rw [keyed]
      rfl
  | error kind => rfl

theorem visible_of_named (proper : Place.Proper names) (many : names ≠ [])
    (named : s.nameOf (s.pathOf names) = some name) : Walk.Visible names := by
  obtain ⟨relative, -, below, -, shown, -⟩ := nameOf_eq_some named
  cases below.symm.trans (relative_pathOf s proper many)
  intro n there
  have part : Part.normal n ∈ (Path.ofNames names).parts := by
    rw [Path.parts_ofNames proper]
    exact List.mem_map_of_mem there
  obtain ⟨n', same, visible⟩ := shown _ part
  cases same
  exact visible

/-- Two source files with one key are the same file. -/
theorem names_eq_of_supplies (proper : Place.Proper names) (many : names ≠ [])
    (proper' : Place.Proper names') (many' : names' ≠ [])
    (supplies : s.Supplies (s.pathOf names) key) (supplies' : s.Supplies (s.pathOf names') key) :
    names = names' := by
  obtain ⟨name, named, keyed⟩ := supplies
  obtain ⟨name', named', keyed'⟩ := supplies'
  obtain ⟨relative, k, below, own, -, there⟩ := nameOf_eq_some named
  obtain ⟨relative', k', below', own', -, there'⟩ := nameOf_eq_some named'
  cases below.symm.trans (relative_pathOf s proper many)
  cases below'.symm.trans (relative_pathOf s proper' many')
  cases own.symm.trans keyed
  cases own'.symm.trans keyed'
  rw [Path.normalNames_ofNames proper] at there
  rw [Path.normalNames_ofNames proper'] at there'
  exact Path.join_injective proper proper' (Path.same_trans (Path.same_symm there) there')

/-- A regular file of the source tree, by the names on the way to it, has a key and a text. -/
structure Offers (s : Sources) (t : FileTree) (names : List String) (key text : String) : Prop where
  file : ∃ place, t.entryAt s.settings.sourceDir true = .ok (place, .directory) ∧
    t.HasFile place names
  supplies : s.Supplies (s.pathOf names) key
  readable : t.readText (s.pathOf names) = .ok text

section

variable {t u : FileTree} {place : Place} {text text' : String} {record : ContentRecord}

/-- Directories that are made do not change what a file of the tree has. -/
theorem readText_extends (grown : t.Extends u)
    (root : t.entryAt s.settings.sourceDir true = .ok (place, .directory))
    (file : t.HasFile place names) :
    u.readText (s.pathOf names) = t.readText (s.pathOf names) := by
  unfold FileTree.readText FileTree.read FileTree.status pathOf
  rw [FileTree.entryAt_extends grown root file]

/-- A scan has one record for each file with a name and a text. -/
theorem Offers.found (offers : s.Offers t names key text) :
    ∃ record ∈ s.recordsOf t,
      record.key = key ∧ record.content = .ofSource text (s.pathOf names).extension? := by
  obtain ⟨⟨place, root, file⟩, ⟨name, named, keyed⟩, readable⟩ := offers
  have visible := visible_of_named file.proper file.ne_nil named
  refine ⟨.make name key (.ofSource text (s.pathOf names).extension?) .discovered
    (s.pathOf names).extension? none, ?_, rfl, rfl⟩
  refine List.mem_filterMap.2 ⟨s.pathOf names, ?_, ?_⟩
  · exact Walk.mem_files_below.2 ⟨place, names, root, file, visible, rfl⟩
  · rw [recordOf?_eq named keyed, readable]
    rfl

end

end Sources

namespace Files

variable {α : Type} {s : Sources} {site : Site Output} {token : Token} {path : Path}

/-! ## Operations that do not sleep -/

section

variable {ok : Except StoreError α → Site Output → Prop}

theorem prompt_output {ok : Except StoreError Output → Site Output → Prop}
    (h : ok (.ok site.own) site) : output.run.Prompt ok site := ⟨rfl, h⟩

theorem prompt_changeOutput {f : Output → Output} {ok : Except StoreError Unit → Site Output → Prop}
    (h : ok (.ok ()) { site with own := f site.own }) : (changeOutput f).run.Prompt ok site :=
  ⟨rfl, h⟩

theorem prompt_access {f : FileTree → α × FileTree}
    (h : ok (.ok (f site.environment.files).1) { site with
      environment := { site.environment with files := (f site.environment.files).2 } }) :
    (access f).run.Prompt ok site := prompt_lift ⟨rfl, h⟩

theorem prompt_transfer {f : FileTree → α × FileTree}
    (h : ok (.ok (f site.environment.files).1) { site with
      environment := { site.environment with files := (f site.environment.files).2 } }) :
    (transfer f).run.Prompt ok site :=
  Prompt.bindExcept (prompt_access (Prompt.bindExcept (prompt_lift h)))

end

/-- A site where more directories may be there and be known. -/
structure Prepares (s u : Site Output) : Prop where
  dir : u.own.dir = s.own.dir
  made : ∀ p ∈ s.own.made, p ∈ u.own.made
  files : s.environment.files.Extends u.environment.files

/-- A directory is known to be there. -/
def Knows (u : Site Output) (dir : Path) : Prop := u.own.made.any (·.same dir) = true

theorem Prepares.refl (u : Site Output) : Prepares u u := ⟨rfl, fun _ => id, .refl _⟩

theorem Prepares.trans {u v : Site Output} (h : Prepares site u) (h' : Prepares u v) :
    Prepares site v :=
  ⟨h'.dir.trans h.dir, fun p there => h'.made p (h.made p there), h.files.trans h'.files⟩

theorem Prepares.knows {u : Site Output} (h : Prepares site u) {dir : Path}
    (known : Knows site dir) : Knows u dir := by
  obtain ⟨p, there, same⟩ := List.any_eq_true.1 known
  exact List.any_eq_true.2 ⟨p, h.made p there, same⟩

theorem prompt_provideDir (dir : Path) : (provideDir dir).run.Prompt (fun r u =>
    Prepares site u ∧ ∀ v, r = .ok v → Knows u dir) site := by
  refine Prompt.bindExcept (prompt_output ?_)
  dsimp only
  split
  · rename_i known
    exact ⟨.refl site, fun _ _ => known⟩
  · refine Prompt.bindExcept (prompt_transfer ?_)
    dsimp only
    have extends_ : site.environment.files.Extends (site.environment.files.makeDirs dir).2 :=
      FileTree.extends_makeChain _
    split
    · exact ⟨⟨rfl, fun _ => id, extends_⟩, fun _ failed => nomatch failed⟩
    · refine prompt_changeOutput
        ⟨⟨rfl, fun p there => List.mem_append_left _ there, extends_⟩, ?_⟩
      exact fun _ _ => List.any_eq_true.2 ⟨dir, List.mem_append_right _ (List.mem_singleton_self _),
        Path.same_refl dir⟩

theorem prompt_outputRoot (settings : FileStoreSettings) :
    (outputRoot settings).run.Prompt (fun r u =>
      site.environment.files.Extends u.environment.files ∧
        ∀ out, r = .ok out → u.own.dir = some out) site := by
  refine Prompt.bindExcept (prompt_output ?_)
  dsimp only
  split
  · rename_i dir known
    refine ⟨.refl _, fun out same => ?_⟩
    cases same
    exact known
  · refine Prompt.bindExcept (prompt_access ?_)
    cases made : site.environment.files.makeTempDir settings.tempParent settings.tempPrefix with
    | error kind => exact ⟨.refl _, fun _ failed => nomatch failed⟩
    | ok found =>
        refine Prompt.bindExcept (prompt_changeOutput ⟨FileTree.extends_makeTempDir made, ?_⟩)
        rintro out ⟨⟩
        rfl

theorem prompt_outputRoot_known (settings : FileStoreSettings) {out : Path}
    (dir : site.own.dir = some out) :
    (outputRoot settings).run.Prompt (fun r u => u = site ∧ r = .ok out) site := by
  refine Prompt.bindExcept (prompt_output ?_)
  dsimp only
  rw [dir]
  exact ⟨rfl, rfl⟩

theorem prompt_provideDir_known {dir : Path} (known : Knows site dir) :
    (provideDir dir).run.Prompt (fun r u => u = site ∧ r = .ok ()) site := by
  refine Prompt.bindExcept (prompt_output ?_)
  dsimp only
  rw [if_pos (show _ = true from known)]
  exact ⟨rfl, rfl⟩

/-- The output directory is known, and so are the directories in it that stand for some paths. -/
def Laid (directories : List Path) (u : Site Output) : Prop :=
  ∃ out, u.own.dir = some out ∧ ∀ path ∈ directories, Knows u (out.join path)

/-- Directories in the output directory have been provided for some paths: they are known, like the
output directory, and these are their paths. -/
structure Lays (relative dirs : List Path) (out : Path) (u : Site Output) : Prop where
  dir : u.own.dir = some out
  root : Knows u out
  known : ∀ path ∈ relative, Knows u (out.join path)
  listed : dirs = Path.sort (relative.map out.join)

theorem Lays.laid {relative dirs : List Path} {out : Path} {u : Site Output}
    (h : Lays relative dirs out u) : Laid relative u := ⟨out, h.dir, h.known⟩

/-- Each directory is made while those made before it stay known. -/
theorem prompt_provideEach (out : Path) (relative : List Path) (site : Site Output) :
    (relative.mapM fun path => (do
        let dir := out.join path
        provideDir dir
        return dir : Filing Path)).run.Prompt (fun r u => Prepares site u ∧ ∀ dirs, r = .ok dirs →
      dirs = relative.map out.join ∧ ∀ path ∈ relative, Knows u (out.join path)) site := by
  -- The loop collects the directories in `made`, in reverse.
  suffices loop : ∀ (rest made : List Path) (u : Site Output),
      (List.mapM.loop (fun path => (do
        let dir := out.join path
        provideDir dir
        return dir : Filing Path)) rest made).run.Prompt (fun r v => Prepares u v ∧
          ∀ dirs, r = .ok dirs → dirs = made.reverse ++ rest.map out.join ∧
            ∀ path ∈ rest, Knows v (out.join path)) u from loop relative [] site
  intro rest
  induction rest with
  | nil =>
      refine fun made u => ⟨.refl u, ?_⟩
      rintro dirs ⟨⟩
      exact ⟨(List.append_nil _).symm, fun _ there => absurd there List.not_mem_nil⟩
  | cons path rest ih =>
      intro made u
      refine Prompt.bindExcept (Prompt.bindExcept ((prompt_provideDir (out.join path)).mono ?_))
      rintro (e | _) v ⟨first, known⟩
      · exact ⟨first, fun _ failed => nomatch failed⟩
      refine (ih (out.join path :: made) v).mono ?_
      rintro r w ⟨later, fine⟩
      refine ⟨first.trans later, fun dirs same => ?_⟩
      obtain ⟨listed, others⟩ := fine dirs same
      rw [List.reverse_cons, List.append_assoc] at listed
      exact ⟨listed, List.forall_mem_cons.2 ⟨later.knows (known () rfl), others⟩⟩

theorem prompt_provideDirs (s : Sources) (relative : List Path) :
    (provideDirs s relative).run.Prompt (fun r u =>
      site.environment.files.Extends u.environment.files ∧
        ∀ dirs, r = .ok dirs → ∃ out, Lays relative dirs out u) site := by
  refine Prompt.bindExcept ((prompt_outputRoot s.settings).mono ?_)
  rintro (e | out) u ⟨grown, known⟩
  · exact ⟨grown, fun _ failed => nomatch failed⟩
  replace known : u.own.dir = some out := known out rfl
  refine Prompt.bindExcept ((prompt_provideDir out).mono ?_)
  rintro (e | _) v ⟨prepares, root⟩
  · exact ⟨grown.trans prepares.files, fun _ failed => nomatch failed⟩
  replace root : Knows v out := root () rfl
  refine Prompt.bindExcept ((prompt_provideEach out relative v).mono ?_)
  rintro (e | dirs) w ⟨after, provided⟩
  · exact ⟨grown.trans (prepares.files.trans after.files), fun _ failed => nomatch failed⟩
  · obtain ⟨rfl, each⟩ := provided dirs rfl
    refine ⟨grown.trans (prepares.files.trans after.files), ?_⟩
    rintro _ ⟨⟩
    exact ⟨out, by rw [after.dir, prepares.dir, known], after.knows root, each, rfl⟩

/-! ## Reading one file -/

/-- What is read at a path by looking first whether it is a file. -/
theorem prompt_load (target : String) :
    (do
      match ← transfer fun t => (t.status path, t) with
      | .ok (.file _) => readText path target
      | .ok _ => return none
      | .error .notFound => return none
      | .error kind => throw (fileError target kind) : Filing (Option String)).run.Prompt
      (fun r u => u = site ∧
        r.toOption.join = (site.environment.files.readText path).toOption) site := by
  refine Prompt.bindExcept (prompt_transfer ?_)
  have unread (r : Except StoreError (Option String)) (nothing : r.toOption.join = none)
      (there : ∀ bytes, site.environment.files.status path ≠ .ok (.file bytes)) :
      site = site ∧ r.toOption.join = (site.environment.files.readText path).toOption := by
    refine ⟨rfl, nothing.trans ?_⟩
    unfold FileTree.readText FileTree.read
    rcases found : site.environment.files.status path with kind | (bytes | _ | target)
    · rfl
    · exact absurd found (there bytes)
    · rfl
    · rfl
  dsimp only
  split
  · refine Prompt.bindExcept (prompt_transfer ?_)
    dsimp only
    cases read : site.environment.files.readText path with
    | ok text => exact ⟨rfl, rfl⟩
    | error kind => cases kind <;> exact ⟨rfl, rfl⟩
  · rename_i e other found
    exact unread _ rfl fun bytes there => other bytes (Except.ok.inj (found.symm.trans there))
  · rename_i found
    exact unread _ rfl fun bytes there => nomatch found.symm.trans there
  · rename_i kind _ found
    exact unread _ rfl fun bytes there => nomatch found.symm.trans there

/-- Where the directory of a file can be provided in the output tree, reading the file gives its
record. What follows for the output tree is what follows from the directory. -/
theorem prompt_readSource_of {t : FileTree} (good : Output → Environment → Prop)
    (lets : Lets token site) (same : site.environment.files.readText path = t.readText path)
    (start : good site.own site.environment)
    (provides : ∀ above, (s.relative? path).bind Path.parent? = some above → above.text ≠ "" →
      (outputRoot s.settings).run.Prompt (fun r u => ∃ out, r = .ok out ∧
        (provideDir (out.join above)).run.Prompt
          (fun r v => r = .ok () ∧ good v.own v.environment) u) site) :
    (readSource s path token).run.Prompt (fun r u => good u.own u.environment ∧
      r.toOption.join = s.recordOf? t path) site := by
  unfold readSource
  split
  · rename_i unnamed
    refine ⟨start, ?_⟩
    rw [Sources.recordOf?, unnamed]
    rfl
  rename_i name named
  obtain ⟨_, key, -, keyed, -⟩ := Sources.nameOf_eq_some named
  rw [Sources.recordOf?_eq named keyed, keyed]
  refine Prompt.bindExcept (Prompt.within lets ((prompt_load path.text).mono ?_))
  rintro r u ⟨rfl, read⟩
  rw [← same, ← read]
  rcases r with e | (_ | source)
  · exact ⟨start, rfl⟩
  · exact ⟨start, rfl⟩
  dsimp only
  split
  · exact ⟨rfl, start, rfl⟩
  · rename_i above nearest
    split
    · exact ⟨rfl, start, rfl⟩
    · rename_i full
      refine Prompt.bindExcept ((provides above nearest (by simpa using full)).mono ?_)
      rintro _ u ⟨out, rfl, provided⟩
      refine Prompt.bindExcept (provided.mono ?_)
      rintro _ v ⟨rfl, fine⟩
      exact ⟨rfl, fine, rfl⟩

/-- Where the directory of a file is known in the output tree, reading the file changes nothing but
the overlay. -/
theorem prompt_readSource {t : FileTree} (lets : Lets token site)
    (same : site.environment.files.readText path = t.readText path)
    (laid : ∀ above, (s.relative? path).bind Path.parent? = some above → above.text ≠ "" →
      ∃ out, site.own.dir = some out ∧ Knows site (out.join above)) :
    (readSource s path token).run.Prompt (fun r u => (u.own = site.own ∧
      u.environment = site.environment) ∧ r.toOption.join = s.recordOf? t path) site := by
  refine prompt_readSource_of (fun own environment => own = site.own ∧
    environment = site.environment) lets same ⟨rfl, rfl⟩ fun above nearest full => ?_
  obtain ⟨out, dir, known⟩ := laid above nearest full
  -- The directory is known, so it is not made again.
  refine (prompt_outputRoot_known s.settings dir).mono ?_
  rintro _ u ⟨rfl, rfl⟩
  refine ⟨out, rfl, (prompt_provideDir_known known).mono ?_⟩
  rintro _ v ⟨rfl, rfl⟩
  exact ⟨rfl, rfl, rfl⟩

/-! ## The whole scan -/

/-- Walking the source tree and laying out the output tree succeed. -/
def Mirrors (s : Sources) (token : Token) (site : Site Output) : Prop :=
  ∃ found u dirs v,
    (Storing.within token "filesystem scan" (walk s)).run.finish site = some (.ok found, u) ∧
      (provideDirs s found.directories).run.finish u = some (.ok dirs, v)

instance (s : Sources) (token : Token) (site : Site Output) : Decidable (Mirrors s token site) :=
  match walks : (Storing.within token "filesystem scan" (walk s)).run.finish site with
  | some (.ok found, u) =>
    match lays : (provideDirs s found.directories).run.finish u with
    | some (.ok dirs, v) => isTrue ⟨found, u, dirs, v, walks, lays⟩
    | some (.error _, _) | none => isFalse fun ⟨_, _, _, _, walks', lays'⟩ => by
        cases walks.symm.trans walks'
        cases lays.symm.trans lays'
  | some (.error _, _) | none => isFalse fun ⟨_, _, _, _, walks', _⟩ => by
      cases walks.symm.trans walks'

/-- A walk takes no time, and is done unless the token forbids it. -/
theorem prompt_walk (s : Sources) (token : Token) (site : Site Output) :
    (Storing.within token "filesystem scan" (walk s)).run.Prompt (fun r u => u = site ∧
      ∀ found, r = .ok found → Lets token site ∧
        found = Walk.below site.environment.files s.settings.sourceDir) site := by
  by_cases live : isCancelled token site = false
  · by_cases lasts : isPast (token.timeout.map fun d =>
      (Clocked.clock site).now + Duration.timer d.ticks) site = false
    · have lets : Lets token site := ⟨live, lasts⟩
      refine Prompt.within lets (prompt_transfer ⟨rfl, fun found same => ⟨lets, ?_⟩⟩)
      cases same
      rfl
    · refine ⟨rfl, ?_⟩
      dsimp only [id]
      rw [if_neg (Bool.eq_false_iff.1 live)]
      refine ⟨rfl, rfl, ?_⟩
      dsimp only [id]
      rw [if_pos (Bool.of_not_eq_false lasts)]
      exact ⟨rfl, fun _ failed => nomatch failed⟩
  · refine ⟨rfl, ?_⟩
    dsimp only [id]
    rw [if_pos (Bool.of_not_eq_false live)]
    exact ⟨rfl, fun _ failed => nomatch failed⟩

/-- For a file that a walk has found, the output tree has a directory to lie in. -/
theorem Laid.above {t : FileTree} (laid : Laid (Walk.below t s.settings.sourceDir).directories site)
    (walked : path ∈ (Walk.below t s.settings.sourceDir).files) {above : Path}
    (nearest : (s.relative? path).bind Path.parent? = some above) (full : above.text ≠ "") :
    ∃ out, site.own.dir = some out ∧ Knows site (out.join above) := by
  obtain ⟨place, names, root, file, visible, rfl⟩ := Walk.mem_files_below.1 walked
  obtain ⟨out, dir, known⟩ := laid
  refine ⟨out, dir, known above ?_⟩
  change (s.relative? (s.pathOf names)).bind Path.parent? = some above at nearest
  rw [Sources.relative_pathOf s file.proper file.ne_nil] at nearest
  rcases List.eq_nil_or_concat names with none | ⟨upper, name, rfl⟩
  · exact absurd none file.ne_nil
  rw [List.concat_eq_append] at *
  cases (Path.parent_ofNames file.proper).symm.trans nearest
  refine Walk.mem_directories_below ?_ root file visible
  rintro rfl
  exact full rfl

theorem found_loaded {t : FileTree} {files : List Path}
    {loaded : List (Except StoreError (Option ContentRecord))}
    (each : List.Forall₂ (fun path r => r.toOption.join = s.recordOf? t path) files loaded) :
    (Batch.valuesOf loaded).filterMap id = files.filterMap (s.recordOf? t) := by
  unfold Batch.valuesOf
  rw [List.filterMap_filterMap]
  induction each with
  | nil => rfl
  | cons own _ ih =>
      rw [List.filterMap_cons, List.filterMap_cons, ih, ← own]
      rename_i r _ _ _
      rcases r with e | (_ | record) <;> rfl

/-- Where the output tree is laid out, every file is read as it was before. -/
theorem prompt_readSources {t : FileTree} (lets : Lets token site)
    (grown : t.Extends site.environment.files)
    (laid : Laid (Walk.below t s.settings.sourceDir).directories site) :
    (Storing.always ((Walk.below t s.settings.sourceDir).files.mapM
        fun path => (readSource s path token).run) : Filing _).run.Prompt (fun r u =>
      u.environment = site.environment ∧ ∃ loaded, r = .ok loaded ∧ List.Forall₂
        (fun path r => r.toOption.join = s.recordOf? t path)
        (Walk.below t s.settings.sourceDir).files loaded) site := by
  have each : ∀ path ∈ (Walk.below t s.settings.sourceDir).files,
      ∀ u : Site Output, (u.own = site.own ∧ u.environment = site.environment) →
        (readSource s path token).run.Prompt (fun r v =>
          (v.own = site.own ∧ v.environment = site.environment) ∧
            r.toOption.join = s.recordOf? t path) u := by
    rintro path walked u ⟨own, environment⟩
    have same : u.environment.files.readText path = t.readText path := by
      obtain ⟨place, names, root, file, -, rfl⟩ := Walk.mem_files_below.1 walked
      rw [environment]
      exact Sources.readText_extends grown root file
    have known : Laid (Walk.below t s.settings.sourceDir).directories u := by
      unfold Laid Knows at *
      rw [own]
      exact laid
    have lets' : Lets token u := lets.of_clock (congrArg Environment.clock environment)
    refine (prompt_readSource lets' same fun above => known.above walked).mono ?_
    rintro r v ⟨⟨own', environment'⟩, read⟩
    exact ⟨⟨own'.trans own, environment'.trans environment⟩, read⟩
  refine prompt_lift ((Prompt.mapM each ⟨rfl, rfl⟩).mono ?_)
  rintro loaded u ⟨⟨-, environment⟩, read⟩
  exact ⟨environment, loaded, rfl, read⟩

/-- A scan finds the records of all source files if it can walk and lay out, and else nothing. -/
theorem prompt_scan (s : Sources) (token : Token) (site : Site Output) :
    (Files.scan s token).Prompt (fun discovery u =>
      site.environment.files.Extends u.environment.files ∧
      (Mirrors s token site →
        discovery.found = s.recordsOf site.environment.files ∧
        ∀ e, discovery.outcome = .error e → ∃ failure, e = .batch failure) ∧
      (¬Mirrors s token site → discovery.found = [])) site := by
  have swept : (do
      let found ← Storing.within token "filesystem scan" (walk s)
      let _ ← provideDirs s found.directories
      let loaded ← Storing.within token "filesystem scan"
        (Storing.always (found.files.mapM fun path => (readSource s path token).run))
      return (found, loaded) : Filing _).run.Prompt (fun r u =>
        site.environment.files.Extends u.environment.files ∧
        match r with
        | .ok swept => Mirrors s token site ∧ List.Forall₂
            (fun path r => r.toOption.join = s.recordOf? site.environment.files path)
            (Walk.below site.environment.files s.settings.sourceDir).files swept.2
        | .error _ => ¬Mirrors s token site) site := by
    refine Prompt.bindExcept ((prompt_walk s token site).known.mono ?_)
    rintro (e | found) u ⟨⟨rfl, walked⟩, ends, -⟩
    · refine ⟨.refl _, ?_⟩
      rintro ⟨found, v, dirs, w, walks, -⟩
      cases ends.symm.trans walks
    obtain ⟨lets, rfl⟩ := walked found rfl
    refine Prompt.bindExcept ((prompt_provideDirs s _).known.mono ?_)
    rintro (e | dirs) v ⟨⟨grown, laid⟩, ends', time⟩
    · refine ⟨grown, ?_⟩
      rintro ⟨found, x, dirs, w, walks, lays⟩
      cases ends.symm.trans walks
      cases ends'.symm.trans lays
    have lets' : Lets token v := lets.of_clock time
    obtain ⟨out, lays⟩ := laid dirs rfl
    refine Prompt.bindExcept
      ((Prompt.within lets' (prompt_readSources lets' grown lays.laid)).mono ?_)
    rintro _ w ⟨environment, loaded, rfl, read⟩
    refine ⟨?_, ⟨_, _, dirs, v, ends, ends'⟩, read⟩
    rw [environment]
    exact grown
  refine Prompt.bind (swept.mono ?_)
  rintro (e | ⟨found, loaded⟩) u ⟨grown, fine⟩
  · exact ⟨grown, fun mirrors => absurd mirrors fine, fun _ => rfl⟩
  · obtain ⟨mirrors, each⟩ := fine
    refine ⟨grown, fun _ => ⟨found_loaded each, ?_⟩, fun fails => absurd mirrors fails⟩
    intro e failed
    dsimp only at failed
    generalize Batch.collect _ = outcome at failed
    cases outcome with
    | ok keys => cases failed
    | error failure =>
        cases failed
        exact ⟨failure, rfl⟩

end Files
end TemplateCache.Store
