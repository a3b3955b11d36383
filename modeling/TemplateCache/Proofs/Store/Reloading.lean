import TemplateCache.Proofs.Files.Spelling
import TemplateCache.Proofs.Store.Scan

/-!
# Single files and whole scans

A source file that changes is read on its own, by whatever path it is reported. What is read is the
record that a scan finds for this file, if real directories are on the way to it and it is no link
itself. A scan passes over links, so it does not find a file that is read on its own through one.
-/

namespace TemplateCache

namespace Path

variable {p q base : Path}

theorem withoutExtension_of_empty (none : p.parts = []) : p.withoutExtension = p := by
  unfold withoutExtension
  rw [List.map_eq_nil_iff.1 none]
  rfl

theorem parts_eq_names (normal : ∀ part ∈ p.parts, ∃ n, part.normal? = some n) :
    p.parts = p.normalNames.map .normal := by
  unfold normalNames
  generalize p.parts = parts at normal
  induction parts with
  | nil => rfl
  | cons part rest ih =>
      obtain ⟨⟨n, own⟩, others⟩ := List.forall_mem_cons.1 normal
      rw [List.filterMap_cons_some own, List.map_cons, ← ih others]
      cases part <;> cases own
      rfl

/-- The extension is taken off in the same way in every spelling. -/
theorem stems_congr (same : p.parts = q.parts)
    (shown : ∀ part ∈ p.parts, ∃ n, part.normal? = some n ∧ isHidden n = false) :
    p.withoutExtension.normalNames = q.withoutExtension.normalNames := by
  rcases List.eq_nil_or_concat p.parts with none | ⟨front, last, ends⟩
  · rw [withoutExtension_of_empty none, withoutExtension_of_empty (same ▸ none), normalNames,
      normalNames, same]
  · rw [List.concat_eq_append] at ends
    obtain ⟨name, normal, visible⟩ := shown last (ends ▸ by simp)
    obtain rfl : last = .normal name := by
      cases last <;> cases normal
      rfl
    rw [normalNames, normalNames, parts_withoutExtension ends visible,
      parts_withoutExtension (same ▸ ends) visible]

theorem stripPrefix_isSome (p base : Path) :
    (p.stripPrefix? base).isSome = base.parts.isPrefixOf p.parts := by
  unfold stripPrefix?
  split
  · rename_i start
    rw [start]
    split <;> rfl
  · rename_i start
    rw [Bool.eq_false_iff.2 start]
    rfl

theorem mem_parts_stripped {part : Part} (base : Path)
    (there : part ∈ ((p.stripPrefix? base).getD p).parts) : part ∈ p.parts := by
  cases left : p.stripPrefix? base with
  | none => rwa [left] at there
  | some r =>
      rw [left] at there
      rw [parts_stripPrefix left]
      exact List.mem_append_right _ there

/-- What is left below a prefix, or the whole path, has the same parts in every spelling. -/
theorem parts_stripped (same : p.parts = q.parts) (base : Path) :
    ((p.stripPrefix? base).getD p).parts = ((q.stripPrefix? base).getD q).parts := by
  have found : (p.stripPrefix? base).isSome = (q.stripPrefix? base).isSome := by
    rw [stripPrefix_isSome, stripPrefix_isSome, same]
  cases left : p.stripPrefix? base with
  | none =>
      rw [left] at found
      rw [Option.isSome_eq_false_iff.1 found.symm |> Option.isNone_iff_eq_none.1]
      exact same
  | some r =>
      rw [left] at found
      obtain ⟨r', left'⟩ := Option.isSome_iff_exists.1 found.symm
      rw [left']
      exact List.append_cancel_left
        ((parts_stripPrefix left).symm.trans (same.trans (parts_stripPrefix left')))

end Path

namespace Store

open Job FileTree

/-- A path can be that of a file: its text is one that a path can have, and neither a slash nor a
dot is behind its last part. -/
def OfFile (p : Path) : Prop := checkText p.text = .ok () ∧ (steps p).getLast? ≠ some .current

instance (p : Path) : Decidable (OfFile p) := inferInstanceAs (Decidable (_ ∧ _))

namespace Sources

variable {s : Sources} {t : FileTree} {p : Path} {names : List String} {name : String}
  {record : ContentRecord} {place : Place}

/-! ## Other spellings of source files -/

/-- A path has some names below the source directory, however it is spelled. -/
structure Spells (s : Sources) (p : Path) (names : List String) : Prop where
  proper : Place.Proper names
  many : names ≠ []
  below : ∃ relative, s.relative? p = some relative ∧ relative.parts = names.map .normal

/-- What is in front of the names is the source directory, or this directory without links. -/
theorem Spells.within (spells : s.Spells p names) :
    ∃ base, (base = s.settings.sourceDir ∨ s.canonicalDir = some base) ∧ base.Within names p := by
  obtain ⟨proper, -, relative, below, parts⟩ := spells
  unfold relative? at below
  rcases Option.or_eq_some_iff.1 below with left | ⟨-, left⟩
  · exact ⟨_, .inl rfl, proper, parts ▸ Path.parts_stripPrefix left⟩
  · obtain ⟨base, canonical, left⟩ := Option.bind_eq_some_iff.1 left
    exact ⟨base, .inr canonical, proper, parts ▸ Path.parts_stripPrefix left⟩

theorem Spells.extension_eq (spells : s.Spells p names) :
    p.extension? = (s.pathOf names).extension? := by
  obtain ⟨base, -, within⟩ := spells.within
  have some : names.map Part.normal ≠ [] := by simpa using spells.many
  refine Path.extension_of_same ?_
  rw [within.parts, pathOf, Path.parts_join _ spells.proper, List.getLast?_append_of_ne_nil _ some,
    List.getLast?_append_of_ne_nil _ some]

theorem Spells.keyOf_eq (spells : s.Spells p names) (name : String) :
    s.keyOf name p = s.keyOf name (s.pathOf names) := by
  rw [keyOf, keyOf, spells.extension_eq]

/-- The name of a source file does not depend on the spelling of its path. -/
theorem Spells.nameOf_eq (spells : s.Spells p names) :
    s.nameOf p = s.nameOf (s.pathOf names) := by
  obtain ⟨relative, below, parts⟩ := spells.below
  have same : relative.parts = (Path.ofNames names).parts := by
    rw [parts, Path.parts_ofNames spells.proper]
  have normals : relative.normalNames = (Path.ofNames names).normalNames := by
    rw [Path.normalNames, Path.normalNames, same]
  unfold nameOf
  rw [below, relative_pathOf s spells.proper spells.many]
  simp only [Option.bind_eq_bind, Option.bind_some, spells.keyOf_eq, same, normals]
  by_cases shown : ((Path.ofNames names).parts.all fun part =>
      part.normal?.any fun name => !isHidden name) = true
  · have stems := Path.stems_congr (Path.parts_stripped same ⟨s.settings.partialPrefix⟩)
      fun part there => by
        rw [List.all_eq_true] at shown
        have own := shown part (same ▸ Path.mem_parts_stripped _ there)
        obtain ⟨n, normal, visible⟩ := (Option.any_eq_true _ _).1 own
        exact ⟨n, normal, by simpa using visible⟩
    simp only [stems]
  · simp only [shown, guard, Bool.false_eq_true, if_false, Option.failure_eq_none,
      Option.bind_none]

/-- A source file that has a name has names on the way to it. -/
theorem exists_spells (named : s.nameOf p = some name) : ∃ names, s.Spells p names := by
  obtain ⟨relative, _, below, -, shown, -⟩ := nameOf_eq_some named
  have parts : relative.parts = relative.normalNames.map .normal :=
    Path.parts_eq_names fun part there => (shown part there).imp fun _ h => h.1
  refine ⟨relative.normalNames, fun n there => ?_, fun none => ?_, relative, below, parts⟩
  · exact parts_proper relative n (parts ▸ List.mem_map_of_mem there)
  · rw [none, List.map_nil] at parts
    have empty : ((relative.stripPrefix? ⟨s.settings.partialPrefix⟩).getD relative).parts = [] :=
      List.eq_nil_iff_forall_not_mem.2 fun part there => by
        have own := Path.mem_parts_stripped _ there
        rw [parts] at own
        cases own
    have bare : ((relative.stripPrefix? ⟨s.settings.partialPrefix⟩).getD
        relative).withoutExtension.normalNames = [] := by
      rw [Path.withoutExtension_of_empty empty, Path.normalNames, empty]
      rfl
    unfold nameOf at named
    rw [below] at named
    simp only [Option.bind_eq_bind, Option.bind_some, bare] at named
    obtain ⟨_, -, named⟩ := Option.bind_eq_some_iff.1 named
    cases named

theorem Spells.supplies_iff {key : String} (spells : s.Spells p names) :
    s.Supplies p key ↔ s.Supplies (s.pathOf names) key := by
  unfold Supplies
  simp only [spells.nameOf_eq, spells.keyOf_eq]

theorem Spells.recordOf?_eq (spells : s.Spells p names)
    (same : t.readText p = t.readText (s.pathOf names)) :
    s.recordOf? t p = s.recordOf? t (s.pathOf names) := by
  unfold recordOf?
  simp only [spells.nameOf_eq, spells.keyOf_eq, spells.extension_eq, same]

theorem supplies_of_recordOf? (made : s.recordOf? t p = some record) :
    s.Supplies p record.key ∧ ∃ text, t.readText p = .ok text := by
  cases named : s.nameOf p with
  | none =>
      rw [recordOf?, named] at made
      cases made
  | some name =>
      obtain ⟨_, key, -, keyed, -⟩ := nameOf_eq_some named
      rw [Sources.recordOf?_eq named keyed] at made
      obtain ⟨text, readable, rfl⟩ := Option.map_eq_some_iff.1 made
      exact ⟨⟨name, named, keyed⟩, text, toOption_eq_some readable⟩

/-! ## Records of single files -/

/-- A path is that of a regular file of the source tree with real directories on the way to it. -/
def Contains (s : Sources) (t : FileTree) (p : Path) : Prop :=
  ∃ names place, s.Spells p names ∧
    t.entryAt s.settings.sourceDir true = .ok (place, .directory) ∧ t.HasFile place names

/-- Nothing keeps a walk from entering the source tree, and each file that it finds can be read. -/
structure Readable (s : Sources) (t : FileTree) : Prop where
  walks : (Walk.below t s.settings.sourceDir).failures = []
  files : ∀ path ∈ (Walk.below t s.settings.sourceDir).files, ∃ bytes, t.read path = .ok bytes

/-- The source directory is still where it was found without links. -/
def Steady (s : Sources) (t : FileTree) : Prop :=
  ∀ c, s.canonicalDir = some c → t.entryAt c true = t.entryAt s.settings.sourceDir true

/-- No link is below the source directory. -/
def Linkless (s : Sources) (t : FileTree) : Prop :=
  ∀ place names target, t.entryAt s.settings.sourceDir true = .ok (place, .directory) →
    t.entry? (place ++ names) ≠ some (.link target)

theorem Steady.entryAt (steady : s.Steady t) {base : Path}
    (which : base = s.settings.sourceDir ∨ s.canonicalDir = some base) :
    t.entryAt base true = t.entryAt s.settings.sourceDir true := by
  rcases which with rfl | canonical
  · rfl
  · exact steady base canonical

/-- In every spelling a file is read with the same text. -/
theorem Spells.readText_eq (spells : s.Spells p names) (steady : s.Steady t) (own : OfFile p)
    (root : t.entryAt s.settings.sourceDir true = .ok (place, .directory))
    (file : t.HasFile place names) {bytes : List UInt8}
    (read : t.read (s.pathOf names) = .ok bytes) :
    t.readText p = t.readText (s.pathOf names) := by
  obtain ⟨base, which, within⟩ := spells.within
  obtain ⟨_, there⟩ := file.entry
  obtain ⟨e, status, -⟩ := ok_of_bind read
  cases found : t.entryAt (s.pathOf names) true with
  | error kind =>
      rw [FileTree.status, found] at status
      cases status
  | ok x =>
      obtain ⟨_, -, reached⟩ := ok_of_bind ((entryAt_join root file there).symm.trans found)
      split at reached
      · cases reached
      · rename_i short
        cases reached
        have spelled := file.entryAt_spelled (dirAt_of_entryAt ((steady.entryAt which).trans root))
          there (Bool.eq_false_iff.2 short) within own.1 own.2
        rw [FileTree.readText, FileTree.readText, FileTree.read, FileTree.read, FileTree.status,
          FileTree.status, spelled, found]

/-- Where no link is below the source directory, what has a text is a regular file there. -/
theorem Spells.hasFile (spells : s.Spells p names) (closed : t.Closed) (steady : s.Steady t)
    (walks : (Walk.below t s.settings.sourceDir).failures = []) (linkless : s.Linkless t)
    {text : String} (readable : t.readText p = .ok text) :
    ∃ place, t.entryAt s.settings.sourceDir true = .ok (place, .directory) ∧
      t.HasFile place names := by
  obtain ⟨base, which, within⟩ := spells.within
  obtain ⟨⟨root, e⟩, found⟩ := Walk.root_of_failures walks
  have directory {place : Place} (dir : t.DirAt base place) :
      t.entryAt s.settings.sourceDir true = .ok (place, .directory) := by
    obtain ⟨located, own⟩ := entryAt_ok.1 ((steady.entryAt which).trans found)
    cases (locate_ok.1 located).2.resolve.symm.trans dir.1.resolve
    cases own.symm.trans dir.2
    exact found
  obtain ⟨there, bytes, located, file, -⟩ := readText_ok.1 readable
  obtain ⟨place, dir, rfl⟩ := located_within within spells.many located
    fun place dir names target => linkless place names target (directory dir)
  exact ⟨place, directory dir, hasFile_of_closed closed (locate_proper located) spells.many file⟩

end Sources

namespace Files

variable {s : Sources} {token : Token} {site : Site Output} {p : Path} {record : ContentRecord}

/-- The directory of a source file can be provided in the output tree, if the file needs one. -/
def Room (s : Sources) (site : Site Output) (p : Path) : Prop :=
  ∀ above, (s.relative? p).bind Path.parent? = some above → above.text ≠ "" →
    ∃ out u v, (outputRoot s.settings).run.finish site = some (.ok out, u) ∧
      (provideDir (out.join above)).run.finish u = some (.ok (), v)

theorem room_of_known {out : Path} (dir : site.own.dir = some out)
    (known : ∀ above, (s.relative? p).bind Path.parent? = some above →
      Knows site (out.join above)) : Room s site p := by
  intro above nearest _
  obtain ⟨_, _, rooted, rfl, rfl⟩ := (prompt_outputRoot_known s.settings dir).ends
  obtain ⟨_, _, provided, rfl, rfl⟩ := (prompt_provideDir_known (known above nearest)).ends
  exact ⟨out, _, _, rooted, provided⟩

/-- Where there is room for it, a file that is read on its own has its record. -/
theorem finish_readSource (lets : Lets token site) (room : Room s site p) :
    ∃ r v, (readSource s p token).run.finish site = some (r, v) ∧
      r.toOption.join = s.recordOf? site.environment.files p := by
  have whole : (readSource s p token).run.Prompt (fun r _ => True ∧
      r.toOption.join = s.recordOf? site.environment.files p) site := by
    refine prompt_readSource_of (fun _ _ => True) lets rfl trivial ?_
    intro above nearest full
    obtain ⟨out, u, v, rooted, provided⟩ := room above nearest full
    refine (prompt_outputRoot s.settings).known.mono ?_
    rintro r w ⟨-, ends, -⟩
    cases rooted.symm.trans ends
    refine ⟨out, rfl, (prompt_provideDir (out.join above)).known.mono ?_⟩
    rintro r w ⟨-, ends, -⟩
    cases provided.symm.trans ends
    exact ⟨rfl, trivial⟩
  obtain ⟨r, v, ends, -, read⟩ := whole.ends
  exact ⟨r, v, ends, read⟩

/-- What a single file is read as, when it is read on its own. -/
theorem loads_iff (lets : Lets token site) (room : Room s site p) :
    (∃ v, (readSource s p token).run.finish site = some (.ok (some record), v)) ↔
      s.recordOf? site.environment.files p = some record := by
  obtain ⟨r, v, ends, read⟩ := finish_readSource lets room
  rw [← read, ends]
  constructor
  · rintro ⟨w, same⟩
    cases same
    rfl
  · intro made
    rcases r with e | (_ | found)
    · cases made
    · cases made
    · cases made
      exact ⟨v, rfl⟩

/-- A scan has a record for a path if it is that of a regular file and has this record. -/
theorem found_iff {t : FileTree} (readable : s.Readable t) (steady : s.Steady t) (own : OfFile p) :
    record ∈ s.recordsOf t ∧ s.Supplies p record.key ↔
      s.Contains t p ∧ s.recordOf? t p = some record := by
  constructor
  · rintro ⟨found, supplies⟩
    obtain ⟨path, walked, made⟩ := List.mem_filterMap.1 found
    obtain ⟨place, names, root, file, -, rfl⟩ := Walk.mem_files_below.1 walked
    change s.recordOf? t (s.pathOf names) = some record at made
    have ⟨_, named, _⟩ := supplies
    obtain ⟨names', spells⟩ := Sources.exists_spells named
    -- The file that the scan has found and that of the path have one key.
    obtain rfl := Sources.names_eq_of_supplies spells.proper spells.many file.proper file.ne_nil
      (spells.supplies_iff.1 supplies) (Sources.supplies_of_recordOf? made).1
    obtain ⟨bytes, read⟩ := readable.files _ walked
    refine ⟨⟨names', place, spells, root, file⟩, ?_⟩
    rw [spells.recordOf?_eq (spells.readText_eq steady own root file read), made]
  · rintro ⟨⟨names, place, spells, root, file⟩, made⟩
    obtain ⟨supplies, -⟩ := Sources.supplies_of_recordOf? made
    have ⟨_, named, _⟩ := supplies
    have visible := Sources.visible_of_named spells.proper spells.many (spells.nameOf_eq ▸ named)
    have walked : s.pathOf names ∈ (Walk.below t s.settings.sourceDir).files :=
      Walk.mem_files_below.2 ⟨place, names, root, file, visible, rfl⟩
    obtain ⟨bytes, read⟩ := readable.files _ walked
    rw [spells.recordOf?_eq (spells.readText_eq steady own root file read)] at made
    exact ⟨List.mem_filterMap.2 ⟨_, walked, made⟩, supplies⟩

/-- Without links, what can be read on its own is a regular file of the source tree. -/
theorem contains_of_linkless {t : FileTree} (closed : t.Closed) (readable : s.Readable t)
    (steady : s.Steady t) (linkless : s.Linkless t) (made : s.recordOf? t p = some record) :
    s.Contains t p := by
  obtain ⟨⟨name, named, -⟩, text, read⟩ := Sources.supplies_of_recordOf? made
  obtain ⟨names, spells⟩ := Sources.exists_spells named
  obtain ⟨place, root, file⟩ := spells.hasFile closed steady readable.walks linkless read
  exact ⟨names, place, spells, root, file⟩

/-- A scan of a readable source tree has a record for a path, in whatever spelling, if and only if
the path is that of a regular file with real directories on the way to it, and reading this file on
its own gives the same record. Where there are no links, the scan has a record for each path that
gives one on its own. -/
theorem scan_agrees_with_single_files (s : Sources) (token token' : Token) (site : Site Output)
    (closed : site.environment.files.Closed) (mirrors : Mirrors s token site)
    (lets : Lets token' site) (readable : s.Readable site.environment.files)
    (steady : s.Steady site.environment.files) :
    ∃ discovery u, (Files.scan s token).finish site = some (discovery, u) ∧
      ∀ p, OfFile p → Room s site p → ∀ record,
        (record ∈ discovery.found ∧ s.Supplies p record.key ↔
          s.Contains site.environment.files p ∧
            ∃ v, (readSource s p token').run.finish site = some (.ok (some record), v)) ∧
        (s.Linkless site.environment.files →
          (record ∈ discovery.found ∧ s.Supplies p record.key ↔
            ∃ v, (readSource s p token').run.finish site = some (.ok (some record), v))) := by
  obtain ⟨discovery, u, ends, -, finds, -⟩ := (prompt_scan s token site).ends
  obtain ⟨found, -⟩ := finds mirrors
  refine ⟨discovery, u, ends, fun p own room record => ?_⟩
  rw [found, found_iff readable steady own, loads_iff lets room]
  refine ⟨Iff.rfl, fun linkless => ⟨And.right, fun made => ⟨?_, made⟩⟩⟩
  exact contains_of_linkless closed readable steady linkless made

end Files

namespace Sample

def reader : Sources :=
  ⟨{ sourceDir := ⟨"/in"⟩, outputDir := some ⟨"/out"⟩ }, ⟨.standard, none⟩, some ⟨"/in"⟩⟩

/-- A source tree with a regular file. -/
def leaf : FileTree where
  entries := .ofPairs [("/in", .directory), ("/in/partials", .directory),
    ("/in/partials/b.html", .file "x".toUTF8.toList), ("/out", .directory),
    ("/out/partials", .directory)]

/-- A source tree with a link to a regular file that is not in it. -/
def graft : FileTree where
  entries := .ofPairs [("/a.html", .file "x".toUTF8.toList), ("/in", .directory),
    ("/in/partials", .directory), ("/in/partials/b.html", .link "../../a.html"),
    ("/out", .directory), ("/out/partials", .directory)]

/-- The output tree has been laid out. -/
def reading (t : FileTree) : Site Output where
  own := { dir := some ⟨"/out"⟩, made := [⟨"/out"⟩, ⟨"/out/partials"⟩] }
  environment := { files := t }

/-- The record of the file, and what is read through the link. -/
def scrap : ContentRecord :=
  .make "b" "partials/b.html" (.ofSource "x" (some "html")) .discovered (some "html") none

end Sample

open Files Store.Sample

theorem lets_reading (t : FileTree) : Lets ⟨[0], none⟩ (reading t) := ⟨rfl, rfl⟩

theorem room_reading (t : FileTree) : Room reader (reading t) ⟨"/in/./partials//b.html"⟩ := by
  refine room_of_known rfl fun above nearest => ?_
  have own : (reader.relative? ⟨"/in/./partials//b.html"⟩).bind Path.parent? =
      some ⟨"partials"⟩ := by decide +kernel
  cases own.symm.trans nearest
  have made : ([⟨"/out"⟩, ⟨"/out/partials"⟩] : List Path).any
      (·.same ((⟨"/out"⟩ : Path).join ⟨"partials"⟩)) = true := by decide +kernel
  exact made

theorem recordOf_scrap {t : FileTree}
    (text : t.readText ⟨"/in/./partials//b.html"⟩ = .ok "x") :
    reader.recordOf? t ⟨"/in/./partials//b.html"⟩ = some scrap := by
  have named : reader.nameOf ⟨"/in/./partials//b.html"⟩ = some "b" := by decide +kernel
  have keyed : reader.keyOf "b" ⟨"/in/./partials//b.html"⟩ = .ok "partials/b.html" := by
    decide +kernel
  have extension : (⟨"/in/./partials//b.html"⟩ : Path).extension? = some "html" := by decide +kernel
  rw [Sources.recordOf?_eq named keyed, text, extension]
  rfl

/-- A file is read by a path with dots and slashes in it, and a scan finds the same. -/
theorem respelled_file_is_found : ∃ discovery u v,
    (Files.scan reader ⟨[0], none⟩).finish (reading leaf) = some (discovery, u) ∧
    scrap ∈ discovery.found ∧
    (Files.readSource reader ⟨"/in/./partials//b.html"⟩ ⟨[0], none⟩).run.finish (reading leaf) =
      some (.ok (some scrap), v) := by
  have plain : ∀ x ∈ leaf.entries.entries, x.2 ∈ [.directory, .file "x".toUTF8.toList] := by
    decide +kernel
  have linkless : reader.Linkless leaf := fun _ _ _ _ => linkless_of_entries fun x there link => by
    have own := plain x there
    rw [link] at own
    simp at own
  obtain ⟨discovery, u, ends, agrees⟩ :=
    scan_agrees_with_single_files reader ⟨[0], none⟩ ⟨[0], none⟩ (reading leaf)
      (closed_of_entries (by decide +kernel)) (by decide +kernel) (lets_reading leaf)
      ⟨by decide +kernel, by
        have files : (Walk.below leaf ⟨"/in"⟩).files = [⟨"/in/partials/b.html"⟩] := by
          decide +kernel
        intro path there
        cases List.mem_singleton.1 (files ▸ there)
        exact ⟨"x".toUTF8.toList, by decide +kernel⟩⟩
      (by
        rintro c ⟨⟩
        rfl)
  obtain ⟨v, loads⟩ := (loads_iff (lets_reading leaf) (room_reading leaf)).2
    (recordOf_scrap (t := leaf) (by decide +kernel))
  exact ⟨discovery, u, v, ends,
    ((agrees _ (by decide +kernel) (room_reading leaf) scrap).2 linkless).2 ⟨v, loads⟩ |>.1, loads⟩

/-- What is read through a link is not found by a scan. -/
theorem linked_file_is_not_found :
    ¬∀ (s : Sources) (token : Token) (site u : Site Output) (discovery : Discovery) (p : Path)
      (record : ContentRecord), site.environment.files.Closed → Mirrors s token site →
        Lets token site → s.Readable site.environment.files → s.Steady site.environment.files →
          OfFile p → Room s site p →
            (Files.scan s token).finish site = some (discovery, u) →
              (record ∈ discovery.found ∧ s.Supplies p record.key ↔ ∃ v,
                (Files.readSource s p token).run.finish site = some (.ok (some record), v)) := by
  intro claim
  have none : (Walk.below graft ⟨"/in"⟩).files = [] := by decide +kernel
  have mirrors : Mirrors reader ⟨[0], Option.none⟩ (reading graft) := by decide +kernel
  obtain ⟨discovery, u, ends, -, finds, -⟩ :=
    (prompt_scan reader ⟨[0], Option.none⟩ (reading graft)).ends
  have loads := (loads_iff (lets_reading graft) (room_reading graft)).2
    (recordOf_scrap (t := graft) (by decide +kernel))
  have found := ((claim reader ⟨[0], Option.none⟩ (reading graft) u discovery _ scrap
    (closed_of_entries (by decide +kernel)) mirrors (lets_reading graft)
    ⟨by decide +kernel, fun path there => absurd (none ▸ there) List.not_mem_nil⟩
    (by
      rintro c ⟨⟩
      rfl)
    (by decide +kernel) (room_reading graft) ends).2 loads).1
  rw [(finds mirrors).1] at found
  obtain ⟨path, walked, -⟩ := List.mem_filterMap.1 found
  exact absurd (none ▸ walked) List.not_mem_nil

end Store
end TemplateCache
