import TemplateCache.Proofs.Store.Fleet
import TemplateCache.Proofs.Store.Scan

/-!
# Artifacts with files of their own

Artifacts whose keys are apart have different files in an output directory. A write changes no file
but the one of its key, and an unregistration none but those of the keys that it lists, so whoever
reads another artifact later reads the same as before. Code is read back from the output directory
and content from the sources, so content stays what it is as long as its source is none of these
files.
-/

namespace TemplateCache

open Job

namespace Store

/-! ## Keys apart -/

/-- Two plain keys, of which neither is nor looks like the other. What stands for a query in file
names stands for no other one. -/
structure Apart (key key' : String) : Prop where
  plain : Plain key
  plain' : Plain key'
  different : key ≠ key'
  unlike : ¬LooksLike key key'
  unlike' : ¬LooksLike key' key
  digests : ∀ query query', (splitQuery key).2 = some query → (splitQuery key').2 = some query' →
    queryDigest query = queryDigest query' → query = query'

variable {key key' : String}

theorem Apart.outputNames_ne (apart : Apart key key') : outputNames key ≠ outputNames key' := by
  intro same
  rcases key_of_outputNames apart.plain apart.plain' apart.digests same with same | like | like
  · exact apart.different same
  · exact apart.unlike like
  · exact apart.unlike' like

/-- Keys that are apart have different files in every output directory. -/
theorem Apart.paths_differ (apart : Apart key key') (dir : Path) :
    (dir.join (relativePath key)).same (dir.join (relativePath key')) = false := by
  refine Bool.eq_false_iff.2 fun same => apart.outputNames_ne ?_
  rw [relativePath_eq, relativePath_eq] at same
  exact Path.join_injective (outputNames_proper key) (outputNames_proper key') same

namespace Files

open FileTree

variable {s t : Site Output} {f : Sources} {dir path : Path} {place : Place} {address : Address}
  {space : KeySpace} {e : Environment} {keys : String → Prop} {name : String} {token : Token}

/-! ## What fresh stores read -/

/-- A store over files as it is made. -/
def fresh (f : Sources) (e : Environment) : Site Output where
  own := { dir := f.settings.outputDir }
  environment := e

/-- What a fresh store reads of the code of an address. -/
def ReadsCode (f : Sources) (e : Environment) (address : Address) (code : StoredCode) : Prop :=
  ∃ token t, ((files f).readCode address token).run.finish (fresh f e) = some (.ok (some code), t)

/-- What a fresh store reads of the content of an address. -/
def ReadsContent (f : Sources) (e : Environment) (address : Address) (record : ContentRecord) :
    Prop :=
  ∃ token t, ((files f).readContent address token).run.finish (fresh f e) =
    some (.ok (some record), t)

/-- A fresh store reads code from the output directory that it is made with. -/
theorem readsCode_iff {code : StoredCode} (keyed : address.key f.resolver .code = .ok key) :
    ReadsCode f e address code ↔ ∃ dir text, f.settings.outputDir = some dir ∧
      e.files.readText (dir.join (relativePath key)) = .ok text ∧
        code = .text key address.name (f.settings.moduleFormat.unwrap text) := by
  constructor
  · rintro ⟨token, t, ends⟩
    have safe : ((files f).readCode address token).run.Safely (fun _ => True) (fun r _ =>
        r = .ok (some code) → ∃ dir text, f.settings.outputDir = some dir ∧
          e.files.readText (dir.join (relativePath key)) = .ok text ∧
            code = .text key address.name (f.settings.moduleFormat.unwrap text)) (fresh f e) := by
      refine Safely.bindExcept ?_
      rw [keyed]
      refine safely_naming (Safely.bindExcept (safely_overlay trivial ?_))
      refine Safely.bindExcept (safely_look trivial ?_)
      dsimp only [fresh]
      cases out : f.settings.outputDir with
      | none =>
          intro same
          cases same
      | some dir =>
          refine Safely.within trivial (fun r _ _ early same => ?_) ?_
          · rcases early with failed | failed <;> cases failed.symm.trans same
          · refine Safely.bindExcept ((safely_readText _ _ _).mono (fun _ => trivial) ?_)
            rintro (failure | _ | text) u ⟨-, read⟩ same
            · cases same
            · cases same
            · cases same
              exact ⟨dir, text, rfl, (read text).1 rfl, rfl⟩
    exact safe.finish ends rfl
  · rintro ⟨dir, text, out, read, rfl⟩
    have ends : ((files f).readCode address ⟨[], none⟩).run.Ends (fun r _ => r = .ok (some
        (.text key address.name (f.settings.moduleFormat.unwrap text)))) (fresh f e) := by
      refine Ends.bindExcept ⟨_, _, rfl, ?_⟩
      rw [keyed]
      refine Ends.bindExcept ⟨_, _, rfl, ?_⟩
      refine Ends.bindExcept ⟨_, _, rfl, ?_⟩
      dsimp only [id, fresh]
      rw [out]
      refine (Prompt.within ⟨rfl, rfl⟩ ?_).ends
      refine Prompt.bindExcept (Prompt.bindExcept (prompt_transfer ?_))
      rw [read]
      rfl
    obtain ⟨r, t, ends, rfl⟩ := ends
    exact ⟨⟨[], none⟩, t, ends⟩

/-- The record of content that is read from a source file. -/
def SourceRecord (f : Sources) (t : FileTree) (address : Address) (key : String)
    (record : ContentRecord) : Prop :=
  ∃ text, t.readText (f.fileOf key) = .ok text ∧
    record = .make address.name key (.ofSource text (f.fileOf key).extension?) .discovered
      (f.fileOf key).extension? address.params

/-- Reading content changes no files. What is read is in the overlay or in the source file of the
key. -/
theorem safely_readContent (f : Sources) (s : Site Output) (address : Address) (token : Token) :
    ((files f).readContent address token).run.Safely
      (fun t => t.environment.files = s.environment.files)
      (fun r t => t.environment.files = s.environment.files ∧
        ∀ record, r = .ok (some record) → ∃ key, address.key f.resolver .content = .ok key ∧
          (s.overlay.content.get? key = some record ∨
            SourceRecord f s.environment.files address key record)) s := by
  refine Safely.bindExcept ?_
  cases keyed : address.key f.resolver .content with
  | error e => exact safely_misnaming ⟨rfl, fun _ same => by cases same⟩
  | ok key =>
      refine safely_naming (Safely.bindExcept (safely_overlay rfl ?_))
      dsimp only
      split
      · rename_i record known
        refine ⟨rfl, fun record' same => ?_⟩
        cases same
        exact ⟨key, rfl, .inl known⟩
      · refine Safely.within rfl (fun r _ kept early => ⟨kept, fun record same => ?_⟩) ?_
        · rcases early with failed | failed <;> cases failed.symm.trans same
        · refine Safely.bindExcept ((safely_readText _ _ _).mono (fun same => by rw [same]) ?_)
          rintro (failure | _ | text) u ⟨rfl, read⟩
          · exact ⟨rfl, fun _ same => by cases same⟩
          · exact ⟨rfl, fun _ same => by cases same⟩
          · refine ⟨rfl, rfl, fun record same => ?_⟩
            cases same
            exact ⟨key, rfl, .inr ⟨text, (read text).1 rfl, rfl⟩⟩

/-- A fresh store reads content from the sources. -/
theorem readsContent_iff {record : ContentRecord}
    (keyed : address.key f.resolver .content = .ok key) :
    ReadsContent f e address record ↔ SourceRecord f e.files address key record := by
  constructor
  · rintro ⟨token, t, ends⟩
    obtain ⟨key', keyed', known | read⟩ :=
      ((safely_readContent f (fresh f e) address token).finish ends).2 record rfl
    · cases known
    · cases keyed.symm.trans keyed'
      exact read
  · rintro ⟨text, read, rfl⟩
    have ends : ((files f).readContent address ⟨[], none⟩).run.Ends (fun r _ => r = .ok (some
        (.make address.name key (.ofSource text (f.fileOf key).extension?) .discovered
          (f.fileOf key).extension? address.params))) (fresh f e) := by
      refine Ends.bindExcept ⟨_, _, rfl, ?_⟩
      rw [keyed]
      refine Ends.bindExcept ⟨_, _, rfl, ?_⟩
      dsimp only [id, fresh]
      refine (Prompt.within ⟨rfl, rfl⟩ ?_).ends
      refine Prompt.bindExcept (Prompt.bindExcept (prompt_transfer ?_))
      rw [read]
      exact ⟨rfl, rfl⟩
    obtain ⟨r, t, ends, rfl⟩ := ends
    exact ⟨⟨[], none⟩, t, ends⟩

/-! ## What operations change -/

/-- The place of the output file of a key. -/
def OutputFile (key : String) (s : Site Output) (place : Place) : Prop :=
  ∃ dir, s.own.dir = some dir ∧
    s.environment.files.locate (dir.join (relativePath key)) true = .ok place

/-- No files have changed but the output files of some keys. -/
structure Alters (keys : String → Prop) (s t : Site Output) : Prop where
  files : Changes (fun place => ∃ key, keys key ∧ OutputFile key t place)
    s.environment.files t.environment.files
  dir : ∀ dir, s.own.dir = some dir → t.own.dir = some dir

theorem Grows.alters (h : Grows s t) : Alters keys s t := ⟨h.files.changes, h.dir⟩

/-- A write changes the output file of its key. -/
theorem Writes.alters (h : Writes f address space s t)
    (keyed : address.key f.resolver space = .ok key) : Alters (· = key) s t := by
  rcases h with grown | ⟨key', dir, keyed', known, grown | ⟨u, bytes, grown, written, own⟩⟩
  · exact grown.alters
  · exact grown.alters
  · cases keyed.symm.trans keyed'
    refine ⟨grown.files.changes.trans ((changes_write written).mono fun place located => ?_), ?_⟩
    · exact ⟨key, rfl, dir, known, located⟩
    · rw [own]
      exact grown.dir

theorem Operation.alters {op : Operation} (writes : op.Writes address space)
    (keyed : address.key f.resolver space = .ok key) :
    (op.job f).Safely (Alters (· = key) s) (fun _ t => Alters (· = key) s t) s := by
  cases writes with
  | content =>
      exact Safely.mapExcept id ((safely_writeContent s _).mono (·.alters keyed)
        fun both => both.1.alters keyed)
  | code =>
      exact Safely.mapExcept id ((safely_writeCode s _).mono (·.alters keyed)
        fun both => both.1.alters keyed)

/-- An unregistration changes the output files of the keys that it lists. -/
theorem alters_unregister (closed : s.environment.files.Closed)
    (tidy : ∀ dir, s.own.dir = some dir → s.environment.files.Tidy dir) :
    ((files f).unregister name token).run.Safely
      (Alters (fun key => s.overlay.ListsContent f.resolver name key ∨
        s.overlay.ListsCode f.resolver name key) s)
      (fun _ t => Alters (fun key => s.overlay.ListsContent f.resolver name key ∨
        s.overlay.ListsCode f.resolver name key) s t) s := by
  generalize lists : (fun key => s.overlay.ListsContent f.resolver name key ∨
    s.overlay.ListsCode f.resolver name key) = keys
  -- The places are those of the tree as it was before: where the files are, directories stay.
  have alters {t : Site Output} (h : t.own = s.own ∧ t.environment.files.Closed ∧
      s.environment.files.Thins t.environment.files ∧
      Changes (fun place => ∃ key, keys key ∧ OutputFile key s place)
        s.environment.files t.environment.files) : Alters keys s t := by
    obtain ⟨own, -, -, changes⟩ := h
    refine ⟨changes.mono ?_, fun dir known => own ▸ known⟩
    rintro place ⟨key, listed, dir, known, located⟩
    exact ⟨key, listed, dir, own ▸ known, locate_of_ways changes.ways located⟩
  refine (safely_unregister s (fun files => files.Closed ∧ s.environment.files.Thins files ∧
    Changes (fun place => ∃ key, keys key ∧ OutputFile key s place) s.environment.files files)
      ⟨closed, .refl _, .refl _⟩ ?_).mono alters alters
  rintro dir key files left known listed removed ⟨closed', thins, changes⟩
  rw [relativePath_eq] at removed
  obtain ⟨⟨place, located, change⟩, closed''⟩ := (tidy dir known).removeFile closed
    changes.toContinues thins closed' (outputNames_proper key) removed
  refine ⟨closed'', thins.trans (removeFile_lacks removed).1, changes.trans (change.mono ?_)⟩
  rintro _ rfl
  rw [← relativePath_eq] at located
  exact ⟨key, by rw [← lists]; exact listed, dir, known, located⟩

/-! ## What stays as it was -/

/-- A fresh store reads the artifacts of a key as before: the code, and the content if its source is
none of the output files that change. -/
structure Undisturbed (f : Sources) (keys : String → Prop) (key' : String) (s t : Site Output) :
    Prop where
  code : ∀ address code, address.key f.resolver .code = .ok key' →
    (ReadsCode f t.environment address code ↔ ReadsCode f s.environment address code)
  content : ∀ address record, address.key f.resolver .content = .ok key' →
    s.environment.files.Direct (f.fileOf key') →
    (∀ key place, keys key → OutputFile key t place →
      t.environment.files.locate (f.fileOf key') true ≠ .ok place) →
    (ReadsContent f t.environment address record ↔ ReadsContent f s.environment address record)

/-- Where only the output files of other keys change, an artifact is read as before. -/
theorem Alters.undisturbed (h : Alters keys s t)
    (own : ∀ dir, f.settings.outputDir = some dir → s.own.dir = some dir)
    (closed : s.environment.files.Closed)
    (tidy : ∀ dir, s.own.dir = some dir → s.environment.files.Tidy dir)
    (apart : ∀ key, keys key → outputNames key ≠ outputNames key') :
    Undisturbed f keys key' s t where
  code address code keyed := by
    rw [readsCode_iff keyed, readsCode_iff keyed]
    refine exists_congr fun dir => exists_congr fun text => and_congr_right fun out => ?_
    refine and_congr_left fun _ => ?_
    have tidy := tidy dir (own dir out)
    have proper := outputNames_proper key'
    rw [relativePath_eq]
    refine h.files.readText_iff (tidy.direct_file closed proper) ?_
    -- The place of the one file is not that of the other, since the directory is the same.
    rintro there located ⟨key, changed, dir', known, located'⟩
    cases (h.dir dir (own dir out)).symm.trans known
    rw [relativePath_eq] at located'
    obtain ⟨place, root, rfl, -⟩ := tidy.located h.files.toContinues proper located
    obtain ⟨place', root', same, -⟩ :=
      tidy.located h.files.toContinues (outputNames_proper key) located'
    rw [root'.unique root] at same
    exact apart key changed (List.append_cancel_left same).symm
  content address record keyed direct other := by
    rw [readsContent_iff keyed, readsContent_iff keyed]
    refine exists_congr fun text => and_congr_left fun _ => ?_
    refine h.files.readText_iff direct ?_
    rintro place located ⟨key, changed, file⟩
    exact other key place changed file located

/-- Artifacts whose keys are apart have different output files, and in an output directory without
links neither a write nor an unregistration ever changes what a fresh store reads of the others. -/
theorem artifacts_stay_apart (f : Sources) (s : Site Output) (key' : String)
    (own : ∀ dir, f.settings.outputDir = some dir → s.own.dir = some dir)
    (closed : s.environment.files.Closed)
    (tidy : ∀ dir, s.own.dir = some dir → s.environment.files.Tidy dir) :
    (∀ (key : String) (dir : Path), Apart key key' →
      (dir.join (relativePath key)).same (dir.join (relativePath key')) = false) ∧
    (∀ (op : Operation) (address : Address) (space : KeySpace) (key : String),
      op.Writes address space → address.key f.resolver space = .ok key → Apart key key' →
      (op.job f).Safely (Undisturbed f (· = key) key' s)
        (fun _ t => Undisturbed f (· = key) key' s t) s) ∧
    ∀ (name : String) (token : Token), (∀ key, s.overlay.ListsContent f.resolver name key ∨
        s.overlay.ListsCode f.resolver name key → Apart key key') →
      ((files f).unregister name token).run.Safely
        (Undisturbed f (fun key => s.overlay.ListsContent f.resolver name key ∨
          s.overlay.ListsCode f.resolver name key) key' s)
        (fun _ t => Undisturbed f (fun key => s.overlay.ListsContent f.resolver name key ∨
          s.overlay.ListsCode f.resolver name key) key' s t) s := by
  refine ⟨fun key dir apart => apart.paths_differ dir, ?_, fun name token apart => ?_⟩
  · intro op address space key writes keyed apart
    have stays {t : Site Output} (h : Alters (· = key) s t) : Undisturbed f (· = key) key' s t :=
      h.undisturbed own closed tidy fun _ same => same ▸ apart.outputNames_ne
    exact (Operation.alters writes keyed).mono stays stays
  · exact (alters_unregister closed tidy).mono
      (fun h => h.undisturbed own closed tidy fun key listed => (apart key listed).outputNames_ne)
      fun h => h.undisturbed own closed tidy fun key listed => (apart key listed).outputNames_ne

/-! ## Keys that are not apart -/

/-- Fresh stores read other code where the text of its file is another one. -/
theorem not_read_alike {e e' : Environment} {text text' : String}
    (keyed : address.key f.resolver .code = .ok key) (out : f.settings.outputDir = some dir)
    (before : e.files.readText (dir.join (relativePath key)) = .ok text)
    (after : e'.files.readText (dir.join (relativePath key)) = .ok text')
    (differ : f.settings.moduleFormat.unwrap text ≠ f.settings.moduleFormat.unwrap text') :
    ¬∀ code, ReadsCode f e' address code ↔ ReadsCode f e address code := by
  intro alike
  have read := (alike _).2 ((readsCode_iff keyed).2 ⟨dir, text, out, before, rfl⟩)
  obtain ⟨dir', text'', out', after', same⟩ := (readsCode_iff keyed).1 read
  cases out.symm.trans out'
  cases after.symm.trans after'
  exact differ (StoredCode.text.inj same).2.2

end Files
end Store

open Store Store.Files

namespace Sample

/-- An output directory with two files of code. -/
def outputTree (first : Entry) : Site Output where
  own := { dir := some ⟨"/out"⟩ }
  environment := { files := { entries := .ofPairs [
    ("/out", .directory), ("/out/partials", .directory), ("/out/partials/a.html.compiled", first),
    ("/out/partials/b.html.compiled", .file "s".toUTF8.toList)] } }

/-- Content that may be named like a file of code. -/
def stamp (name : String) : Operation :=
  .writeContent { name := name } (.text "x") ⟨[0], none⟩

end Sample

open Sample

theorem Store.not_looksLike {key key' : String} (bare : (splitQuery key').2 = none) :
    ¬LooksLike key key' := by
  rintro ⟨location, query, asked, -⟩
  rw [asked] at bare
  cases bare

/-- Plain keys without queries are apart if they are not the same. -/
theorem Store.apart_of_bare {key key' : String} (plain : Plain key) (plain' : Plain key')
    (different : key ≠ key') (bare : (splitQuery key).2 = none)
    (bare' : (splitQuery key').2 = none) : Apart key key' where
  plain := plain
  plain' := plain'
  different := different
  unlike := not_looksLike bare'
  unlike' := not_looksLike bare
  digests query query' asked _ _ := by cases bare.symm.trans asked

/-- The code of the template changes where its file holds another text afterwards. -/
theorem Store.Files.overwritten {first : Entry} {name : String}
    (before : (outputTree first).environment.files.readText
      ((⟨"/out"⟩ : Path).join (relativePath "partials/a.html.compiled")) = .ok "s")
    (ends : (((stamp name).job (neighbors false)).finish (outputTree first)).map (fun (_, t) =>
      t.environment.files.readText
        ((⟨"/out"⟩ : Path).join (relativePath "partials/a.html.compiled"))) = some (.ok "x")) :
    ¬((stamp name).job (neighbors false)).Safely (fun _ => True) (fun _ t => ∀ code,
      ReadsCode (neighbors false) t.environment { name := "a" } code ↔
        ReadsCode (neighbors false) (outputTree first).environment { name := "a" } code)
          (outputTree first) := by
  intro alike
  have code : Address.key { name := "a" } (neighbors false).resolver .code =
      .ok "partials/a.html.compiled" := by decide +kernel
  have differ : (neighbors false).settings.moduleFormat.unwrap "s" ≠
      (neighbors false).settings.moduleFormat.unwrap "x" := by decide +kernel
  obtain ⟨⟨r, t⟩, ends, after⟩ := Option.map_eq_some_iff.1 ends
  exact not_read_alike code rfl before after differ (alike.finish ends)

/-- The code of another template is there after a write. -/
theorem Store.Files.other_code_stays :
    (∀ dir, (neighbors false).settings.outputDir = some dir →
      (outputTree (.file "s".toUTF8.toList)).own.dir = some dir) ∧
    (outputTree (.file "s".toUTF8.toList)).environment.files.Closed ∧
    (∀ dir, (outputTree (.file "s".toUTF8.toList)).own.dir = some dir →
      (outputTree (.file "s".toUTF8.toList)).environment.files.Tidy dir) ∧
    Apart "partials/a.html.compiled" "partials/b.html.compiled" ∧
    ∃ r t, ((stamp "a.html.compiled").job (neighbors false)).finish
        (outputTree (.file "s".toUTF8.toList)) = some (r, t) ∧
      ReadsCode (neighbors false) t.environment { name := "b" }
        (.text "partials/b.html.compiled" "b"
          ((neighbors false).settings.moduleFormat.unwrap "s")) := by
  have own : ∀ dir, (neighbors false).settings.outputDir = some dir →
      (outputTree (.file "s".toUTF8.toList)).own.dir = some dir := fun _ => id
  have closed : (outputTree (.file "s".toUTF8.toList)).environment.files.Closed :=
    FileTree.closed_of_entries (by decide +kernel)
  have tidy : ∀ dir, (outputTree (.file "s".toUTF8.toList)).own.dir = some dir →
      (outputTree (.file "s".toUTF8.toList)).environment.files.Tidy dir := by
    rintro dir known
    cases known
    have root : (outputTree (.file "s".toUTF8.toList)).environment.files.entryAt ⟨"/out"⟩ true =
        .ok (["out"], .directory) := by decide +kernel
    have kinds : ∀ x ∈ (outputTree (.file "s".toUTF8.toList)).environment.files.entries.entries,
        x.2 ∈ [.directory, .file "s".toUTF8.toList] := by decide +kernel
    refine (FileTree.dirAt_of_entryAt root).tidy fun names target =>
      FileTree.linkless_of_entries fun x there link => ?_
    have kind := kinds x there
    rw [link] at kind
    simp at kind
  have apart : Apart "partials/a.html.compiled" "partials/b.html.compiled" :=
    apart_of_bare (by decide +kernel) (by decide +kernel) (by decide) (by decide +kernel)
      (by decide +kernel)
  have content : Address.key { name := "a.html.compiled" } (neighbors false).resolver .content =
      .ok "partials/a.html.compiled" := by decide +kernel
  have code : Address.key { name := "b" } (neighbors false).resolver .code =
      .ok "partials/b.html.compiled" := by decide +kernel
  have stored : (outputTree (.file "s".toUTF8.toList)).environment.files.readText
      ((⟨"/out"⟩ : Path).join (relativePath "partials/b.html.compiled")) = .ok "s" := by
    decide +kernel
  obtain ⟨r, t, ends, same⟩ := ((artifacts_stay_apart (neighbors false)
    (outputTree (.file "s".toUTF8.toList)) _ own closed tidy).2.1 (stamp "a.html.compiled") _ _ _
      .content content apart).ends
  exact ⟨own, closed, tidy, apart, r, t, ends,
    (same.code _ _ code).2 ((readsCode_iff code).2 ⟨⟨"/out"⟩, "s", rfl, stored, rfl⟩)⟩

/-- Where one file is written, code is read back that was written for another key: the namespaces
share keys, slashes and digests make no difference to names, and a link leads to another file. -/
theorem Store.Files.artifacts_share_files :
    (¬∀ (resolver : Resolver) (address address' : Address) (space space' : KeySpace)
      (key key' : String), address.key resolver space = .ok key →
        address'.key resolver space' = .ok key' → space ≠ space' ∨ key ≠ key' →
          relativePath key ≠ relativePath key') ∧
    (¬∀ (resolver : Resolver) (address address' : Address) (key key' : String),
      address.key resolver .content = .ok key → address'.key resolver .content = .ok key' →
        key ≠ key' → ¬LooksLike key key' → ¬LooksLike key' key →
          relativePath key ≠ relativePath key') ∧
    (¬∀ (resolver : Resolver) (address address' : Address) (key key' : String),
      address.key resolver .content = .ok key → address'.key resolver .content = .ok key' →
        key ≠ key' → Plain key → Plain key' → relativePath key ≠ relativePath key') ∧
    (¬∀ (f : Sources) (s : Site Output) (op : Operation) (address address' : Address)
      (space : KeySpace) (key key' : String), s.environment.files.Closed →
        f.settings.outputDir = s.own.dir → op.Writes address space →
          address.key f.resolver space = .ok key → address'.key f.resolver .code = .ok key' →
            space ≠ .code ∨ key ≠ key' →
              (op.job f).Safely (fun _ => True) (fun _ t => ∀ code,
                ReadsCode f t.environment address' code ↔
                  ReadsCode f s.environment address' code) s) ∧
    ¬∀ (f : Sources) (s : Site Output) (op : Operation) (address address' : Address)
      (space : KeySpace) (key key' : String), s.environment.files.Closed →
        f.settings.outputDir = s.own.dir → op.Writes address space →
          address.key f.resolver space = .ok key → address'.key f.resolver .code = .ok key' →
            Apart key key' →
              (op.job f).Safely (fun _ => True) (fun _ t => ∀ code,
                ReadsCode f t.environment address' code ↔
                  ReadsCode f s.environment address' code) s := by
  have content : Address.key { name := "a.html.compiled" } (neighbors false).resolver .content =
      .ok "partials/a.html.compiled" := by decide +kernel
  have code : Address.key { name := "a" } (neighbors false).resolver .code =
      .ok "partials/a.html.compiled" := by decide +kernel
  have other : KeySpace.content ≠ .code := by decide
  refine ⟨fun claim => ?_, fun claim => ?_, fun claim => ?_, fun claim => ?_, fun claim => ?_⟩
  · exact claim _ _ _ _ _ _ _ content code (.inl other) rfl
  · have double : Address.key { name := "a//b" } (neighbors false).resolver .content =
        .ok "partials/a//b.html" := by decide +kernel
    have single : Address.key { name := "a/b" } (neighbors false).resolver .content =
        .ok "partials/a/b.html" := by decide +kernel
    exact claim _ _ _ _ _ double single (by decide) (not_looksLike (by decide +kernel))
      (not_looksLike (by decide +kernel)) (by decide +kernel)
  · have asked : Address.key { name := "a", params := some (.ofPairs [("x", "1")]) }
        (neighbors false).resolver .content = .ok "partials/a.html?x=1" := by decide +kernel
    have named : Address.key { name := "a.html.5bf2213bcf84" } (neighbors false).resolver .content =
        .ok "partials/a.html.5bf2213bcf84" := by decide +kernel
    exact claim _ _ _ _ _ asked named (by decide) (by decide +kernel) (by decide +kernel)
      (by decide +kernel)
  · have closed : (outputTree (.file "s".toUTF8.toList)).environment.files.Closed :=
      FileTree.closed_of_entries (by decide +kernel)
    exact @overwritten (.file "s".toUTF8.toList) "a.html.compiled" (by decide +kernel)
      (by decide +kernel) (claim (neighbors false) (outputTree (.file "s".toUTF8.toList))
        (stamp "a.html.compiled") _ _ _ _ _ closed rfl .content content code (.inl other))
  · have closed : (outputTree (.link "b.html.compiled")).environment.files.Closed :=
      FileTree.closed_of_entries (by decide +kernel)
    have content : Address.key { name := "b.html.compiled" } (neighbors false).resolver .content =
        .ok "partials/b.html.compiled" := by decide +kernel
    have apart : Apart "partials/b.html.compiled" "partials/a.html.compiled" :=
      apart_of_bare (by decide +kernel) (by decide +kernel) (by decide) (by decide +kernel)
        (by decide +kernel)
    exact @overwritten (.link "b.html.compiled") "b.html.compiled" (by decide +kernel)
      (by decide +kernel) (claim (neighbors false) (outputTree (.link "b.html.compiled"))
        (stamp "b.html.compiled") _ _ _ _ _ closed rfl .content content code apart)

end TemplateCache
