import TemplateCache.Proofs.Files.Confined
import TemplateCache.Proofs.Store.Separation

/-!
# Keys stay in their trees

Whatever a key is, its output file is within the output directory, and its source file is within the
source directory unless its path part is absolute. So a write makes directories on the way to its
output directory and changes nothing outside of it, an unregistration removes nothing outside of it,
and what is read under a relative key is in the source tree.
-/

namespace TemplateCache

open Job

/-! ## Link-free directories -/

namespace FileTree

variable {t : FileTree} {dir : Path} {place : Place}

/-- No links are below a directory. -/
def Linkless (t : FileTree) (dir : Path) : Prop :=
  ∀ place, t.DirAt dir place → ∀ names target, t.entry? (place ++ names) ≠ some (.link target)

/-- A place is below that of a directory. -/
def Below (t : FileTree) (dir : Path) (place : Place) : Prop :=
  ∃ root names, t.DirAt dir root ∧ names ≠ [] ∧ place = root ++ names

/-- Without links the paths within a directory lead to places below its own. -/
theorem Inside.below (inside : t.Inside dir place) (linkless : t.Linkless dir) :
    t.Below dir place := by
  obtain ⟨names, p, follow, there, many, within, located, rest, rfl⟩ := inside
  obtain ⟨root, is, rfl⟩ := located_within within many located linkless
  exact ⟨root, names ++ rest, is, List.append_ne_nil_of_left_ne_nil many _,
    List.append_assoc root names rest⟩

end FileTree

namespace Store

variable {key : String}

/-- The output file of a key is within the output directory. -/
theorem within_output (key : String) (dir : Path) :
    dir.Within (outputNames key) (dir.join (relativePath key)) := by
  rw [relativePath_eq]
  exact Path.within_join dir (outputNames_proper key)

theorem fileOf_relative (f : Sources)
    (relative : (⟨(splitQuery key).1⟩ : Path).isAbsolute = false) :
    f.fileOf key = f.settings.sourceDir.join
      (Path.ofNames (Path.normalNames ⟨(splitQuery key).1⟩)) := by
  unfold Sources.fileOf
  dsimp only
  rw [relative]
  exact if_neg Bool.false_ne_true

/-- The source file of a relative key is within the source directory. -/
theorem within_sources (f : Sources)
    (relative : (⟨(splitQuery key).1⟩ : Path).isAbsolute = false) :
    f.settings.sourceDir.Within (Path.normalNames ⟨(splitQuery key).1⟩) (f.fileOf key) := by
  rw [fileOf_relative f relative]
  exact Path.within_join _ (Path.normalNames_proper _)

/-- What is read under a relative key is below the source directory if no links are there. -/
theorem source_below {f : Sources} {t : FileTree} {text : String}
    (relative : (⟨(splitQuery key).1⟩ : Path).isAbsolute = false)
    (linkless : t.Linkless f.settings.sourceDir) (read : t.readText (f.fileOf key) = .ok text) :
    ∃ place bytes, t.Below f.settings.sourceDir place ∧ t.entry? place = some (.file bytes) ∧
      String.fromUTF8? ⟨bytes.toArray⟩ = some text := by
  obtain ⟨place, bytes, located, there, decoded⟩ := FileTree.readText_ok.1 read
  rw [fileOf_relative f relative] at located
  obtain ⟨root, is, rfl, -⟩ :=
    FileTree.located_below (Path.normalNames_proper _) located linkless
  refine ⟨_, bytes, ⟨root, _, is, ?_, rfl⟩, there, decoded⟩
  intro none
  rw [none, List.append_nil] at there
  cases there.symm.trans is.2

namespace Files

open FileTree

variable {s t u : Site Output} {f : Sources} {dir path : Path} {names : List String}
  {address : Address} {space : KeySpace} {α : Type}

/-! ## What operations build -/

/-- The directory that a store writes to: its output directory, or else the temporary one that it
makes next. -/
def writeDir (settings : FileStoreSettings) (s : Site Output) : Path :=
  s.own.dir.getD (settings.tempParent.join
    ⟨FileTree.tempName settings.tempPrefix s.environment.files.fresh⟩)

/-- Changes of files are confined to a directory. -/
def Stays (dir : Path) (s t : Site Output) : Prop :=
  BuildsIn dir s.environment.files t.environment.files

theorem Stays.refl (dir : Path) (s : Site Output) : Stays dir s s := BuildsIn.refl dir _

theorem Stays.trans (h : Stays dir s t) (h' : Stays dir t u) : Stays dir s u :=
  BuildsIn.trans h h'

/-- What an operation changes stays in a directory. -/
structure Staying (dir : Path) (x : Filing α) : Prop where
  safely : ∀ s, x.run.Safely (Stays dir s) (fun _ t => Stays dir s t) s

theorem staying_provideDir (along : dir.Along path) : Staying dir (provideDir path) := by
  refine ⟨fun s => ?_⟩
  refine Safely.bindExcept (safely_look (.refl dir s) ?_)
  dsimp only
  split
  · exact .refl dir s
  · have built : BuildsIn dir s.environment.files (s.environment.files.makeDirs path).2 :=
      buildsIn_makeDirs along
    refine Safely.bindExcept (safely_transfer built ?_)
    dsimp only
    split
    · exact built
    · exact safely_changeOutput built built

/-- The output directory is found, or it is made. -/
theorem stays_outputRoot (settings : FileStoreSettings) (s : Site Output) :
    (outputRoot settings).run.Safely (Stays (writeDir settings s) s) (fun r t =>
      Stays (writeDir settings s) s t ∧ ∀ dir, r = .ok dir → dir = writeDir settings s) s := by
  refine Safely.bindExcept (safely_look (.refl _ s) ?_)
  dsimp only
  split
  · rename_i dir known
    refine ⟨.refl _ s, fun other same => ?_⟩
    cases same
    unfold writeDir
    rw [known]
    rfl
  · rename_i unknown
    cases made : s.environment.files.makeTempDir settings.tempParent settings.tempPrefix with
    | error kind =>
        refine Safely.bindExcept (safely_access ?_ ?_)
        · rw [made]
          exact .refl _ s
        · rw [made]
          exact ⟨.refl _ s, fun _ same => by cases same⟩
    | ok found =>
        obtain ⟨dir, files⟩ := found
        have own : dir = writeDir settings s := by
          unfold makeTempDir at made
          obtain ⟨v, -, made⟩ := ok_of_bind made
          cases made
          unfold writeDir
          rw [unknown]
          rfl
        have built : BuildsIn (writeDir settings s) s.environment.files files :=
          own ▸ buildsIn_makeTempDir made
        refine Safely.bindExcept (safely_access ?_ ?_)
        · rw [made]
          exact built
        · rw [made]
          refine Safely.bindExcept (safely_changeOutput built ⟨built, fun other same => ?_⟩)
          cases same
          exact own

theorem staying_writeText (within : dir.Within names path)
    (named : ∀ (t u : FileTree) (bytes : List UInt8), t.write path bytes = .ok u → names ≠ [])
    (target text : String) : Staying dir (writeText path target text) := by
  refine ⟨fun s => ?_⟩
  unfold writeText
  extract_lets write
  have writes {t : Site Output} (built : Stays dir s t) :
      (write ()).run.Safely (Stays dir s) (fun _ u => Stays dir s u) t := by
    have kept : Stays dir s { t with environment := { t.environment with files :=
        (t.environment.files.attempt
          (t.environment.files.write path text.toUTF8.toList)).2 } } := by
      cases written : t.environment.files.write path text.toUTF8.toList with
      | error kind => exact built
      | ok files => exact built.trans (buildsIn_write within (named _ _ _ written) written)
    refine Safely.bindExcept (safely_transfer kept ?_)
    dsimp only
    split <;> exact kept
  split
  · exact writes (.refl dir s)
  · rename_i above nearest
    obtain ⟨-, last, parts, -⟩ := Path.parent_spec nearest
    have along : dir.Along above := Path.along_of_within within ⟨[last], parts.symm⟩
    refine Safely.bindExcept (((staying_provideDir along).safely s).mono id ?_)
    rintro (e | _) t built
    · exact built
    · exact writes built

/-- The steps that both kinds of writes have in common: what is written to the output directory
stays there, and what follows changes the overlay alone. -/
theorem stays_write {token : Token} {operation : String} (s : Site Output)
    (write : Path → Filing Unit) (keep : Unit → Filing α)
    (writes : ∀ dir, Staying dir (write dir))
    (keeps : ∀ (t : Site Output) (inv : Site Output → Prop),
      (∀ overlay, inv { t with overlay := overlay }) →
        (keep ()).run.Safely inv (fun _ u => inv u) t) :
    (do
      let dir ← outputRoot f.settings
      Storing.within token operation (write dir)
      keep () : Filing α).run.Safely (Stays (writeDir f.settings s) s)
        (fun _ t => Stays (writeDir f.settings s) s t) s := by
  refine Safely.bindExcept ((stays_outputRoot f.settings s).mono id ?_)
  rintro (e | dir) t ⟨built, own⟩
  · exact built
  obtain rfl := own dir rfl
  refine Safely.bindExcept ((Safely.within built (fun _ _ built' _ => built')
    (((writes _).safely t).mono built.trans built.trans)).mono id ?_)
  rintro (e | v) u built'
  · exact built'
  · exact keeps u _ fun _ => built'

theorem staying_writeOutput (key target text : String) (dir : Path) :
    Staying dir (writeText (dir.join (relativePath key)) target text) := by
  have within := within_output key dir
  have named (t u : FileTree) (bytes : List UInt8)
      (written : t.write (dir.join (relativePath key)) bytes = .ok u) : outputNames key ≠ [] := by
    rw [relativePath_eq] at written
    exact named_of_write written
  generalize dir.join (relativePath key) = path at within named ⊢
  exact staying_writeText within named target text

theorem Operation.stays {op : Operation} (writes : op.Writes address space) (f : Sources)
    (s : Site Output) : (op.job f).Safely (Stays (writeDir f.settings s) s)
      (fun _ t => Stays (writeDir f.settings s) s t) s := by
  cases writes with
  | content =>
      refine Safely.mapExcept id (Safely.bindExcept ?_)
      cases address.key f.resolver .content with
      | error e => exact safely_misnaming (.refl _ s)
      | ok key =>
          refine safely_naming (stays_write s
            (fun dir => writeText (dir.join (relativePath key)) key _)
            (fun _ => Storing.keepContent (writtenRecord address key _))
            (staying_writeOutput key key _) fun t inv holds => ?_)
          exact safely_keepContent (holds _) (holds _)
  | @code address renderer token =>
      refine Safely.mapExcept id (Safely.bindExcept ?_)
      cases address.key f.resolver .code with
      | error e => exact safely_misnaming (.refl _ s)
      | ok key =>
          refine safely_naming ?_
          dsimp only
          cases renderer.source with
          | none => exact safely_keepCode (Stays.refl _ s) (Stays.refl _ s)
          | some source =>
              refine stays_write s (fun dir => writeText (dir.join (relativePath key)) key _)
                (fun _ => Storing.keepCode ⟨key, address.name, renderer⟩)
                (staying_writeOutput key key _) fun t inv holds => ?_
              exact safely_keepCode (holds _) (holds _)

/-! ## What an unregistration removes -/

/-- Nothing has been removed, or only from the output directory. -/
def Prunes (s t : Site Output) : Prop :=
  t.environment.files = s.environment.files ∨ ∃ dir, s.own.dir = some dir ∧
    s.environment.files.Confined dir s.environment.files t.environment.files

theorem prunes_unregister (f : Sources) (s : Site Output) (name : String) (token : Token) :
    ((files f).unregister name token).run.Safely (Prunes s) (fun _ t => Prunes s t) s := by
  have prunes {t : Site Output} (h : t.own = s.own ∧
      s.environment.files.Thins t.environment.files ∧
      (t.environment.files = s.environment.files ∨ ∃ dir, s.own.dir = some dir ∧
        s.environment.files.Confined dir s.environment.files t.environment.files)) :
      Prunes s t := h.2.2
  refine (safely_unregister s (fun files => s.environment.files.Thins files ∧
    (files = s.environment.files ∨ ∃ dir, s.own.dir = some dir ∧
      s.environment.files.Confined dir s.environment.files files))
        ⟨.refl _, .inl rfl⟩ ?_).mono prunes prunes
  rintro dir key files left known - removed ⟨thins, before⟩
  have removed' := removed
  rw [relativePath_eq] at removed'
  have confined := confined_removeFile thins (within_output key dir)
    (named_of_removeFile removed') removed
  refine ⟨thins.trans (removeFile_lacks removed).1, .inr ⟨dir, known, ?_⟩⟩
  rcases before with rfl | ⟨dir', known', before⟩
  · exact confined
  · cases known.symm.trans known'
    exact before.trans confined

/-- The output file of any key is within the output directory, and the source file of a relative key
is within the source directory. So what writes and unregistrations change is within the output
directory, but for directories made on the way to it, and what is read under a relative key is in
the source directory. Without links this is where the directories are. -/
theorem keys_stay_in_their_trees (f : Sources) :
    (∀ (key : String) (dir : Path),
      dir.Within (outputNames key) (dir.join (relativePath key))) ∧
    (∀ key : String, (⟨(splitQuery key).1⟩ : Path).isAbsolute = false →
      f.settings.sourceDir.Within (Path.normalNames ⟨(splitQuery key).1⟩) (f.fileOf key)) ∧
    (∀ (s : Site Output) (op : Operation) (address : Address) (space : KeySpace),
      op.Writes address space → (op.job f).Safely
        (fun t => t.environment.files.Confined (writeDir f.settings s) s.environment.files
          t.environment.files)
        (fun _ t => t.environment.files.Confined (writeDir f.settings s) s.environment.files
          t.environment.files) s) ∧
    (∀ (s : Site Output) (name : String) (token : Token),
      ((files f).unregister name token).run.Safely (Prunes s) (fun _ t => Prunes s t) s) ∧
    (∀ (s : Site Output) (address : Address) (token : Token),
      ((files f).readContent address token).run.Safely
        (fun t => t.environment.files = s.environment.files)
        (fun r t => t.environment.files = s.environment.files ∧
          ∀ record, r = .ok (some record) → ∃ key, address.key f.resolver .content = .ok key ∧
            (s.overlay.content.get? key = some record ∨
              SourceRecord f s.environment.files address key record)) s) ∧
    (∀ (t : FileTree) (dir : Path) (place : Place), t.Inside dir place → t.Linkless dir →
      t.Below dir place) ∧
    ∀ (t : FileTree) (key text : String), (⟨(splitQuery key).1⟩ : Path).isAbsolute = false →
      t.Linkless f.settings.sourceDir → t.readText (f.fileOf key) = .ok text →
        ∃ place bytes, t.Below f.settings.sourceDir place ∧
          t.entry? place = some (.file bytes) ∧ String.fromUTF8? ⟨bytes.toArray⟩ = some text :=
  ⟨within_output, fun _ => within_sources f,
    fun s _ _ _ writes => (Operation.stays writes f s).mono (·.confined) (·.confined),
    prunes_unregister f, safely_readContent f, fun _ _ _ => Inside.below,
    fun _ _ _ => source_below⟩

end Files
end Store

open Store Store.Files

namespace Sample

/-- A source tree next to a file that does not belong to it. -/
def twoSecrets : FileTree where
  entries := .ofPairs [("/in", .directory), ("/in/secret", .file "own".toUTF8.toList),
    ("/secret", .file "other".toUTF8.toList)]

end Sample

open Sample

/-- Parents in keys lead nowhere else. -/
theorem Store.Files.parents_in_keys_are_no_steps :
    (⟨(splitQuery "../secret").1⟩ : Path).isAbsolute = false ∧
    (⟨"/in"⟩ : Path).Within ["secret"] ((neighbors false).fileOf "../secret") ∧
    (stamp "../../b").Writes { name := "../../b" } .content ∧
    (∃ r t, ((stamp "../../b").job (neighbors false)).finish
        (outputTree (.file "s".toUTF8.toList)) = some (r, t) ∧
      t.environment.files.Confined ⟨"/out"⟩
        (outputTree (.file "s".toUTF8.toList)).environment.files t.environment.files) ∧
    twoSecrets.Linkless ⟨"/in"⟩ ∧ twoSecrets.Inside ⟨"/in"⟩ ["in", "secret"] ∧
    twoSecrets.Below ⟨"/in"⟩ ["in", "secret"] ∧
    twoSecrets.readText ((neighbors false).fileOf "../secret") = .ok "own" ∧
    ∃ place bytes, twoSecrets.Below ⟨"/in"⟩ place ∧ twoSecrets.entry? place = some (.file bytes) ∧
      String.fromUTF8? ⟨bytes.toArray⟩ = some "own" := by
  have relative : (⟨(splitQuery "../secret").1⟩ : Path).isAbsolute = false := by decide +kernel
  have names : Path.normalNames ⟨(splitQuery "../secret").1⟩ = ["secret"] := by decide +kernel
  have linkless : twoSecrets.Linkless ⟨"/in"⟩ := by
    have kinds : ∀ x ∈ twoSecrets.entries.entries,
        x.2 ∈ [.directory, .file "own".toUTF8.toList, .file "other".toUTF8.toList] := by
      decide +kernel
    refine fun place _ names target => FileTree.linkless_of_entries fun x there link => ?_
    have kind := kinds x there
    rw [link] at kind
    simp at kind
  have located : twoSecrets.locate ((neighbors false).fileOf "../secret") true =
      .ok ["in", "secret"] := by decide +kernel
  have read : twoSecrets.readText ((neighbors false).fileOf "../secret") = .ok "own" := by
    decide +kernel
  have theorems := keys_stay_in_their_trees (neighbors false)
  have within : (⟨"/in"⟩ : Path).Within ["secret"] ((neighbors false).fileOf "../secret") :=
    names ▸ theorems.2.1 "../secret" relative
  have inside : twoSecrets.Inside ⟨"/in"⟩ ["in", "secret"] :=
    ⟨_, _, true, _, by simp, within, located, List.prefix_rfl⟩
  obtain ⟨r, t, ends, confined⟩ := (theorems.2.2.1 (outputTree (.file "s".toUTF8.toList))
    (stamp "../../b") _ _ .content).ends
  exact ⟨relative, within, .content, ⟨r, t, ends, confined⟩, linkless, inside,
    theorems.2.2.2.2.2.1 _ _ _ inside linkless, read,
    theorems.2.2.2.2.2.2 twoSecrets "../secret" "own" relative linkless read⟩

end TemplateCache
