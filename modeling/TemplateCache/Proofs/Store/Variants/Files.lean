import Mathlib.Logic.Relation
import TemplateCache.Proofs.Store.Variants

/-!
# Variants apart in files

A store over files reads content from its source tree and code from its output tree. It keeps
variants apart as long as those files are common, and remain so when the store adds directories and
the code that it keeps.
-/

namespace TemplateCache.Store

open Job Storing

variable {generator : Generator} {options : Json.Value} {k : Common generator options}
  {s : Sources} {loads : String → Prop} {t u v : FileTree}

namespace Sources

/-- The output directory, or one that may become it. -/
def OutputDir (s : Sources) (dir : Path) : Prop :=
  s.settings.outputDir = some dir ∨ ∃ number,
    dir = s.settings.tempParent.join ⟨FileTree.tempName s.settings.tempPrefix number⟩

/-- A key that some request has its code under. -/
def CodeKey (s : Sources) (key : String) : Prop :=
  ∃ address : Address, address.key s.resolver .code = .ok key

/-- What a store adds to the files as it reads and compiles: directories, and code in an output
directory, which is common where its key has no query. -/
inductive Adds (s : Sources) (k : Common generator options) : FileTree → FileTree → Prop where
  | dirs {t : FileTree} (p : Path) : Adds s k t (t.makeDirs p).2
  | tempDir {t u : FileTree} {p : Path}
      (made : t.makeTempDir s.settings.tempParent s.settings.tempPrefix = .ok (p, u)) :
      Adds s k t u
  | code {t u : FileTree} {dir : Path} {key source : String} (output : s.OutputDir dir)
      (coded : s.CodeKey key) (common : BareKey key → k.source source)
      (written : t.write (dir.join (relativePath key))
        (s.settings.moduleFormat.wrap source).toUTF8.toList = .ok u) : Adds s k t u

/-- Files that are common where a request without parameters may come upon them. -/
structure Reads (s : Sources) (k : Common generator options) (loads : String → Prop)
    (t : FileTree) : Prop where
  content : ∀ {key text}, loads key → t.readText (s.fileOf key) = .ok text →
    k.content (.ofSource text (s.fileOf key).extension?)
  named : ∀ {path name text}, s.nameOf path = some name → t.readText path = .ok text →
    k.content (.ofSource text path.extension?)
  code : ∀ {dir key text}, s.OutputDir dir → s.CodeKey key → BareKey key →
    t.readText (dir.join (relativePath key)) = .ok text →
    k.source (s.settings.moduleFormat.unwrap text)

/-- Files that are common and remain so whatever the store adds. -/
def Holds (s : Sources) (k : Common generator options) (loads : String → Prop) (t : FileTree) :
    Prop :=
  ∀ u, Relation.ReflTransGen (s.Adds k) t u → s.Reads k loads u

theorem Holds.reads (h : s.Holds k loads t) : s.Reads k loads t := h t .refl

theorem Holds.adds (h : s.Holds k loads t) (adds : s.Adds k t u) : s.Holds k loads u :=
  fun v more => h v (.head adds more)

/-- Content may be written where its file takes no other's place. -/
def supply (s : Sources) (k : Common generator options) (loads : String → Prop) :
    Supply Output where
  own o := ∀ dir, o.dir = some dir → s.OutputDir dir
  shared e := s.Holds k loads e.files
  loads address key := address.isBare = true → loads key
  scans := True
  writes address key content := (address.isBare = true → k.content content) ∧
    ∀ {t u dir}, s.OutputDir dir → s.Holds k loads t →
      t.write (dir.join (relativePath key)) content.asText.toUTF8.toList = .ok u →
        s.Holds k loads u

end Sources

namespace Files

variable {α : Type} {good : α → Prop}

theorem sorts_access {f : FileTree → α × FileTree}
    (h : ∀ t, s.Holds k loads t → s.Holds k loads (f t).2 ∧ good (f t).1) :
    Yields (Site.Sorted k (s.supply k loads)) good (access f) := by
  refine yields_lift fun site sorted => ?_
  obtain ⟨holds, fine⟩ := h site.environment.files sorted.shared
  exact ⟨⟨sorted.content, sorted.code, sorted.own, holds⟩, fine⟩

theorem sorts_transfer {f : FileTree → α × FileTree}
    (h : ∀ t, s.Holds k loads t → s.Holds k loads (f t).2 ∧ good (f t).1) :
    Yields (Site.Sorted k (s.supply k loads)) good (transfer f) :=
  (sorts_access h).bind fun _ fine => Yields.seq (yields_lift trivial) fun _ => yields_pure fine

theorem sorts_output : Yields (Site.Sorted k (s.supply k loads))
    (fun o => ∀ dir, o.dir = some dir → s.OutputDir dir) output :=
  yields_gets fun _ sorted => sorted.own

theorem sorts_changeOutput {f : Output → Output}
    (h : ∀ o : Output, (∀ dir, o.dir = some dir → s.OutputDir dir) →
      ∀ dir, (f o).dir = some dir → s.OutputDir dir) :
    Yields (Site.Sorted k (s.supply k loads)) (fun _ => True) (changeOutput f) :=
  yields_modify fun _ sorted =>
    ⟨sorted.content, sorted.code, h _ sorted.own, sorted.shared⟩

/-- What is read is in a tree that has common files. -/
theorem sorts_readText (path : Path) (target : String) :
    Yields (Site.Sorted k (s.supply k loads)) (fun found => ∀ text, found = some text →
      ∃ t, s.Reads k loads t ∧ t.readText path = .ok text) (readText path target) := by
  have reads : Yields (Site.Sorted k (s.supply k loads)) (fun found => ∀ text, found = .ok text →
      ∃ t, s.Reads k loads t ∧ t.readText path = .ok text)
      (transfer fun t => (t.readText path, t)) :=
    sorts_transfer fun t holds => ⟨holds, fun text there => ⟨t, holds.reads, there⟩⟩
  refine reads.bind fun found fine => ?_
  split
  · refine yields_pure fun text same => ?_
    cases same
    exact fine _ rfl
  · exact yields_pure fun _ => nofun
  · exact yields_throw _

theorem sorts_provideDir (dir : Path) :
    Yields (Site.Sorted k (s.supply k loads)) (fun _ => True) (provideDir dir) := by
  refine sorts_output.bind fun o _ => ?_
  split
  · exact yields_pure trivial
  · have made : Yields (Site.Sorted k (s.supply k loads)) (fun _ => True)
        (transfer fun t => t.makeDirs dir) :=
      sorts_transfer fun t holds => ⟨holds.adds (.dirs dir), trivial⟩
    refine made.seq fun result => ?_
    split
    · exact yields_throw _
    · exact sorts_changeOutput fun o known => known

/-- The output directory is the one of the settings, or a temporary one that was made. -/
theorem sorts_outputRoot :
    Yields (Site.Sorted k (s.supply k loads)) s.OutputDir (outputRoot s.settings) := by
  refine sorts_output.bind fun o known => ?_
  split
  · exact yields_pure (known _ ‹_›)
  · refine Yields.bind (show Yields (Site.Sorted k (s.supply k loads))
      (fun made : Except FileErrorKind Path => ∀ dir, made = .ok dir → s.OutputDir dir) _ from ?_)
      fun made fine => ?_
    · refine sorts_access fun t holds => ?_
      split
      · rename_i dir u made
        refine ⟨holds.adds (.tempDir made), ?_⟩
        rintro _ ⟨rfl⟩
        unfold FileTree.makeTempDir at made
        obtain ⟨v, -, made⟩ := FileTree.ok_of_bind made
        cases made
        exact .inr ⟨_, rfl⟩
      · exact ⟨holds, fun _ => nofun⟩
    · split
      · exact yields_throw _
      · rename_i dir
        have output := fine dir rfl
        refine Yields.seq (sorts_changeOutput fun o _ dir same => ?_) fun _ => yields_pure output
        cases same
        exact output

theorem sorts_provideDirs (relative : List Path) :
    Yields (Site.Sorted k (s.supply k loads)) (fun _ => True) (provideDirs s relative) := by
  refine sorts_outputRoot.bind fun root _ => (sorts_provideDir _).seq fun _ => ?_
  refine (Yields.mapM (fun path => ?_) relative).seq fun dirs => yields_pure trivial
  exact (sorts_provideDir _).seq fun _ => yields_pure trivial

theorem sorts_writeText {path : Path} {target text : String}
    (h : ∀ t u, t.write path text.toUTF8.toList = .ok u → s.Holds k loads t → s.Holds k loads u) :
    Yields (Site.Sorted k (s.supply k loads)) (fun _ => True) (writeText path target text) := by
  unfold writeText
  extract_lets write
  have writes u : Yields (Site.Sorted k (s.supply k loads)) (fun _ => True) (write u) := by
    have written : Yields (Site.Sorted k (s.supply k loads)) (fun _ => True)
        (transfer fun t => t.attempt (t.write path text.toUTF8.toList)) := by
      refine sorts_transfer fun t holds => ⟨?_, trivial⟩
      unfold FileTree.attempt
      split
      · exact h _ _ ‹_› holds
      · exact holds
    refine written.seq fun result => ?_
    split
    · exact yields_pure trivial
    · exact yields_throw _
  split
  · exact writes ()
  · exact (sorts_provideDir _).seq writes

/-- What is read from a source file is common, and has no parameters. -/
theorem sorts_readSource (path : Path) (token : Token) :
    Yields (Site.Sorted k (s.supply k loads))
      (fun found => ∀ record, found = some record → k.Suits record)
      (readSource s path token) := by
  unfold readSource
  split
  · exact yields_pure fun _ => nofun
  · rename_i name named
    refine Yields.bind (show Yields (Site.Sorted k (s.supply k loads)) (fun found => ∀ text,
      found = some text → ∃ t, s.Reads k loads t ∧ t.readText path = .ok text) _ from ?_)
      fun found fine => ?_
    · refine yields_within (Yields.seq (sorts_transfer fun t holds => ⟨holds, trivial⟩)
        fun status => ?_)
      split
      · exact sorts_readText _ _
      · exact yields_pure fun _ => nofun
      · exact yields_pure fun _ => nofun
      · exact yields_throw _
    split
    · exact yields_pure fun _ => nofun
    · rename_i source
      obtain ⟨t, reads, there⟩ := fine source rfl
      have delivers : Yields (Site.Sorted k (s.supply k loads))
          (fun found => ∀ record, found = some record → k.Suits record) (do
            let key ← Storing.naming (s.keyOf name path)
            let extension := path.extension?
            some <$> Storing.keepContent
              (.make name key (.ofSource source extension) .discovered extension none)) := by
        have names : Yields (Site.Sorted k (s.supply k loads)) (fun _ => True)
            (Storing.naming (s.keyOf name path)) := yields_naming fun _ _ => trivial
        refine names.seq fun key => ?_
        have suits : k.Suits
            (.make name key (.ofSource source path.extension?) .discovered path.extension? none) :=
          fun _ => reads.named named there
        exact (yields_keepFound suits).mono fun fine record there => (fine record there).2
      split
      · exact delivers
      · split
        · exact delivers
        · exact sorts_outputRoot.bind fun root _ => (sorts_provideDir _).seq fun _ => delivers

theorem sorts_scan (token : Token) : (Files.scan s token).Under (Site.Sorted k (s.supply k loads))
    fun discovery => ∀ record ∈ discovery.found, k.Suits record := by
  have all (files : List Path) : Yields (Site.Sorted k (s.supply k loads))
      (fun loaded => ∀ r ∈ loaded, ∀ found, r = .ok found →
        ∀ record, found = some record → k.Suits record)
      (Storing.always (files.mapM fun path => (readSource s path token).run) : Filing _) := by
    refine yields_lift (Under.mono (fun fine r there => ?_)
      (Under.mapM fun path _ => sorts_readSource path token))
    obtain ⟨path, -, fine⟩ := fine r there
    exact fine
  have swept : Yields (Site.Sorted k (s.supply k loads)) (fun swept => ∀ r ∈ swept.2, ∀ found,
      r = .ok found → ∀ record, found = some record → k.Suits record) (do
        let found ← Storing.within token "filesystem scan" (walk s)
        let _ ← provideDirs s found.directories
        let loaded ← Storing.within token "filesystem scan"
          (Storing.always (found.files.mapM fun path => (readSource s path token).run))
        return (found, loaded) : Filing _) := by
    refine Yields.seq (yields_within (sorts_transfer fun t holds => ⟨holds, trivial⟩))
      fun found => (sorts_provideDirs _).seq fun _ => ?_
    exact Yields.bind (yields_within (all _)) fun loaded fine => yields_pure fine
  refine Under.bind swept fun r fine => ?_
  cases r with
  | error e => exact fun _ none => absurd none List.not_mem_nil
  | ok swept =>
      -- Files that could not be read are left out of the list.
      intro record listed
      obtain ⟨found, valued, rfl⟩ := List.mem_filterMap.1 listed
      obtain ⟨r, loaded, succeeded⟩ := List.mem_filterMap.1 valued
      cases r with
      | error e => exact nomatch succeeded
      | ok found =>
          cases succeeded
          exact fine _ rfl _ loaded _ rfl record rfl

end Files

open Files in
theorem files_sorts (s : Sources) (loads : String → Prop) :
    (files s).Sorts k (s.supply k loads) where
  passes _ shared := shared
  readContent {address key} token named asked := by
    refine yields_content named (yields_within ?_)
    refine (sorts_readText (s.fileOf key) key).bind fun found fine => ?_
    split
    · exact yields_pure fun _ => nofun
    · rename_i source
      obtain ⟨t, reads, there⟩ := fine source rfl
      exact yields_keepFound (Common.suits_make named fun bare => reads.content (asked bare) there)
  writeContent {address key content} token named writes := by
    refine yields_named named ?_
    refine sorts_outputRoot.bind fun root output => ?_
    generalize place : root.join (relativePath key) = path
    refine Yields.seq (yields_within (sorts_writeText fun t u written holds => ?_)) fun _ => ?_
    · exact writes.2 output holds (place ▸ written)
    · exact (yields_keepContent (Common.suits_make named writes.1)).mono fun _ => trivial
  readCode {address key} token named := by
    refine yields_code named (sorts_output.bind fun o known => ?_)
    split
    · exact yields_pure fun _ => nofun
    · rename_i dir there
      generalize place : dir.join (relativePath key) = path
      refine yields_within ((sorts_readText path key).bind fun found fine => ?_)
      refine yields_pure fun code made => ?_
      obtain ⟨text, same, rfl⟩ := Option.map_eq_some_iff.1 made
      obtain ⟨t, reads, read⟩ := fine text same
      refine ⟨fun _ => nofun, fun bare => ?_⟩
      exact reads.code (known dir there) ⟨address, named⟩ bare (place ▸ read)
  writeCode {address key renderer} token named generates := by
    refine yields_named named ?_
    dsimp only
    split
    · exact yields_keepGenerated generates
    · rename_i source sourced
      refine sorts_outputRoot.bind fun root output => ?_
      generalize place : root.join (relativePath key) = path
      refine Yields.seq (yields_within (sorts_writeText fun t u written holds => ?_)) fun _ =>
        yields_keepGenerated generates
      refine holds.adds (.code output ⟨address, named⟩ (fun bare => ?_) (place ▸ written))
      obtain ⟨x, common, made⟩ := generates bare
      exact k.generated common made sourced
  scan _ token := sorts_scan token

end TemplateCache.Store
