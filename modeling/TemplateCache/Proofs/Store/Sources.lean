import TemplateCache.Proofs.Files.Growth
import TemplateCache.Proofs.Store.Unregister

/-!
# What stores read from source files

The record of a source file has the text that the file had when the store began to read: of files,
the store only adds directories to a tree in which it reads.
-/

namespace TemplateCache

open Job

/-! ## Operations under an invariant -/

namespace Storing

variable {π α : Type} {inv : Site π → Prop} {good : α → Prop}

theorem yields_gets {f : Site π → α} (h : ∀ s, inv s → good (f s)) : Yields inv good (gets f) :=
  yields_lift fun s holds => ⟨holds, h s holds⟩

theorem yields_modify {f : Site π → Site π} (h : ∀ s, inv s → inv (f s)) :
    Yields inv (fun _ => True) (modify f) :=
  yields_lift fun s holds => ⟨h s holds, trivial⟩

theorem yields_naming {r : Except NameError α} (h : ∀ v, r = .ok v → good v) :
    Yields inv good (naming r) := by
  cases r with
  | ok w =>
      rintro v ⟨⟩
      exact h w rfl
  | error e => exact fun _ => nofun

end Storing

namespace Store

/-- A file supplies a content key that is its own, under the name that it has here. -/
def Sources.Supplies (s : Sources) (path : Path) (key : String) : Prop :=
  ∃ name, s.nameOf path = some name ∧ s.keyOf name path = .ok key

/-- A record has the key and the name of a file, and its text if the file has one. -/
structure Sources.Delivers (s : Sources) (t : FileTree) (path : Path) (record : ContentRecord) :
    Prop where
  named : s.nameOf path = some record.name
  keyed : s.keyOf record.name path = .ok record.key
  bare : record.params = none
  text : ∀ {text}, t.readText path = .ok text → record.content = .ofSource text path.extension?

namespace Files

variable {α : Type} {t : FileTree} {good : α → Prop} {s : Sources}

/-- All that is in a tree is there, and there may be more directories. -/
def Grown (t : FileTree) (site : Site Output) : Prop := t.Extends site.environment.files

theorem yields_access {f : FileTree → α × FileTree}
    (h : ∀ u, t.Extends u → t.Extends (f u).2 ∧ good (f u).1) :
    Yields (Grown t) good (access f) :=
  yields_lift fun site grown => h site.environment.files grown

theorem yields_transfer {f : FileTree → α × FileTree}
    (h : ∀ u, t.Extends u → t.Extends (f u).2 ∧ good (f u).1) :
    Yields (Grown t) good (transfer f) := by
  refine (yields_access h).bind fun v fine => ?_
  exact Yields.seq (yields_lift trivial) fun _ => yields_pure fine

theorem yields_output : Yields (Grown t) (fun _ => True) output :=
  Storing.yields_gets fun _ _ => trivial

theorem yields_changeOutput (f : Output → Output) :
    Yields (Grown t) (fun _ => True) (changeOutput f) :=
  Storing.yields_modify fun _ grown => grown

theorem yields_readText (path : Path) (target : String) :
    Yields (Grown t) (fun found => ∀ source, found = some source →
      ∀ text, t.readText path = .ok text → source = text) (readText path target) := by
  have reads : Yields (Grown t) (fun found => ∀ source, found = .ok source →
      ∀ text, t.readText path = .ok text → source = text)
      (transfer fun t => (t.readText path, t)) := by
    refine yields_transfer fun u grown => ⟨grown, fun source found text there => ?_⟩
    exact Except.ok.inj (found.symm.trans (FileTree.readText_of_thins grown.thins there))
  refine reads.bind fun found fine => ?_
  split
  · refine yields_pure fun source same => ?_
    cases same
    exact fine _ rfl
  · exact yields_pure fun _ => nofun
  · exact yields_throw _

theorem yields_provideDir (dir : Path) : Yields (Grown t) (fun _ => True) (provideDir dir) := by
  refine yields_output.seq fun o => ?_
  split
  · exact yields_pure trivial
  · have made : Yields (Grown t) (fun _ => True) (transfer fun t => t.makeDirs dir) :=
      yields_transfer fun u grown => ⟨grown.trans (FileTree.extends_makeChain _), trivial⟩
    refine made.seq fun result => ?_
    split
    · exact yields_throw _
    · exact yields_changeOutput _

theorem yields_outputRoot (settings : FileStoreSettings) :
    Yields (Grown t) (fun _ => True) (outputRoot settings) := by
  refine yields_output.seq fun o => ?_
  split
  · exact yields_pure trivial
  · refine Yields.seq (yields_access fun u grown => ?_) fun made => ?_
    · split
      · exact ⟨grown.trans (FileTree.extends_makeTempDir ‹_›), trivial⟩
      · exact ⟨grown, trivial⟩
    · split
      · exact yields_throw _
      · exact (yields_changeOutput _).seq fun _ => yields_pure trivial

theorem yields_provideDirs (s : Sources) (relative : List Path) :
    Yields (Grown t) (fun _ => True) (provideDirs s relative) := by
  refine (yields_outputRoot _).seq fun root => (yields_provideDir _).seq fun _ => ?_
  refine (Yields.mapM (fun path => ?_) relative).seq fun dirs => yields_pure trivial
  exact (yields_provideDir _).seq fun _ => yields_pure trivial

/-- What is read from a file is what the tree had there. -/
theorem yields_readSource (s : Sources) (path : Path) (token : Token) :
    Yields (Grown t) (fun found => ∀ record, found = some record → s.Delivers t path record)
      (readSource s path token) := by
  unfold readSource
  split
  · exact yields_pure fun _ => nofun
  · rename_i name named
    refine Yields.bind (show Yields (Grown t) (fun found => ∀ source, found = some source →
      ∀ text, t.readText path = .ok text → source = text) _ from ?_) fun found fine => ?_
    · refine Yields.within (Yields.seq (yields_transfer fun u grown => ⟨grown, trivial⟩)
        fun status => ?_)
      split
      · exact yields_readText _ _
      · exact yields_pure fun _ => nofun
      · exact yields_pure fun _ => nofun
      · exact yields_throw _
    split
    · exact yields_pure fun _ => nofun
    · rename_i source
      have delivers : Yields (Grown t)
          (fun found => ∀ record, found = some record → s.Delivers t path record) (do
            let key ← Storing.naming (s.keyOf name path)
            let extension := path.extension?
            some <$> Storing.keepContent
              (.make name key (.ofSource source extension) .discovered extension none)) := by
        have names : Yields (Grown t) (fun key => s.keyOf name path = .ok key)
            (Storing.naming (s.keyOf name path)) := Storing.yields_naming fun _ same => same
        refine names.bind fun key keyed => ?_
        intro site grown
        refine ⟨grown, ?_⟩
        rintro _ ⟨⟩ record ⟨⟩
        exact ⟨named, keyed, rfl, fun there => by rw [← fine source rfl _ there]; rfl⟩
      split
      · exact delivers
      · split
        · exact delivers
        · exact (yields_outputRoot _).seq fun root => (yields_provideDir _).seq fun _ => delivers

/-- A walk sees the tree as it is, and changes nothing. -/
theorem succeeds_walk (s : Sources) (site : Site Output) :
    Succeeds (walk s) (fun found u =>
      found = Walk.below site.environment.files s.settings.sourceDir ∧
        Grown site.environment.files u) site := by
  rintro v ⟨⟩
  exact ⟨rfl, .refl _⟩

/-- What a scan finds was in the files that a walk saw when the scan began. -/
theorem alone_scan (s : Sources) (token : Token) (site : Site Output) :
    (Files.scan s token).Alone (fun discovery _ => ∀ record ∈ discovery.found,
      ∃ path ∈ (Walk.below site.environment.files s.settings.sourceDir).files,
        s.Delivers site.environment.files path record) site := by
  have loads (files : List Path) : Yields (Grown site.environment.files)
      (fun loaded => ∀ r ∈ loaded, ∃ path ∈ files,
        ∀ found, r = .ok found → ∀ record, found = some record →
          s.Delivers site.environment.files path record)
      (Storing.always (files.mapM fun path => (readSource s path token).run) : Filing _) :=
    yields_lift (Under.mapM fun path _ => yields_readSource s path token)
  have swept : Succeeds (do
      let found ← Storing.within token "filesystem scan" (walk s)
      let _ ← provideDirs s found.directories
      let loaded ← Storing.within token "filesystem scan"
        (Storing.always (found.files.mapM fun path => (readSource s path token).run))
      return (found, loaded) : Filing _)
      (fun swept _ => ∀ r ∈ swept.2,
        ∃ path ∈ (Walk.below site.environment.files s.settings.sourceDir).files,
          ∀ found, r = .ok found → ∀ record, found = some record →
            s.Delivers site.environment.files path record) site := by
    refine Succeeds.bind (Storing.succeeds_within ((succeeds_walk s site).mono ?_))
    rintro _ u ⟨rfl, grown⟩
    -- From here on the scan creates directories, which leaves the texts of the files alone.
    refine Yields.succeeds (fun _ _ => id) ?_ grown
    refine (yields_provideDirs s _).seq fun _ => ?_
    exact Yields.bind (Yields.within (loads _)) fun loaded fine => yields_pure fine
  refine Alone.bind (Alone.mono (fun {r u} fine => ?_) swept)
  cases r with
  | error e => exact fun _ none => absurd none List.not_mem_nil
  | ok swept =>
      intro record listed
      obtain ⟨found, valued, rfl⟩ := List.mem_filterMap.1 listed
      obtain ⟨r, loaded, succeeded⟩ := List.mem_filterMap.1 valued
      obtain ⟨path, walked, delivers⟩ := fine _ rfl r loaded
      cases r with
      | error e => exact nomatch succeeded
      | ok found =>
          cases succeeded
          exact ⟨path, walked, delivers _ rfl record rfl⟩

end Files
end Store
end TemplateCache
