import TemplateCache.Proofs.Job.Safely
import TemplateCache.Proofs.Store.OutputPath
import TemplateCache.Proofs.Store.Unregister

/-!
# What is built in output directories

An operation of a store over files makes directories, and a write also puts one file where the key
says. Each directory that a store remembers was there when it was remembered. So where a write finds
one missing, either the store has lost a directory that it remembers, or it has no output directory
and cannot make a temporary one, or what is missing is behind a link in the place of the file.
-/

namespace TemplateCache

open Job

/-- Whether a file or a directory was missing. -/
def StoreError.missing : StoreError → Bool
  | .medium _ _ (.io error) => error.kind = .notFound
  | _ => false

namespace Store.Files

variable {s t u : Site Output} {dir path : Path} {α β : Type}

theorem missing_fileError {target : String} {kind : FileErrorKind} :
    (fileError target kind).missing = true ↔ kind = .notFound := decide_eq_true_iff

/-- A token that ends an operation is no missing directory. -/
theorem missing_of_early {token : Token} {operation : String} {e : StoreError}
    (early : EndsEarly token operation (.error e : Except StoreError α)) : e.missing = false := by
  rcases early with same | same <;>
  · cases same
    rfl

/-! ## Directories -/

/-- Directories have been made, and only directories that were made have been remembered since. -/
structure Grows (s t : Site Output) : Prop where
  files : s.environment.files.Extends t.environment.files
  dir : ∀ dir, s.own.dir = some dir → t.own.dir = some dir
  made : ∀ dir ∈ t.own.made, dir ∈ s.own.made ∨ t.environment.files.HasDir dir

theorem Grows.refl (s : Site Output) : Grows s s := ⟨.refl _, fun _ => id, fun _ => .inl⟩

theorem Grows.trans (h : Grows s t) (h' : Grows t u) : Grows s u where
  files := h.files.trans h'.files
  dir dir known := h'.dir dir (h.dir dir known)
  made dir there := by
    rcases h'.made dir there with before | has
    · rcases h.made dir before with first | has
      · exact .inl first
      · exact .inr (has.of_ways h'.files.waysIn)
    · exact .inr has

/-- A directory is remembered, but it is not there. -/
def Lost (s : Site Output) (dir : Path) : Prop :=
  ∃ known ∈ s.own.made, known.same dir = true ∧ ¬s.environment.files.HasDir known

theorem Lost.of_grows (h : Grows s t) (lost : Lost t dir) : Lost s dir := by
  obtain ⟨known, there, same, missing⟩ := lost
  rcases h.made known there with before | has
  · exact ⟨known, before, same, fun has => missing (has.of_ways h.files.waysIn)⟩
  · exact absurd has missing

/-- There is no output directory yet, and the directory is missing that a temporary one would be
made in. -/
def Homeless (settings : FileStoreSettings) (s : Site Output) : Prop :=
  s.own.dir = none ∧ ∃ above,
    (settings.tempParent.join
      ⟨FileTree.tempName settings.tempPrefix s.environment.files.fresh⟩).parent? = some above ∧
      ¬s.environment.files.HasDir above

/-! ## Parts of operations -/

section

variable {inv : Site Output → Prop} {ok : Except StoreError α → Site Output → Prop}

theorem safely_access {f : FileTree → α × FileTree}
    (kept : inv { s with
      environment := { s.environment with files := (f s.environment.files).2 } })
    (h : ok (.ok (f s.environment.files).1) { s with
      environment := { s.environment with files := (f s.environment.files).2 } }) :
    (access f).run.Safely inv ok s := ⟨kept, h⟩

theorem safely_transfer {f : FileTree → α × FileTree}
    (kept : inv { s with
      environment := { s.environment with files := (f s.environment.files).2 } })
    (h : ok (.ok (f s.environment.files).1) { s with
      environment := { s.environment with files := (f s.environment.files).2 } }) :
    (transfer f).run.Safely inv ok s := ⟨kept, h⟩

theorem safely_naming {v : α} (h : ok (.ok v) s) :
    (Storing.naming (.ok v) : Filing α).run.Safely inv ok s := h

theorem safely_misnaming {e : NameError} (h : ok (.error (.naming e)) s) :
    (Storing.naming (.error e) : Filing α).run.Safely inv ok s := h

theorem safely_keepContent {record : ContentRecord}
    {ok : Except StoreError ContentRecord → Site Output → Prop}
    (kept : inv { s with overlay := s.overlay.putContent record })
    (h : ok (.ok record) { s with overlay := s.overlay.putContent record }) :
    (Storing.keepContent record : Filing ContentRecord).run.Safely inv ok s := ⟨kept, h⟩

theorem safely_keepCode {record : CodeRecord}
    {ok : Except StoreError CodeRecord → Site Output → Prop}
    (kept : inv { s with overlay := s.overlay.putCode record })
    (h : ok (.ok record) { s with overlay := s.overlay.putCode record }) :
    (Storing.keepCode record : Filing CodeRecord).run.Safely inv ok s := ⟨kept, h⟩

theorem safely_overlay {ok : Except StoreError Overlay → Site Output → Prop} (start : inv s)
    (h : ok (.ok s.overlay) s) :
    (Storing.overlay : Filing Overlay).run.Safely inv ok s := ⟨start, h⟩

theorem safely_look {ok : Except StoreError Output → Site Output → Prop} (start : inv s)
    (h : ok (.ok s.own) s) : output.run.Safely inv ok s := ⟨start, h⟩

theorem safely_changeOutput {f : Output → Output} {ok : Except StoreError Unit → Site Output → Prop}
    (kept : inv { s with own := f s.own }) (h : ok (.ok ()) { s with own := f s.own }) :
    (changeOutput f).run.Safely inv ok s := ⟨kept, h⟩

end

/-- A directory is there when it has been provided, unless it is lost. -/
theorem safely_provideDir (s : Site Output) (dir : Path) :
    (provideDir dir).run.Safely (Grows s) (fun r t => Grows s t ∧
      (r = .ok () → t.environment.files.HasDir dir ∨ Lost s dir) ∧
      ∀ e, r = .error e → e.missing = true → ¬dir.Firm) s := by
  refine Safely.bindExcept (safely_look (.refl s) ?_)
  dsimp only
  split
  · rename_i known
    refine ⟨.refl s, fun _ => ?_, fun e failed => by cases failed⟩
    obtain ⟨own, there, same⟩ := List.any_eq_true.1 known
    by_cases has : s.environment.files.HasDir own
    · exact .inl (has.of_same same)
    · exact .inr ⟨own, there, same, has⟩
  · have grown : Grows s { s with environment :=
        { s.environment with files := (s.environment.files.makeDirs dir).2 } } :=
      ⟨FileTree.extends_makeChain _, fun _ => id, fun _ => .inl⟩
    refine Safely.bindExcept (safely_transfer grown ?_)
    dsimp only
    split
    · rename_i kind failed
      refine ⟨grown, (fun done => by cases done), fun e same missing firm => ?_⟩
      cases same
      exact FileTree.makeDirs_found firm (Prod.ext failed rfl) (missing_fileError.1 missing)
    · rename_i done
      have has := FileTree.hasDir_makeDirs (Prod.ext done rfl)
      have remembered : Grows s { s with
          own := { s.own with made := s.own.made ++ [dir] }
          environment :=
            { s.environment with files := (s.environment.files.makeDirs dir).2 } } := by
        refine ⟨grown.files, fun _ => id, fun other there => ?_⟩
        rcases List.mem_append.1 there with before | own
        · exact .inl before
        · rw [List.mem_singleton.1 own]
          exact .inr has
      exact safely_changeOutput remembered
        ⟨remembered, fun _ => .inl has, fun e failed => by cases failed⟩

theorem safely_outputRoot (s : Site Output) (settings : FileStoreSettings) :
    (outputRoot settings).run.Safely (Grows s) (fun r t => Grows s t ∧
      (∀ dir, r = .ok dir → t.own.dir = some dir) ∧
      ∀ e, r = .error e → e.missing = true → Homeless settings s) s := by
  refine Safely.bindExcept (safely_look (.refl s) ?_)
  dsimp only
  split
  · rename_i dir known
    refine ⟨.refl s, fun other same => ?_, fun e failed => by cases failed⟩
    cases same
    exact known
  · rename_i unknown
    cases made : s.environment.files.makeTempDir settings.tempParent settings.tempPrefix with
    | error kind =>
        refine Safely.bindExcept (safely_access ?_ ?_)
        · rw [made]
          exact .refl s
        · rw [made]
          refine ⟨.refl s, (fun _ same => by cases same), fun e same missing => ⟨unknown, ?_⟩⟩
          cases same
          rw [missing_fileError.1 missing] at made
          exact FileTree.makeTempDir_found made
    | ok found =>
        obtain ⟨dir, files⟩ := found
        have extends_ := FileTree.extends_makeTempDir made
        have has := FileTree.hasDir_makeTempDir made
        refine Safely.bindExcept (safely_access ?_ ?_)
        · rw [made]
          exact ⟨extends_, fun _ => id, fun _ => .inl⟩
        · rw [made]
          have grown : Grows s { s with
              own := { dir := some dir, made := s.own.made ++ [dir] }
              environment := { s.environment with files := files } } := by
            refine ⟨extends_, fun other same => ?_, fun other there => ?_⟩
            · rw [unknown] at same
              cases same
            · rcases List.mem_append.1 there with before | own
              · exact .inl before
              · rw [List.mem_singleton.1 own]
                exact .inr has
          refine Safely.bindExcept (safely_changeOutput grown ?_)
          refine ⟨grown, fun other same => ?_, fun e failed => by cases failed⟩
          cases same
          rfl

theorem safely_readText (s : Site Output) (path : Path) (target : String) :
    (readText path target).run.Safely (· = s) (fun r t => t = s ∧ ∀ text, r = .ok (some text) ↔
      s.environment.files.readText path = .ok text) s := by
  refine Safely.bindExcept (safely_transfer rfl ?_)
  cases read : s.environment.files.readText path with
  | ok own =>
      refine ⟨rfl, fun text => ?_⟩
      constructor <;>
      · rintro ⟨⟩
        rfl
  | error kind =>
      have unread {r : Except StoreError (Option String)} (none : ∀ text, r ≠ .ok (some text)) :
          s = s ∧ ∀ text, r = .ok (some text) ↔
            (.error kind : Except FileErrorKind String) = .ok text :=
        ⟨rfl, fun text => iff_of_false (none text) fun found => by cases found⟩
      dsimp only
      split
      · cases ‹_›
      · exact unread fun text found => by cases found
      · exact unread fun text found => by cases found

/-! ## Writing files -/

/-- Directories have been made, and then a file may have been written at a path. -/
def Puts (path : Path) (s t : Site Output) : Prop :=
  Grows s t ∨ ∃ u bytes, Grows s u ∧
    u.environment.files.write path bytes = .ok t.environment.files ∧ t.own = u.own

theorem Grows.puts (h : Grows s t) : Puts path s t := .inl h

theorem Puts.of_grows (h : Grows s t) (h' : Puts path t u) : Puts path s u := by
  rcases h' with grown | ⟨v, bytes, grown, written, own⟩
  · exact .inl (h.trans grown)
  · exact .inr ⟨v, bytes, h.trans grown, written, own⟩

/-- A link is at a path. -/
def LinkAt (path : Path) (s : Site Output) : Prop :=
  ∃ place target, s.environment.files.entryAt path false = .ok (place, .link target)

/-- Nothing is in the place of a file because the directory above it is lost. -/
def Cut (path : Path) (s : Site Output) : Prop := ∃ above, path.parent? = some above ∧ Lost s above

theorem Cut.of_grows (h : Grows s t) (cut : Cut path t) : Cut path s := by
  obtain ⟨above, nearest, lost⟩ := cut
  exact ⟨above, nearest, lost.of_grows h⟩

/-- A write that finds a directory missing is cut off, or a link is in the place of its file. -/
theorem safely_writeText (s : Site Output) (path : Path) (target text : String) :
    (writeText path target text).run.Safely (Puts path s) (fun r t => Puts path s t ∧
      ∀ e, r = .error e → e.missing = true →
        (∃ front name, FileTree.steps path = front ++ [.normal name]) →
          Cut path s ∨ LinkAt path t) s := by
  unfold writeText
  extract_lets write
  -- From where the directory of the file has been provided.
  have puts {t : Site Output} (grown : Grows s t)
      (provided : ∀ above, path.parent? = some above →
        t.environment.files.HasDir above ∨ Lost s above) :
      (write ()).run.Safely (Puts path s) (fun r u => Puts path s u ∧
        ∀ e, r = .error e → e.missing = true →
          (∃ front name, FileTree.steps path = front ++ [.normal name]) →
            Cut path s ∨ LinkAt path u) t := by
    cases written : t.environment.files.write path text.toUTF8.toList with
    | ok files =>
        have put : Puts path s { t with environment := { t.environment with files := files } } :=
          .inr ⟨t, _, grown, written, rfl⟩
        refine Safely.bindExcept (safely_transfer ?_ ?_)
        · rw [written]
          exact put
        · rw [written]
          exact ⟨put, fun e failed => by cases failed⟩
    | error kind =>
        refine Safely.bindExcept (safely_transfer ?_ ?_)
        · rw [written]
          exact grown.puts
        · rw [written]
          refine ⟨grown.puts, ?_⟩
          rintro e same missing ⟨front, name, steps⟩
          cases same
          rw [missing_fileError.1 missing] at written
          obtain ⟨above, nearest, -, is⟩ := FileTree.above_of_steps steps
          rcases provided above nearest with has | lost
          · exact .inr (has.write_found is written)
          · exact .inl ⟨above, nearest, lost⟩
  split
  · rename_i none
    exact puts (.refl s) fun above nearest => by cases none.symm.trans nearest
  · rename_i dir nearest
    refine Safely.bindExcept ((safely_provideDir s dir).mono Grows.puts ?_)
    rintro (e | _) t ⟨grown, provided, found⟩
    · refine ⟨grown.puts, ?_⟩
      rintro e' same missing -
      cases same
      exact absurd (Path.parent_spec nearest).1 (found e rfl missing)
    · refine puts grown fun above nearest' => ?_
      cases nearest.symm.trans nearest'
      exact provided rfl

/-- What a write of an artifact builds: directories, and at most the file of its key. -/
def Writes (f : Sources) (address : Address) (space : KeySpace) (s t : Site Output) : Prop :=
  Grows s t ∨ ∃ key dir, address.key f.resolver space = .ok key ∧ t.own.dir = some dir ∧
    Puts (dir.join (relativePath key)) s t

/-- Why a write of an artifact finds a directory missing. -/
def Excused (f : Sources) (address : Address) (space : KeySpace) (s t : Site Output) : Prop :=
  Homeless f.settings s ∨ ∃ key dir, address.key f.resolver space = .ok key ∧
    t.own.dir = some dir ∧ (outputNames key = [] ∨ Cut (dir.join (relativePath key)) s ∨
      LinkAt (dir.join (relativePath key)) t)

theorem Grows.overlay (h : Grows s t) (overlay : Overlay) :
    Grows s { t with overlay := overlay } := ⟨h.files, h.dir, h.made⟩

/-- The overlay is no part of the medium. -/
theorem Writes.overlay {f : Sources} {address : Address} {space : KeySpace}
    (h : Writes f address space s t) (overlay : Overlay) :
    Writes f address space s { t with overlay := overlay } := by
  rcases h with grown | ⟨key, dir, keyed, known, grown | put⟩
  · exact .inl (grown.overlay overlay)
  · exact .inr ⟨key, dir, keyed, known, .inl (grown.overlay overlay)⟩
  · exact .inr ⟨key, dir, keyed, known, .inr put⟩

theorem Puts.dir_eq (h : Puts path s t) (known : s.own.dir = some dir) :
    t.own.dir = some dir := by
  rcases h with grown | ⟨u, bytes, grown, -, own⟩
  · exact grown.dir dir known
  · rw [own]
    exact grown.dir dir known

variable {f : Sources} {address : Address} {space : KeySpace} {key : String} {token : Token}

/-- The steps that both kinds of writes have in common. What follows changes the overlay alone. -/
theorem safely_write {operation text : String} (s : Site Output) (keep : Unit → Filing α)
    (keyed : address.key f.resolver space = .ok key)
    (keeps : ∀ (t : Site Output) (inv : Site Output → Prop),
      (∀ overlay, inv { t with overlay := overlay }) →
        (keep ()).run.Safely inv (fun r u => (∀ e, r ≠ .error e) ∧ inv u) t) :
    (do
      let dir ← outputRoot f.settings
      Storing.within token operation (writeText (dir.join (relativePath key)) key text)
      keep () : Filing α).run.Safely (Writes f address space s) (fun r t =>
        Writes f address space s t ∧
        ∀ e, r = .error e → e.missing = true → Excused f address space s t) s := by
  refine Safely.bindExcept ((safely_outputRoot s f.settings).mono .inl ?_)
  rintro (e | dir) t ⟨grown, known, found⟩
  · refine ⟨.inl grown, fun e' same missing => .inl ?_⟩
    cases same
    exact found e rfl missing
  have known : t.own.dir = some dir := known dir rfl
  have writes {u : Site Output} (puts : Puts (dir.join (relativePath key)) t u) :
      Writes f address space s u :=
    .inr ⟨key, dir, keyed, puts.dir_eq known, puts.of_grows grown⟩
  -- All that counts of the path is that it ends in a name.
  have ends (named : outputNames key ≠ []) := steps_outputPath dir named
  dsimp only
  generalize joined : dir.join (relativePath key) = path at writes ends ⊢
  refine Safely.bindExcept (Safely.within (writes (Grows.refl t).puts) ?_
    ((safely_writeText t _ _ _).mono writes ?_))
  · intro r u puts early
    cases r with
    | ok done =>
        refine (keeps u _ fun overlay => puts.overlay overlay).mono id ?_
        rintro r v ⟨fine, puts⟩
        exact ⟨puts, fun e failed => absurd failed (fine e)⟩
    | error e =>
        refine ⟨puts, fun e' same missing => ?_⟩
        cases same
        cases (missing_of_early early).symm.trans missing
  · rintro (e | done) u ⟨puts, found⟩
    · refine ⟨writes puts, fun e' same missing => ?_⟩
      cases same
      by_cases named : outputNames key = []
      · exact .inr ⟨key, dir, keyed, puts.dir_eq known, .inl named⟩
      · have why := found e rfl missing (ends named)
        exact .inr ⟨key, dir, keyed, puts.dir_eq known,
          .inr (joined ▸ why.imp_left fun cut => cut.of_grows grown)⟩
    · refine (keeps u _ fun overlay => (writes puts).overlay overlay).mono id ?_
      rintro r v ⟨fine, puts⟩
      exact ⟨puts, fun e failed => absurd failed (fine e)⟩

theorem safely_writeContent (s : Site Output) (content : Content) :
    ((files f).writeContent address content token).run.Safely (Writes f address .content s)
      (fun r t => Writes f address .content s t ∧
        ∀ e, r = .error e → e.missing = true → Excused f address .content s t) s := by
  cases keyed : address.key f.resolver .content with
  | error e =>
      refine Safely.bindExcept ?_
      rw [keyed]
      refine safely_misnaming ⟨.inl (.refl s), ?_⟩
      rintro _ ⟨⟩ ⟨⟩
  | ok key =>
      refine Safely.bindExcept ?_
      rw [keyed]
      refine safely_naming ?_
      refine safely_write s (fun _ => Storing.keepContent (writtenRecord address key content))
        keyed fun t inv holds => ?_
      exact safely_keepContent (holds _) ⟨(fun e failed => by cases failed), holds _⟩

theorem safely_writeCode (s : Site Output) (renderer : Renderer) :
    ((files f).writeCode address renderer token).run.Safely (Writes f address .code s)
      (fun r t => Writes f address .code s t ∧
        ∀ e, r = .error e → e.missing = true → Excused f address .code s t) s := by
  cases keyed : address.key f.resolver .code with
  | error e =>
      refine Safely.bindExcept ?_
      rw [keyed]
      refine safely_misnaming ⟨.inl (.refl s), ?_⟩
      rintro _ ⟨⟩ ⟨⟩
  | ok key =>
      refine Safely.bindExcept ?_
      rw [keyed]
      refine safely_naming ?_
      dsimp only
      cases renderer.source with
      | none =>
          have same : Writes f address .code s
              { s with overlay := s.overlay.putCode ⟨key, address.name, renderer⟩ } :=
            Writes.overlay (.inl (.refl s)) _
          exact safely_keepCode same ⟨same, fun e failed => by cases failed⟩
      | some source =>
          refine safely_write s (fun _ => Storing.keepCode ⟨key, address.name, renderer⟩) keyed
            fun t inv holds => ?_
          exact safely_keepCode (holds _) ⟨(fun e failed => by cases failed), holds _⟩

/-! ## Operations that only make directories -/

/-- An operation that does nothing to its medium but make directories. -/
def Building (x : Filing α) : Prop := ∀ s, x.run.Safely (Grows s) (fun _ t => Grows s t) s

section

variable {x : Filing α} {g : α → Filing β}

theorem building_ofExcept (r : Except StoreError α) : Building (Storing.ofExcept r) :=
  fun s => .refl s

theorem Building.bind (h : Building x) (h' : ∀ v, Building (g v)) : Building (x >>= g) := by
  intro s
  refine Safely.bindExcept ((h s).mono id ?_)
  rintro (e | v) t grown
  · exact grown
  · exact (h' v t).mono grown.trans grown.trans

theorem Building.map {g : α → β} (h : Building x) : Building (g <$> x) :=
  fun s => Safely.mapExcept id (h s)

theorem Building.within {token : Token} {operation : String} (h : Building x) :
    Building (Storing.within token operation x) :=
  fun s => Safely.within (.refl s) (fun _ _ grown _ => grown) (h s)

theorem building_look (look : FileTree → α) : Building (transfer fun t => (look t, t)) :=
  fun s => safely_transfer (.refl s) (.refl s)

theorem building_gets (look : Site Output → α) : Building (Storing.gets look) :=
  fun s => ⟨.refl s, .refl s⟩

theorem building_keepContent (record : ContentRecord) :
    Building (Storing.keepContent record) :=
  fun s => safely_keepContent ((Grows.refl s).overlay _) ((Grows.refl s).overlay _)

theorem building_provideDir (dir : Path) : Building (provideDir dir) :=
  fun s => (safely_provideDir s dir).mono id (·.1)

theorem building_outputRoot (settings : FileStoreSettings) : Building (outputRoot settings) :=
  fun s => (safely_outputRoot s settings).mono id (·.1)

theorem Building.mapM {g : α → Filing β} {l : List α} (each : ∀ x ∈ l, Building (g x)) :
    Building (l.mapM g) := by
  intro s
  refine ((Safely.mapMExcept (fun x there u grown => ?_) (.refl s)).kept (.refl s)).mono id (·.1)
  exact (each x there u).mono grown.trans fun _ => trivial

end

theorem building_readText (path : Path) (target : String) : Building (readText path target) := by
  refine (building_look fun t => t.readText path).bind fun found => ?_
  split <;> exact building_ofExcept _

theorem building_readContent : Building ((files f).readContent address token) := by
  refine (building_ofExcept _).bind fun key => (building_gets _).bind fun overlay => ?_
  split
  · exact building_ofExcept _
  · refine ((building_readText _ _).bind fun source => ?_).within
    split
    · exact building_ofExcept _
    · exact (building_keepContent _).map

theorem building_readCode : Building ((files f).readCode address token) := by
  refine (building_ofExcept _).bind fun key => (building_gets _).bind fun overlay => ?_
  split
  · exact building_ofExcept _
  · refine (building_gets _).bind fun output => ?_
    split
    · exact building_ofExcept _
    · exact ((building_readText _ _).bind fun text => building_ofExcept _).within

theorem building_provideDirs (relative : List Path) : Building (provideDirs f relative) :=
  (building_outputRoot _).bind fun root => (building_provideDir root).bind fun _ =>
    (Building.mapM fun _ _ => (building_provideDir _).bind fun _ => building_ofExcept _).bind
      fun _ => building_ofExcept _

theorem building_layOut : Building (layOut f token) :=
  ((building_look _).bind fun _ => (building_provideDirs _).bind fun _ =>
    (building_ofExcept _).bind fun _ => building_ofExcept _).within

theorem building_readSource (path : Path) : Building (readSource f path token) := by
  unfold readSource
  split
  · exact building_ofExcept _
  · refine Building.bind (Building.within ((building_look _).bind fun status => ?_))
      fun source => ?_
    · split
      · exact building_readText _ _
      all_goals exact building_ofExcept _
    · split
      · exact building_ofExcept _
      · extract_lets extension keep
        have keeps (v : Unit) : Building (keep v) :=
          (building_ofExcept _).bind fun _ => (building_keepContent _).map
        split
        · exact keeps ()
        · split
          · exact keeps ()
          · exact (building_outputRoot _).bind fun root => (building_provideDir _).bind keeps

/-- A sweep makes directories, and nothing else. -/
theorem safely_scan (s : Site Output) :
    (scan f token).Safely (Grows s) (fun _ t => Grows s t) s := by
  have swept : Building (do
      let found ← Storing.within token "filesystem scan" (walk f)
      let _ ← provideDirs f found.directories
      let loaded ← Storing.within token "filesystem scan"
        (Storing.always (found.files.mapM fun path => (readSource f path token).run))
      return (found, loaded)) := by
    refine (building_look _).within.bind fun found => (building_provideDirs _).bind fun _ =>
      Building.bind (Building.within fun u => ?_) fun _ => building_ofExcept _
    refine safely_lift ((Safely.mapM (fun path _ v grown => ?_) (.refl u)).kept (.refl u) |>.mono id
      (·.1))
    exact (building_readSource path v).mono grown.trans fun _ => trivial
  refine Safely.bind ((swept s).mono id ?_)
  rintro (e | ⟨found, loaded⟩) t grown <;> exact grown

/-! ## Removing files -/

theorem files_removeOne {remove : Remover} {results : List (Except StoreError String)}
    {files : FileTree} {p : Path} :
    (removeOne remove results files p).2 = (remove files p).2 := by
  unfold removeOne
  split <;> rename_i removed <;> rw [removed]

/-- Removals one after the other keep what each one keeps. -/
theorem safely_removeAll {remove : Remover} (keeps : FileTree → Prop) (paths : List Path)
    (each : ∀ p ∈ paths, ∀ files, keeps files → keeps (remove files p).2)
    (start : keeps s.environment.files) :
    (removeAll remove paths).run.Safely
      (fun t => t.own = s.own ∧ keeps t.environment.files)
      (fun _ t => t.own = s.own ∧ keeps t.environment.files) s := by
  have removed {next : List (Except StoreError String) × FileTree → Path →
        List (Except StoreError String) × FileTree}
      (one : ∀ results files p, next (results, files) p = removeOne remove results files p) :
      keeps (paths.foldl next ([], s.environment.files)).2 :=
    List.foldlRecOn (motive := fun x => keeps x.2) paths next start
      fun (results, files) holds p there => by
        rw [one, files_removeOne]
        exact each p there files holds
  refine Safely.bindExcept (safely_access ⟨rfl, removed fun _ _ _ => rfl⟩ ?_)
  dsimp only
  split <;> exact ⟨rfl, removed fun _ _ _ => rfl⟩

/-- An unregistration keeps what the removal of each of its files keeps. -/
theorem safely_unregister {name : String} (s : Site Output) (keeps : FileTree → Prop)
    (start : keeps s.environment.files)
    (each : ∀ dir key files left, s.own.dir = some dir →
      s.overlay.ListsContent f.resolver name key ∨ s.overlay.ListsCode f.resolver name key →
      files.removeFile (dir.join (relativePath key)) = .ok left → keeps files → keeps left) :
    ((files f).unregister name token).run.Safely
      (fun t => t.own = s.own ∧ keeps t.environment.files)
      (fun _ t => t.own = s.own ∧ keeps t.environment.files) s := by
  refine Safely.bindExcept ⟨⟨rfl, start⟩, ?_⟩
  refine Safely.bindExcept ⟨⟨rfl, start⟩, ?_⟩
  dsimp only
  refine Safely.bindExcept ?_
  cases content : f.resolver.resolve name .content none none with
  | error e => exact safely_misnaming ⟨rfl, start⟩
  | ok contentKey =>
  refine safely_naming (Safely.bindExcept ?_)
  cases code : f.resolver.resolve name .code none none with
  | error e => exact safely_misnaming ⟨rfl, start⟩
  | ok codeKey =>
  refine safely_naming (Safely.bindExcept (safely_look ⟨rfl, start⟩ ?_))
  dsimp only
  split
  · exact ⟨rfl, start⟩
  · rename_i dir known
    refine Safely.within ⟨rfl, start⟩ (fun _ _ kept _ => kept) ?_
    refine safely_removeAll (s := { s with overlay := s.overlay.eraseName name }) keeps _ ?_ start
    intro p there files holds
    obtain ⟨key, listed, rfl⟩ := mem_namePaths content code there
    cases removed : files.removeFile (dir.join (relativePath key)) with
    | error kind => exact holds
    | ok left => exact each dir key files left known listed removed holds

end Store.Files
end TemplateCache
