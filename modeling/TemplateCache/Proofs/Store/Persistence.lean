import TemplateCache.Proofs.Files.Ways
import TemplateCache.Proofs.Json.Text
import TemplateCache.Proofs.Store.Scan
import TemplateCache.Proofs.Store.Variants

/-!
# Code that lasts

Code that one store has written, another one reads back from the same medium: a document of an
engine, or a file of an output directory, around which a module format may be. What is put around
the source is taken off again, once, so a source that looks like it comes back as well.
-/

namespace TemplateCache

open Job

/-! ## Module formats -/

namespace ModuleFormat

theorem withoutFront_append (front rest : List Char) : withoutFront front (front ++ rest) = rest := by
  unfold withoutFront
  have found : front.isPrefixOf? (front ++ rest) = some rest := by
    induction front with
    | nil => rfl
    | cons c front ih => simp [List.isPrefixOf?, ih]
  rw [found, Option.getD_some]

theorem unwrap_wrap (format : ModuleFormat) (source : String) :
    format.unwrap (format.wrap source) = source := by
  unfold unwrap wrap
  dsimp only
  rw [String.toList_append, String.toList_append, List.append_assoc, withoutFront_append,
    List.reverse_append, withoutFront_append, List.reverse_reverse, String.ofList_toList]

end ModuleFormat

theorem FileTree.readText_write {t u : FileTree} {p : Path} {text : String}
    (written : t.write p text.toUTF8.toList = .ok u) : u.readText p = .ok text := by
  have decoded : String.fromUTF8? ⟨text.toUTF8.toList.toArray⟩ = some text :=
    Text.ofBytes_bytes text
  unfold readText
  rw [read_write written]
  dsimp only [Bind.bind, Except.bind]
  rw [decoded]

/-! ## Media -/

/-- How code lies in a medium. -/
structure CodeMedium (π : Type) where
  View : Type
  /-- What a site sees under a key. -/
  view : String → Site π → View
  /-- What it sees of code that has been written. -/
  code : (name source : String) → View
  /-- What others leave alone wherever code is being written. -/
  keeps : Site π → Site π → Prop

/-- Others leave the code of a name alone, once it is there. -/
structure CodeMedium.Spares {π : Type} (m : CodeMedium π) (key name source : String)
    (s t : Site π) : Prop where
  keeps : m.keeps s t
  stays : m.view key s = m.code name source → m.view key t = m.code name source

namespace Store

variable {π : Type}

theorem runs_naming {α : Type} {named : Except NameError α} {v : α}
    {others : Site π → Site π → Prop} {s t : Site π}
    (runs : (Storing.naming named : Storing π α).run.Runs others s (.ok v) t) :
    named = .ok v ∧ t = s := by
  cases named with
  | error e => cases runs
  | ok v =>
      cases runs
      exact ⟨rfl, rfl⟩

/-- Code that one store has written, another store reads back that sees the same under its key and
does not have the key in its overlay. It finds nothing else, however both are interleaved with others
that leave the code alone, and it does find it where nothing keeps it from reading. -/
def ReadsBack (writer reader : Store π) (m : CodeMedium π) (ready : Token → Site π → Prop) : Prop :=
  ∀ {s t fresh : Site π} {address : Address} {renderer : Renderer} {source : String}
    {token token' : Token} {written : CodeRecord},
    renderer.source = some source →
    (writer.writeCode address renderer token).run.Runs (m.Spares written.key address.name source)
      s (.ok written) t →
    address.key reader.resolver .code = address.key writer.resolver .code →
    m.view written.key fresh = m.view written.key t →
    fresh.overlay.code.get? written.key = none →
    address.key writer.resolver .code = .ok written.key ∧
      (∀ {found u}, (reader.readCode address token').run.Runs
          (m.Spares written.key address.name source) fresh (.ok found) u →
        found = some (.text written.key address.name source)) ∧
      (ready token' fresh → (reader.readCode address token').run.Ends
        (fun r _ => r = .ok (some (.text written.key address.name source))) fresh)

/-! ## Documents -/

namespace KeyValue

variable {resolver : Resolver} {pageSize : Nat} {s : Site Written} {token : Token}

def codeMedium : CodeMedium Written where
  View := Option (List UInt8)
  view key s := document .code key s
  code name source := some (codeDocument name source).toUTF8.toList
  keeps _ _ := True

theorem ensures_writeCode (address : Address) {renderer : Renderer} {source : String}
    (sourced : renderer.source = some source) :
    ((keyValue resolver pageSize).writeCode address renderer token).run.Ensures Any (fun r t =>
      ∀ written, r = .ok written → address.key resolver .code = .ok written.key ∧
        codeMedium.view written.key t = codeMedium.code address.name source) s := by
  cases named : address.key resolver .code with
  | error e =>
      refine Storing.ensures_bind ?_
      rw [named]
      exact fun written => nofun
  | ok key =>
      refine Storing.ensures_bind (Storing.ensures_naming named ?_)
      dsimp only
      rw [sourced]
      refine Storing.ensures_bind ((Ensures.within (fun _ => trivial) (fun _ _ => nofun)
        (ensures_put .code key (codeDocument address.name source))).mono id ?_)
      rintro (e | ⟨⟩) t there
      · exact fun written => nofun
      refine Storing.ensures_bind ⟨trivial, trivial, ?_⟩
      rintro written ⟨⟩
      exact ⟨rfl, there rfl⟩

theorem ends_readCode_written {fresh : Site Written} {address : Address} {key source : String}
    (keyed : address.key resolver .code = .ok key)
    (there : codeMedium.view key fresh = codeMedium.code address.name source)
    (unread : fresh.overlay.code.get? key = none) (ready : Ready token fresh) :
    ((keyValue resolver pageSize).readCode address token).run.Ends
      (fun r _ => r = .ok (some (.text key address.name source))) fresh := by
  refine Ends.bindExcept ⟨_, _, rfl, ?_⟩
  rw [keyed]
  refine Ends.bindExcept ⟨_, _, rfl, ?_⟩
  dsimp only
  rw [unread]
  refine Ends.bindExcept (ends_within_delayed ready (fun _ => trivial) fun now => ?_)
  refine ⟨_, _, finish_get .code key (s := moment fresh now) ready.faultless, ?_⟩
  replace there : document .code key (moment fresh now) =
    some (codeDocument address.name source).toUTF8.toList := there
  rw [there]
  unfold decoded
  dsimp only
  rw [storedCode_document]
  exact ends_done rfl

theorem runs_get {others : Site Written → Site Written → Prop} {t : Site Written}
    {collection : Collection} {key : String} {bytes : Option (List UInt8)}
    (runs : (get collection key).run.Runs others s (.ok bytes) t) :
    bytes = document collection key s := by
  cases runs with
  | act runs =>
      cases fault : s.environment.engine.fault? .get collection.name key with
      | some error =>
          dsimp only [Engine.attempt] at runs
          rw [fault] at runs
          cases runs
      | none =>
          dsimp only [Engine.attempt] at runs
          rw [fault] at runs
          cases runs
          rfl

theorem runs_readCode_written {fresh t : Site Written} {address : Address} {key source : String}
    {found : Option StoredCode} (keyed : address.key resolver .code = .ok key)
    (there : codeMedium.view key fresh = codeMedium.code address.name source)
    (unread : fresh.overlay.code.get? key = none)
    (runs : ((keyValue resolver pageSize).readCode address token).run.Runs
      (codeMedium.Spares key address.name source) fresh (.ok found) t) :
    found = some (.text key address.name source) := by
  have delays : Yields (fun s => codeMedium.view key s = codeMedium.code address.name source)
      (fun _ => True) engineDelay :=
    Yields.seq (yields_lift fun s there => ⟨there, trivial⟩) fun _ =>
      yields_lift fun s there => ⟨there, trivial⟩
  obtain ⟨key', u, resolved, rest⟩ := runs.of_bindOk
  obtain ⟨named, rfl⟩ := runs_naming resolved
  cases named.symm.trans keyed
  obtain ⟨o, u, looked, rest⟩ := rest.of_bindOk
  cases looked with
  | act looked =>
      cases looked
      dsimp only [id] at rest
      rw [unread] at rest
      obtain ⟨bytes, v, got, rest⟩ := rest.of_bindOk
      obtain ⟨_, w, slept, got⟩ := got.of_withinOk.of_bindOk
      replace there := (Under.runs delays slept (fun spares => spares.stays) there).1
      rw [runs_get got, show document .code key w = _ from there] at rest
      unfold decoded codeMedium at rest
      dsimp only at rest
      rw [storedCode_document] at rest
      cases rest
      rfl

theorem readsBack (resolver resolver' : Resolver) (pageSize pageSize' : Nat) :
    (keyValue resolver pageSize).ReadsBack (keyValue resolver' pageSize') codeMedium Ready := by
  intro s t fresh address renderer source token token' written sourced writes same sees unread
  obtain ⟨named, there⟩ := ((ensures_writeCode address sourced).runs (fun _ => True) writes
    (fun _ _ => trivial) (fun _ _ => trivial) trivial).2 written rfl
  have named' := same.trans named
  have there' := sees.trans there
  exact ⟨named, runs_readCode_written named' there' unread,
    ends_readCode_written named' there' unread⟩

end KeyValue

/-! ## Files -/

namespace Files

variable {others : Site Output → Site Output → Prop} {s t fresh : Site Output} {dir path : Path}
  {target text : String} {token : Token}

/-- Code is in a file of the output directory, in a module format. Others do not move the
directory. -/
def codeMedium (format : ModuleFormat) : CodeMedium Output where
  View := Option (Except FileErrorKind String)
  view key s := s.own.dir.map fun dir => s.environment.files.readText (dir.join (relativePath key))
  code _ source := some (.ok (format.wrap source))
  keeps s t := ∀ dir, s.own.dir = some dir → t.own.dir = some dir

theorem view_codeMedium {format : ModuleFormat} (key : String) (known : s.own.dir = some dir) :
    (codeMedium format).view key s =
      some (s.environment.files.readText (dir.join (relativePath key))) :=
  congrArg (Option.map _) known

theorem runs_outputRoot {settings : FileStoreSettings}
    (runs : (outputRoot settings).run.Runs others s (.ok dir) t) : t.own.dir = some dir := by
  obtain ⟨o, u, looked, rest⟩ := runs.of_bindOk
  cases looked with
  | act looked =>
      cases looked
      split at rest
      · rename_i known
        cases rest
        exact known
      · obtain ⟨made, v, -, rest⟩ := rest.of_bindOk
        split at rest
        · cases rest
        · obtain ⟨_, w, moved, rest⟩ := rest.of_bindOk
          cases rest
          cases moved with
          | act moved =>
              cases moved
              rfl

theorem runs_transfer {α : Type} {f : FileTree → α × FileTree} {r : Except StoreError α}
    (runs : (transfer f).run.Runs others s r t) :
    r = .ok (f s.environment.files).1 ∧ others
      { s with environment := { s.environment with files := (f s.environment.files).2 } } t := by
  cases runs with
  | act rest =>
      cases rest with
      | pause changed rest =>
          cases rest
          exact ⟨rfl, changed⟩

/-- Making directories does not move the output directory. -/
theorem under_provideDir : Yields (fun s : Site Output => s.own.dir = some dir) (fun _ => True)
    (provideDir path) := by
  have keeps {α : Type} {f : Site Output → α × Site Output}
      (same : ∀ s, (f s).2.own.dir = s.own.dir) :
      Yields (fun s : Site Output => s.own.dir = some dir) (fun _ => True)
        (Storing.always (Job.modifyGet f)) :=
    yields_lift fun s known => ⟨(same s).trans known, trivial⟩
  have looks : Yields (fun s : Site Output => s.own.dir = some dir) (fun _ => True) output :=
    yields_lift fun s known => ⟨known, trivial⟩
  refine looks.seq fun o => ?_
  split
  · exact yields_pure trivial
  · refine Yields.seq (Yields.seq (keeps fun _ => rfl) fun _ =>
      Yields.seq (yields_lift trivial) fun _ => yields_pure trivial) fun made => ?_
    split
    · exact yields_throw _
    · exact yields_lift fun s known => ⟨known, trivial⟩

/-- A file that was written without an error holds its text as long as others leave it alone. -/
theorem runs_writeText (runs : (writeText path target text).run.Runs others s (.ok ()) t)
    (keeps : ∀ {u v}, others u v → u.own.dir = some dir → v.own.dir = some dir)
    (spares : ∀ {u v}, others u v → u.own.dir = some dir →
      u.environment.files.readText path = .ok text → v.environment.files.readText path = .ok text)
    (known : s.own.dir = some dir) :
    t.own.dir = some dir ∧ t.environment.files.readText path = .ok text := by
  unfold writeText at runs
  extract_lets write at runs
  have puts {u : Site Output} (known : u.own.dir = some dir)
      (runs : (write ()).run.Runs others u (.ok ()) t) :
      t.own.dir = some dir ∧ t.environment.files.readText path = .ok text := by
    obtain ⟨r, v, puts, ends⟩ := runs.of_bindOk
    obtain ⟨written, changed⟩ := runs_transfer puts
    cases wrote : u.environment.files.write path text.toUTF8.toList with
    | error kind =>
        rw [wrote] at written
        cases written
        cases ends
    | ok files =>
        rw [wrote] at written changed
        cases written
        cases ends
        exact ⟨keeps changed known, spares changed known (FileTree.readText_write wrote)⟩
  split at runs
  · exact puts known runs
  · obtain ⟨_, u, provided, rest⟩ := runs.of_bindOk
    exact puts (Under.runs under_provideDir provided keeps known).1 rest

/-- Code that was written without an error is there. -/
theorem runs_writeCode {f : Sources} {address : Address} {renderer : Renderer} {source : String}
    {written : CodeRecord} (sourced : renderer.source = some source)
    (runs : ((files f).writeCode address renderer token).run.Runs
      ((codeMedium f.settings.moduleFormat).Spares written.key address.name source) s
      (.ok written) t) :
    address.key f.resolver .code = .ok written.key ∧
      (codeMedium f.settings.moduleFormat).view written.key t =
        (codeMedium f.settings.moduleFormat).code address.name source := by
  generalize others : (codeMedium f.settings.moduleFormat).Spares written.key address.name source =
    spares at runs
  obtain ⟨key, u, resolved, rest⟩ := runs.of_bindOk
  obtain ⟨named, rfl⟩ := runs_naming resolved
  rw [sourced] at rest
  obtain ⟨dir, v, rooted, rest⟩ := rest.of_bindOk
  obtain ⟨_, w, wrote, kept⟩ := rest.of_bindOk
  cases kept with
  | act kept =>
      cases kept
      subst others
      have stays {u v : Site Output}
          (spares : (codeMedium f.settings.moduleFormat).Spares key address.name source u v)
          (known : u.own.dir = some dir)
          (there : u.environment.files.readText (dir.join (relativePath key)) =
            .ok (f.settings.moduleFormat.wrap source)) :
          v.environment.files.readText (dir.join (relativePath key)) =
            .ok (f.settings.moduleFormat.wrap source) := by
        have seen := spares.stays ((view_codeMedium key known).trans (congrArg some there))
        rw [view_codeMedium key (spares.keeps dir known)] at seen
        exact Option.some.inj seen
      obtain ⟨known, there⟩ := runs_writeText wrote.of_withinOk (fun spares => spares.keeps dir)
        stays (runs_outputRoot rooted)
      exact ⟨named, (view_codeMedium key known).trans (congrArg some there)⟩

theorem ends_readCode_written {f : Sources} {address : Address} {key source : String}
    (keyed : address.key f.resolver .code = .ok key)
    (there : (codeMedium f.settings.moduleFormat).view key fresh =
      (codeMedium f.settings.moduleFormat).code address.name source)
    (unread : fresh.overlay.code.get? key = none) (lets : Lets token fresh) :
    ((files f).readCode address token).run.Ends
      (fun r _ => r = .ok (some (.text key address.name source))) fresh := by
  obtain ⟨dir, known, there⟩ := Option.map_eq_some_iff.1 there
  refine Ends.bindExcept ⟨_, _, rfl, ?_⟩
  rw [keyed]
  refine Ends.bindExcept ⟨_, _, rfl, ?_⟩
  dsimp only
  rw [unread]
  refine Ends.bindExcept ⟨_, _, rfl, ?_⟩
  dsimp only [id]
  rw [known]
  refine (Prompt.within lets ?_).ends
  refine Prompt.bindExcept (Prompt.bindExcept (prompt_transfer ?_))
  rw [there]
  show Except.ok (some (StoredCode.text key address.name
    (f.settings.moduleFormat.unwrap (f.settings.moduleFormat.wrap source)))) = _
  rw [ModuleFormat.unwrap_wrap]

theorem runs_readCode_written {f : Sources} {address : Address} {key source : String}
    {found : Option StoredCode} (keyed : address.key f.resolver .code = .ok key)
    (there : (codeMedium f.settings.moduleFormat).view key fresh =
      (codeMedium f.settings.moduleFormat).code address.name source)
    (unread : fresh.overlay.code.get? key = none)
    (runs : ((files f).readCode address token).run.Runs others fresh (.ok found) t) :
    found = some (.text key address.name source) := by
  obtain ⟨dir, known, there⟩ := Option.map_eq_some_iff.1 there
  obtain ⟨key', u, resolved, rest⟩ := runs.of_bindOk
  obtain ⟨named, rfl⟩ := runs_naming resolved
  cases named.symm.trans keyed
  obtain ⟨o, u, looked, rest⟩ := rest.of_bindOk
  cases looked with
  | act looked =>
      cases looked
      dsimp only [id] at rest
      rw [unread] at rest
      obtain ⟨o, u, looked, rest⟩ := rest.of_bindOk
      cases looked with
      | act looked =>
          cases looked
          dsimp only [id] at rest
          rw [known] at rest
          obtain ⟨text, v, read, rest⟩ := rest.of_withinOk.of_bindOk
          obtain ⟨r, w, moved, read⟩ := read.of_bindOk
          obtain ⟨same, -⟩ := runs_transfer moved
          rw [there] at same
          cases same
          cases read
          cases rest
          rw [Option.map_some, ModuleFormat.unwrap_wrap]

theorem readsBack (f f' : Sources) (same : f'.settings.moduleFormat = f.settings.moduleFormat) :
    (files f).ReadsBack (files f') (codeMedium f.settings.moduleFormat) Lets := by
  intro s t fresh address renderer source token token' written sourced writes alike sees unread
  obtain ⟨named, there⟩ := runs_writeCode sourced writes
  have named' := alike.trans named
  have there' := sees.trans there
  rw [← same] at there' ⊢
  exact ⟨named, runs_readCode_written named' there' unread,
    ends_readCode_written named' there' unread⟩

end Files
end Store

/-- Code comes back as it was written, from an engine and from an output directory. -/
theorem Store.written_code_is_read (resolver resolver' : Resolver) (pageSize pageSize' : Nat)
    (f f' : Sources) (same : f'.settings.moduleFormat = f.settings.moduleFormat) :
    (keyValue resolver pageSize).ReadsBack (keyValue resolver' pageSize') KeyValue.codeMedium
        KeyValue.Ready ∧
      (files f).ReadsBack (files f') (Files.codeMedium f.settings.moduleFormat) Lets :=
  ⟨KeyValue.readsBack resolver resolver' pageSize pageSize', Files.readsBack f f' same⟩

namespace Sample

/-- A source that looks like what a module format makes of another one. -/
def exported : Renderer := ⟨some "export default x;\n", fun _ _ => .ok ""⟩

def about : Address := { name := "about" }

def modules : Store.Sources where
  settings := { sourceDir := ⟨"/src"⟩, outputDir := some ⟨"/out"⟩, moduleFormat := .esm }
  resolver := ⟨.standard, none⟩
  canonicalDir := none

end Sample

open Sample

/-- What a write that runs alone leaves, if it succeeds. -/
theorem writes_alone {π : Type} {store : Store π} {m : CodeMedium π} {address : Address}
    {renderer : Renderer} {source : String} {token : Token} {s : Site π} {fine : Site π → Bool}
    (keeps : ∀ clock (s : Site π), m.keeps s (Clocked.setClock clock s) ∧
      ∀ key, m.view key (Clocked.setClock clock s) = m.view key s)
    (ends : ((store.writeCode address renderer token).run.finish s).any
      (fun (r, t) => r.isOk && fine t) = true) :
    ∃ written t, (store.writeCode address renderer token).run.Runs
      (m.Spares written.key address.name source) s (.ok written) t ∧ fine t = true := by
  obtain ⟨⟨r, t⟩, ends, succeeds⟩ := (Option.any_eq_true _ _).1 ends
  cases r with
  | error e => cases succeeds
  | ok written =>
      refine ⟨written, t, runs_alone (fun _ => rfl) (fun _ _ => rfl) ends |>.mono ?_, succeeds⟩
      rintro u v ⟨clock, rfl⟩
      obtain ⟨kept, same⟩ := keeps clock u
      exact ⟨kept, fun there => (same written.key).trans there⟩

/-- A source that is wrapped once more is unwrapped only once. -/
theorem Store.exports_are_read :
    (∃ written t, ((keyValue ⟨.standard, none⟩ 100).writeCode about exported ⟨[0], none⟩).run.Runs
        (KeyValue.codeMedium.Spares written.key about.name "export default x;\n") { own := [] }
        (.ok written) t ∧
      ((keyValue ⟨.standard, none⟩ 1).readCode about ⟨[1], none⟩).run.Ends
        (fun r _ => r = .ok (some (.text written.key "about" "export default x;\n")))
        { own := [], environment := t.environment }) ∧
    ∃ written t, ((files modules).writeCode about exported ⟨[0], none⟩).run.Runs
        ((Files.codeMedium modules.settings.moduleFormat).Spares written.key about.name
          "export default x;\n") { own := { dir := some ⟨"/out"⟩ } } (.ok written) t ∧
      ((files modules).readCode about ⟨[1], none⟩).run.Ends
        (fun r _ => r = .ok (some (.text written.key "about" "export default x;\n")))
        { own := { dir := some ⟨"/out"⟩ }, environment := t.environment } := by
  have lasts := written_code_is_read ⟨.standard, none⟩ ⟨.standard, none⟩ 100 1 modules modules rfl
  constructor
  · have writes : ∃ written t, ((keyValue ⟨.standard, none⟩ 100).writeCode about exported
        ⟨[0], none⟩).run.Runs
          (KeyValue.codeMedium.Spares written.key about.name "export default x;\n") { own := [] }
          (.ok written) t ∧
          (t.environment.engine.faults.isEmpty && t.environment.clock.cancelled.isEmpty) = true := by
      refine writes_alone ?_ ?_
      · intro clock s
        exact ⟨trivial, fun _ => rfl⟩
      · decide +kernel
    obtain ⟨written, t, writes, fine⟩ := writes
    rw [Bool.and_eq_true, List.isEmpty_iff, List.isEmpty_iff] at fine
    let reader : Site Written := { own := [], environment := t.environment }
    have sees : KeyValue.codeMedium.view written.key reader =
      KeyValue.codeMedium.view written.key t := rfl
    have ready : KeyValue.Ready ⟨[1], none⟩ reader := by
      refine ⟨fine.1, ?_, nofun⟩
      show [1].any t.environment.clock.cancelled.contains = false
      rw [fine.2]
      rfl
    exact ⟨written, t, writes, (lasts.1 rfl writes rfl sees rfl).2.2 ready⟩
  · have writes : ∃ written t, ((files modules).writeCode about exported ⟨[0], none⟩).run.Runs
        ((Files.codeMedium modules.settings.moduleFormat).Spares written.key about.name
          "export default x;\n") { own := { dir := some ⟨"/out"⟩ } } (.ok written) t ∧
        (decide (t.own.dir = some ⟨"/out"⟩) && t.environment.clock.cancelled.isEmpty) = true := by
      refine writes_alone ?_ ?_
      · intro clock s
        exact ⟨fun _ => id, fun _ => rfl⟩
      · decide +kernel
    obtain ⟨written, t, writes, fine⟩ := writes
    rw [Bool.and_eq_true, decide_eq_true_eq, List.isEmpty_iff] at fine
    let reader : Site Output := { own := { dir := some ⟨"/out"⟩ }, environment := t.environment }
    have sees : (Files.codeMedium modules.settings.moduleFormat).view written.key reader =
        (Files.codeMedium modules.settings.moduleFormat).view written.key t := by
      rw [Files.view_codeMedium written.key fine.1, Files.view_codeMedium written.key rfl]
    have lets : Lets ⟨[1], none⟩ reader := by
      refine ⟨?_, rfl⟩
      show [1].any t.environment.clock.cancelled.contains = false
      rw [fine.2]
      rfl
    exact ⟨written, t, writes, (lasts.2 rfl writes rfl sees rfl).2.2 lets⟩

end TemplateCache
