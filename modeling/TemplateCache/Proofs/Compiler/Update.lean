import TemplateCache.Proofs.Compiler.Backing
import TemplateCache.Proofs.Store.Sources

/-!
# Source files that changed

A compiler over source files takes note of a change when it scans them or when a path that it
watches has settled. Either way it registers what it has read under the key of the file alone, so it
is the code key that belongs to this key that the change reaches, and the plain one of the name. A
key with parameters leads to the same file, but no update reaches the renderers under it.
-/

namespace TemplateCache

open Job Store

variable {π α : Type}

/-- The calls that take note of source files. -/
def Command.Updates (command : Command) : Prop :=
  command = .scan ∨ ∃ path token, command = .settle path token

/-- The files that an update reads. -/
def Command.sources (s : Sources) (t : FileTree) : Command → List Path
  | .scan => (Walk.below t s.settings.sourceDir).files
  | .settle path _ => [path]
  | _ => []

/-- A code key that belongs to the key of a file or to its name alone. -/
def Store.Sources.Reaches (s : Sources) (path : Path) (codeKey : String) : Prop :=
  ∃ name, s.nameOf path = some name ∧
    ((∃ key, s.keyOf name path = .ok key ∧ s.resolver.codeKeyOf key = codeKey) ∨
      s.resolver.resolve name .code none none = .ok codeKey)

namespace Bench

/-- What an update does to the bench: it registers what it has read, or removes the name of a file
that is not there any more. -/
inductive Updated (s : Sources) (t : FileTree) (paths : List Path) (b : Bench π) :
    Bench π → Prop where
  | registered {b' : Bench π} (same : b'.state = b.state) (records : List ContentRecord)
      (read : ∀ record ∈ records, ∃ path ∈ paths, s.Delivers t path record) :
      Updated s t paths b
        (records.foldl (fun b record => (Bench.register s.resolver record b).2) b')
  | removed {b' : Bench π} (same : b'.state = b.state) (name : String) :
      Updated s t paths b (eraseName s.resolver name b')

theorem Updated.nothing {s : Sources} {t : FileTree} {paths : List Path} (b : Bench π) :
    Updated s t paths b b :=
  .registered rfl [] fun _ none => absurd none List.not_mem_nil

/-- What the store does leaves alone what the compiler remembers. -/
theorem alone_storing {job : Job (Site π) α} {ok : α → Site π → Prop} {b : Bench π}
    (h : job.Alone ok b.site) :
    (job.on sitePart).Alone (fun x d => d.state = b.state ∧ ok x d.site) b := by
  suffices frame : ∀ {d : Bench π}, d.state = b.state → job.Alone ok d.site →
      (job.on sitePart).Alone (fun x d => d.state = b.state ∧ ok x d.site) d from frame rfl h
  clear h
  induction job with
  | done x => exact fun same fine => ⟨same, fine⟩
  | act update next ih => exact fun {d} same fine => ih d.site same fine
  | wait event next ih =>
      exact fun same fine => ⟨ih same fine.1, fun clock => ih same (fine.2 clock)⟩
  | pause next ih => exact fun same fine => ih same fine

end Bench

section

variable {c : Compiler Output} {s : Sources} {b : Bench Output}

theorem alone_scan (store : c.store = .files s) :
    c.scan.run.Alone (fun _ => Bench.Updated s b.site.environment.files
      (Command.sources s b.site.environment.files .scan) b) b := by
  have found (token : Token) (d : Bench Output) (same : d.state = b.state)
      (files : d.site.environment.files = b.site.environment.files) :
      (Job.on Bench.sitePart (c.store.scan token)).Alone (fun discovery u => u.state = b.state ∧
        ∀ record ∈ discovery.found,
          ∃ path ∈ Command.sources s b.site.environment.files .scan,
            s.Delivers b.site.environment.files path record) d := by
    have scanned := Bench.alone_storing (Files.alone_scan s token d.site)
    rw [files, same] at scanned
    rw [store]
    exact scanned
  refine Alone.bindExcept (alone_lift ?_)
  refine Alone.bindExcept (alone_lift ?_)
  refine (found _ (Bench.newToken c.settings b).2 rfl rfl).mono fun {discovery u} fine => ?_
  show Bench.Updated _ _ _ _ (discovery.found.foldl
    (fun b record => (Bench.register c.store.resolver record b).2) u)
  rw [store]
  exact .registered fine.1 _ fine.2

theorem alone_eventAt (store : c.store = .files s) (path : Path) (token : Token) :
    (c.eventAt path token).run.Alone (fun r d => d.state = b.state ∧ ∀ record,
      r = .ok (some (.updated record)) → s.Delivers b.site.environment.files path record) b := by
  have read : (Job.on Bench.sitePart (c.store.readSource path token).run).Alone
      (fun r d => d.state = b.state ∧ ∀ record, r = .ok (some record) →
        s.Delivers b.site.environment.files path record) b := by
    have reads := Files.yields_readSource (t := b.site.environment.files) s path token
    have found : (Files.readSource s path token).run.Alone (fun r _ => ∀ record,
        r = .ok (some record) → s.Delivers b.site.environment.files path record) b.site :=
      (Under.alone (fun _ _ => id) reads (.refl _)).mono fun fine record same =>
        fine.2 _ same record rfl
    rw [store]
    exact Bench.alone_storing found
  have removes (name : String) {u : Bench Output} (same : u.state = b.state) :
      (do let _ ← Compiling.storing (c.store.unregister name token)
          return some (.removed name) : Compiling Output (Option PathChange)).run.Alone
        (fun r d => d.state = b.state ∧ ∀ record, r = .ok (some (.updated record)) →
          s.Delivers b.site.environment.files path record) u := by
    have any : (c.store.unregister name token).run.Alone (fun _ _ => True) u.site :=
      alone_any _ fun _ _ => trivial
    refine Alone.bindExcept (alone_lift ((Bench.alone_storing any).mono fun fine => ?_))
    exact ⟨fine.1.trans same, nofun⟩
  unfold Compiler.eventAt
  split
  · exact ⟨rfl, nofun⟩
  · refine Alone.bindExcept (alone_lift ?_)
    show Alone _ (if _ then _ else _ : Compiling Output (Option PathChange)).run b
    split
    · exact ⟨rfl, nofun⟩
    · refine Alone.bindExcept (alone_lift (read.mono fun {r u} fine => ?_))
      rcases r with e | (_ | record)
      · exact removes _ fine.1
      · exact removes _ fine.1
      · refine ⟨fine.1, ?_⟩
        rintro _ ⟨⟩
        exact fine.2 record rfl

theorem alone_settle (store : c.store = .files s) (path : Path) (token : Token) :
    (c.settlePath path token).run.Alone (fun _ => Bench.Updated s b.site.environment.files
      [path] b) b := by
  refine Alone.bindExcept (alone_lift ?_)
  show Alone _ (if _ then _ else _ : Compiling Output Unit).run b
  split
  · exact .nothing b
  · refine Alone.bindExcept ((alone_eventAt store path token).mono fun {r u} fine => ?_)
    rcases r with e | (_ | (record | name))
    · exact .registered fine.1 [] fun _ none => absurd none List.not_mem_nil
    · exact .registered fine.1 [] fun _ none => absurd none List.not_mem_nil
    · show Bench.Updated _ _ _ _ (if _ then _ else _)
      split
      · exact .registered fine.1 [] fun _ none => absurd none List.not_mem_nil
      · rw [Compiler.apply, store]
        refine .registered fine.1 [record] fun other listed => ?_
        rw [List.mem_singleton.1 listed]
        exact ⟨path, List.mem_singleton_self _, fine.2 record rfl⟩
    · show Bench.Updated _ _ _ _ (if _ then _ else _)
      split
      · exact .registered fine.1 [] fun _ none => absurd none List.not_mem_nil
      · rw [Compiler.apply, store]
        exact .removed fine.1 name

theorem alone_update (store : c.store = .files s) {command : Command} (updates : command.Updates) :
    (command.work c).run.Alone (fun _ => Bench.Updated s b.site.environment.files
      (command.sources s b.site.environment.files) b) b := by
  rcases updates with rfl | ⟨path, token, rfl⟩
  · exact (alone_scan store).mapExcept
  · exact (alone_settle store path token).mapExcept

end

/-! ## What an update reaches -/

namespace Bench

variable {b d : Bench π} {resolver : Resolver} {k codeKey : String} {r record : ContentRecord}
  {records : List ContentRecord} {s : Sources} {t : FileTree} {paths : List Path}

/-- After a registration, a record that was not there before has the content that was given, and
the code key of its own key is stale. -/
theorem kept_or_registered
    (there : (register resolver record b).2.state.registry.byKey.get? k = some r) :
    b.state.registry.byKey.get? k = some r ∨ (record.key = k ∧ r.content = record.content ∧
      (register resolver record b).2.state.cache.isStale (resolver.codeKeyOf k) = true) := by
  cases changed : (b.state.registry.register record).1.2.changed with
  | false =>
      rw [register_unchanged changed, Registry.register_unchanged changed] at there
      exact .inl there
  | true =>
      obtain ⟨overridden, stored, registry⟩ := Registry.register_changed changed
      have entered :
          (b.state.registry.insert { record with overridden := overridden }).byKey.get? k =
            some r := by
        rw [← registry, ← there, register_changed changed, registry_invalidate]
        rfl
      unfold Registry.insert at entered
      rw [KeyMap.get?_insert] at entered
      split at entered
      · rename_i own
        cases entered
        refine .inr ⟨own.symm, rfl, ?_⟩
        rw [register_changed changed, cache_invalidate, stored, own]
        exact CodeCache.isStale_invalidate own_mem_codeKeys
      · exact .inl entered

theorem kept_or_registeredAll
    (there : (records.foldl (fun b record => (register resolver record b).2)
      b).state.registry.byKey.get? k = some r) :
    b.state.registry.byKey.get? k = some r ∨
      (∃ record ∈ records, record.key = k ∧ r.content = record.content) ∧
        (records.foldl (fun b record => (register resolver record b).2)
          b).state.cache.isStale (resolver.codeKeyOf k) = true := by
  induction records generalizing b with
  | nil => exact .inl there
  | cons record rest ih =>
      rcases ih there with first | ⟨⟨later, listed, fine⟩, stale⟩
      · rcases kept_or_registered first with kept | ⟨own, content, stale⟩
        · exact .inl kept
        -- What the first record has made stale stays so when the others are registered.
        · refine .inr ⟨⟨record, List.mem_cons_self, own, content⟩, ?_⟩
          exact (Chore.registerAll rest).wanes.stale stale
      · exact .inr ⟨⟨later, List.mem_cons_of_mem _ listed, fine⟩, stale⟩

theorem cached_register (apart : codeKey ∉ codeKeys resolver record) :
    (register resolver record b).2.state.cache.get? codeKey = b.state.cache.get? codeKey := by
  cases changed : (b.state.registry.register record).1.2.changed with
  | false => rw [register_unchanged changed]; rfl
  | true =>
      obtain ⟨overridden, stored, -⟩ := Registry.register_changed changed
      have apart : codeKey ∉ codeKeys resolver { record with overridden := overridden } := apart
      rw [register_changed changed, cache_invalidate, stored, CodeCache.get?_invalidate,
        if_neg apart]
      rfl

theorem cached_registerAll (apart : ∀ record ∈ records, codeKey ∉ codeKeys resolver record) :
    (records.foldl (fun b record => (register resolver record b).2) b).state.cache.get? codeKey =
      b.state.cache.get? codeKey := by
  induction records generalizing b with
  | nil => rfl
  | cons record rest ih =>
      obtain ⟨first, later⟩ := List.forall_mem_cons.1 apart
      exact (ih later).trans (cached_register first)

end Bench

section

variable {c : Compiler Output} {s : Sources} {site : Site Output} {b d : Bench Output}
  {command : Command} {answer : Except CompileError Answer} {k : String} {r : ContentRecord}

/-- An update that puts a record under a key has read it from a file with this key, and leaves
nothing that was made of other content where the key has its code. -/
theorem Bench.Updated.delivers {t : FileTree} {paths : List Path} (updated : b.Updated s t paths d)
    (there : d.state.registry.byKey.get? k = some r)
    (changes : b.state.registry.byKey.get? k ≠ some r) :
    ∃ path ∈ paths, s.Supplies path k ∧
      (∀ text, t.readText path = .ok text → r.content = .ofSource text path.extension?) ∧
      d.state.cache.isStale (s.resolver.codeKeyOf k) = true := by
  cases updated with
  | @registered b' same records read =>
      rcases Bench.kept_or_registeredAll there with kept | ⟨⟨record, listed, own, content⟩, stale⟩
      · rw [same] at kept
        exact absurd kept changes
      · obtain ⟨path, walked, delivers⟩ := read record listed
        subst own
        refine ⟨path, walked, ⟨record.name, delivers.named, delivers.keyed⟩, fun text there => ?_,
          stale⟩
        rw [content]
        exact delivers.text there
  -- A removal leaves no record that was not there before.
  | @removed b' same name =>
      rw [Bench.registry_eraseName] at there
      unfold Registry.remove at there
      rw [KeyMap.get?_filter, Option.filter_eq_some_iff, same] at there
      exact absurd there.1 changes

/-- It keeps the renderers under all keys that do not belong to the files that it has read. -/
theorem Bench.Updated.misses {t : FileTree} {paths : List Path} (updated : b.Updated s t paths d)
    (there : d.state.registry.byKey.get? k = some r)
    (changes : b.state.registry.byKey.get? k ≠ some r) {codeKey : String}
    (apart : ∀ path ∈ paths, ¬s.Reaches path codeKey) :
    d.state.cache.get? codeKey = b.state.cache.get? codeKey := by
  cases updated with
  | @registered b' same records read =>
      rw [← same]
      refine Bench.cached_registerAll fun record listed reached => ?_
      obtain ⟨path, walked, delivers⟩ := read record listed
      refine apart path walked ⟨record.name, delivers.named, ?_⟩
      exact (Bench.mem_codeKeys reached).imp_left fun own => ⟨record.key, delivers.keyed, own⟩
  | @removed b' same name =>
      rw [Bench.registry_eraseName] at there
      unfold Registry.remove at there
      rw [KeyMap.get?_filter, Option.filter_eq_some_iff, same] at there
      exact absurd there.1 changes

/-- Calls that do not bring content of their own for a key, and leave the record under it. -/
def Command.Spares (resolver : Resolver) (k : String) (command : Command) (b d : Bench π) : Prop :=
  (∀ input, command = .compile input → input.address.key resolver .content = .ok k →
    input.content = none) ∧
  d.state.registry.byKey.get? k = b.state.registry.byKey.get? k

theorem Command.Spares.suits {resolver : Resolver} {b d : Bench π} (whole : '?' ∉ k.toList)
    (plain : '?' ∉ resolver.rules.codeSuffix.toList) (spares : command.Spares resolver k b d) :
    command.Suits resolver k (resolver.codeKeyOf k) := by
  intro input compiles coded
  have key : input.address.key resolver .content = .ok k :=
    Resolver.content_of_code whole plain coded
  exact ⟨spares.1 input compiles key, key⟩

/-- Let an update put a record under a key. It was read from a file with this key, and until the
record changes, whatever compiles content of the key returns a renderer of the text of that file.
But where the files have no code keys of their own, renderers stay, and they are what a compile
returns. -/
theorem updated_source_is_compiled (store : c.store = .files s) (keyed : site.Keyed)
    (whole : '?' ∉ k.toList) (plain : '?' ∉ s.resolver.rules.codeSuffix.toList)
    (before : c.Serial (fun _ _ _ => True) (Compiler.start site) b) (updates : command.Updates)
    (ends : (command.work c).run.finish b = some (answer, d))
    (there : d.state.registry.byKey.get? k = some r)
    (changes : b.state.registry.byKey.get? k ≠ some r) :
    (∃ path ∈ command.sources s b.site.environment.files, s.Supplies path k ∧
      ∀ text, b.site.environment.files.readText path = .ok text →
      ∀ {e f : Bench Output} {input : CompileInput} {record : CodeRecord},
        c.Serial (Command.Spares s.resolver k) d e → input.content = none →
        input.address.key s.resolver .content = .ok k →
        c.Does (.compile input) e (.ok (.code record)) f →
        c.MadeFrom (.ofSource text path.extension?) record) ∧
    ∀ {codeKey : String} {old : CodeRecord} {address : Address},
      c.settings.caching = true → b.state.cache.get? codeKey = some old →
      (∀ path ∈ command.sources s b.site.environment.files, ¬s.Reaches path codeKey) →
      address.key s.resolver .code = .ok codeKey →
      c.Does (.compile ⟨address, none⟩) d (.ok (.code old)) d := by
  have lawful : c.store.Lawful := by
    rw [store]
    exact Store.files_lawful s
  have resolver : c.store.resolver = s.resolver := by rw [store]; rfl
  have rested : d.Resting := (Compiler.does_of_finish ends).resting lawful
    (before.resting lawful (Bench.resting_start keyed))
  have updated := (alone_update store updates).finish ends
  obtain ⟨path, walked, supplies, delivers, stale⟩ := updated.delivers there changes
  refine ⟨⟨path, walked, supplies, fun text reads e f input record after bare key compiles => ?_⟩,
    fun {codeKey old address} caching cached apart coded => ?_⟩
  -- The record backs its key from the update on, as nothing made of other content is left there.
  · have backs : d.Backs c (.ofSource text path.extension?) k (c.store.resolver.codeKeyOf k) := by
      rw [resolver]
      exact ⟨⟨r, there, delivers text reads⟩, fun _ => .inl stale⟩
    rw [← resolver] at plain key after
    have kept := after.backs lawful rested backs (fun spares => spares.suits whole plain)
      fun spares => spares.2
    have coded := Resolver.code_of_content whole key
    exact (compiles.drawn lawful (after.resting lawful rested) kept bare coded key).2.2 record rfl
  · have stays : d.state.cache.get? codeKey = some old :=
      (updated.misses there changes apart).trans cached
    rw [← resolver] at coded
    exact Compiler.does_cached caching coded stays

end

namespace Sample

/-- A source tree with one file. -/
def page (text : String) : FileTree :=
  { entries := .ofPairs [("/in", .directory), ("/in/partials", .directory),
      ("/in/partials/a.html", .file text.toUTF8.toList)] }

def path : Path := ⟨"/in/partials/a.html"⟩

def origin : Sources := ⟨{ sourceDir := ⟨"/in"⟩, outputDir := some ⟨"/out"⟩ }, resolver, none⟩

def mirror : Compiler Output := compiler (Store.files origin) .read

/-- The name of the file, for French. -/
def french : Address := ⟨"a", none, some (KeyMap.insert ∅ "lang" "fr")⟩

def opened : Site Output :=
  { own := { dir := some ⟨"/out"⟩ }, environment := { files := page "old" } }

theorem opened_keyed : opened.Keyed := fun _ _ => nofun

/-- The bench that a call leaves. -/
def after (command : Command) (b : Bench Output) : Bench Output :=
  (((command.work mirror).run.finish b).map (·.2)).getD b

/-- Someone has changed the file after it was compiled for French. -/
def edited : Bench Output :=
  let b := after (.compile ⟨french, none⟩) (Compiler.start opened)
  { b with site := { b.site with
    environment := { b.site.environment with files := page "new" } } }

def scanned : Bench Output := after .scan edited

theorem ends_after (command : Command) (b : Bench Output)
    (ends : ((command.work mirror).run.finish b).isSome = true) :
    ∃ answer, (command.work mirror).run.finish b = some (answer, after command b) := by
  obtain ⟨⟨answer, d⟩, ends⟩ := Option.isSome_iff_exists.1 ends
  refine ⟨answer, ?_⟩
  unfold after
  rw [ends]
  rfl

/-- Files may change between calls. -/
theorem changed_serial {start b : Bench Output}
    (called : mirror.Serial (fun _ _ _ => True) start b) (files : FileTree) :
    mirror.Serial (fun _ _ _ => True) start { b with site := { b.site with
      environment := { b.site.environment with files := files } } } :=
  .elsewhere called ⟨rfl, rfl⟩

theorem edited_serial : mirror.Serial (fun _ _ _ => True) (Compiler.start opened) edited := by
  obtain ⟨answer, ends⟩ :=
    ends_after (.compile ⟨french, none⟩) (Compiler.start opened) (by decide +kernel)
  exact changed_serial (.call .refl (Compiler.does_of_finish ends) trivial) _

/-- The scan registers the new text, the renderer for French is the old one, and the plain name can
be compiled. -/
theorem scanned_spec :
    ((Command.work mirror .scan).run.finish edited).isSome = true ∧
      (scanned.state.registry.byKey.get? "partials/a.html").map (·.content.asText) = some "new" ∧
      (scanned.state.cache.get? "partials/a.html.compiled?lang=fr").map (·.renderer.source) =
        some (some "old") ∧
      ((Command.work mirror (.compile ⟨⟨"a", none, none⟩, none⟩)).run.finish scanned).any
        (fun (answer, _) =>
          match answer with
          | .ok (.code _) => true
          | _ => false) = true := by
  decide +kernel

end Sample

open Sample

/-- The plain name has the key of the file. -/
theorem edited_source_is_compiled :
    ∃ record f, mirror.Does (.compile ⟨⟨"a", none, none⟩, none⟩) scanned (.ok (.code record)) f ∧
      mirror.MadeFrom (.ofSource "new" (some "html")) record := by
  obtain ⟨scans, text, -, returns⟩ := scanned_spec
  obtain ⟨record, f, compiles⟩ := Compiler.exists_does returns
  obtain ⟨answer, ends⟩ := ends_after .scan edited scans
  obtain ⟨r, there, -⟩ := Option.map_eq_some_iff.1 text
  have new : edited.state.registry.byKey.get? "partials/a.html" = none :=
    Option.isNone_iff_eq_none.1 (by decide +kernel)
  obtain ⟨⟨read, walked, -, compiled⟩, -⟩ := updated_source_is_compiled rfl opened_keyed
    (by decide +kernel) (by decide +kernel) edited_serial (.inl rfl) ends there
    (by rw [new]; exact (Option.some_ne_none r).symm)
  have only : Command.sources origin edited.site.environment.files .scan = [path] := by
    decide +kernel
  rw [only, List.mem_singleton] at walked
  subst walked
  exact ⟨record, f, compiles, compiled "new" (by decide +kernel) .refl rfl rfl compiles⟩

/-- The name with parameters leads to the same file, but not to its new text. -/
theorem parameters_are_missed :
    edited.site.environment.files.readText path = .ok "new" ∧
      (scanned.state.registry.byKey.get? "partials/a.html").map (·.content.asText) = some "new" ∧
      french.key resolver .content = .ok "partials/a.html?lang=fr" ∧
      (origin.fileOf "partials/a.html?lang=fr").same path = true ∧
      ∃ record, mirror.Does (.compile ⟨french, none⟩) scanned (.ok (.code record)) scanned ∧
        ¬mirror.MadeFrom (.ofSource "new" (some "html")) record := by
  obtain ⟨-, text, cached, -⟩ := scanned_spec
  refine ⟨by decide +kernel, text, by decide +kernel, by decide +kernel, ?_⟩
  obtain ⟨record, cached, old⟩ := Option.map_eq_some_iff.1 cached
  refine ⟨record, Compiler.does_cached rfl (by decide +kernel) cached, fun made => ?_⟩
  replace made : some (some "new") = some record.renderer.source :=
    congrArg (Option.map Renderer.source) (congrArg Except.toOption made)
  rw [old] at made
  exact absurd made (by decide)

end TemplateCache
