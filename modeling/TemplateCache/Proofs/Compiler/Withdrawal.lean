import Mathlib.Data.List.Sort
import TemplateCache.Proofs.Compiler.Records
import TemplateCache.Proofs.Compiler.Settling
import TemplateCache.Proofs.Job.Single

/-!
# What the removal of a source file takes away

A watch removes what it does not find any more by its name, with all variants that the registry
lists under it. Whatever else has been registered stays, however the task that settles the path is
interleaved with others.
-/

namespace TemplateCache

open Job Store

/-- Changes at any time are changes. -/
theorem Job.Anytime.keeps {σ α : Type} {change : σ → σ → Prop} {good : α → Prop} {job : Job σ α}
    (h : job.Anytime change good) : job.Keeps change := by
  induction job with
  | done x => exact fun _ => trivial
  | act update next ih => exact fun s => ⟨(h s).1, ih s (h s).2 _⟩
  | wait event next ih => exact fun _ t => ih h t
  | pause next ih => exact fun _ t => ih h t

/-! ## What a change is about -/

namespace Store.Sources

/-- The source file of a key is at the place that a path has in the source tree. -/
def IsAt (f : Sources) (key : String) (path : Path) : Prop :=
  ∃ relative, f.relative? path = some relative ∧
    (f.fileOf key).same (f.pathOf relative.normalNames) = true

/-- A change at a path bears upon a key: the key is that of the file there, or the registry lists it
under the name of the file. -/
def BearsUpon (f : Sources) (path : Path) (key : String) (r : Registry) : Prop :=
  ∃ name, f.nameOf path = some name ∧ (f.IsAt key path ∨ key ∈ r.keysOf name)

/-- What is found at a path is under its name and its key. -/
def Owns (f : Sources) (path : Path) : PathChange → Prop
  | .updated record => f.nameOf path = some record.name ∧ f.keyOf record.name path = .ok record.key
  | .removed name => f.nameOf path = some name

variable {f : Sources} {path : Path} {name key : String}

/-- The key of a source file leads back to it. -/
theorem isAt_of_keyOf (named : f.nameOf path = some name) (keyed : f.keyOf name path = .ok key) :
    f.IsAt key path := by
  obtain ⟨relative, key', below, own, -, same⟩ := nameOf_eq_some named
  cases own.symm.trans keyed
  exact ⟨relative, below, same⟩

end Store.Sources

/-! ## The registry -/

theorem Registry.mem_keysOf_register {r : Registry} {given : ContentRecord} {name key : String}
    (there : key ∈ (r.register given).2.keysOf name) :
    name = given.name ∧ key = given.key ∨ key ∈ r.keysOf name := by
  cases changed : (r.register given).1.2.changed with
  | false =>
      rw [register_unchanged changed] at there
      exact .inr there
  | true =>
      obtain ⟨overridden, -, registry⟩ := register_changed changed
      rw [registry] at there
      exact mem_keysOf_insert.1 there

/-- A record is there, and a change at a path is not about it. -/
structure Bench.Beyond (f : Sources) (path : Path) (key : String) (record : ContentRecord)
    (b : Bench Output) : Prop where
  has : b.Has key record
  apart : ¬f.BearsUpon path key b.state.registry

/-- All records stay that a change at a path is not about. -/
def Bench.KeepsBeyond (f : Sources) (path : Path) (b d : Bench Output) : Prop :=
  ∀ key record, b.Beyond f path key record → d.Beyond f path key record

namespace Bench

variable {f : Sources} {path : Path} {b d : Bench Output} {resolver : Resolver}

theorem keepsBeyond_of_same (same : b.SameRegistry d) : b.KeepsBeyond f path d := by
  rintro key record ⟨has, apart⟩
  refine ⟨has.of_same same, ?_⟩
  rw [show d.state.registry = b.state.registry from same]
  exact apart

theorem keepsBeyond_of_path (way : Relation.ReflTransGen (Bench.KeepsBeyond f path) b d) :
    b.KeepsBeyond f path d := by
  induction way with
  | refl => exact fun _ _ => id
  | tail _ step ih => exact fun key record beyond => step key record (ih key record beyond)

/-- Applying what was found at a path. -/
theorem keepsBeyond_apply {c : Compiler Output} {event : PathChange} (owns : f.Owns path event) :
    b.KeepsBeyond f path (c.apply event b) := by
  rintro key record ⟨has, apart⟩
  cases event with
  | updated given =>
      obtain ⟨named, keyed⟩ := owns
      have own : f.IsAt given.key path := Sources.isAt_of_keyOf named keyed
      refine ⟨has.register ?_, ?_⟩
      · rintro rfl
        exact apart ⟨given.name, named, .inl own⟩
      · rintro ⟨name, named', bears⟩
        cases named.symm.trans named'
        refine apart ⟨given.name, named, bears.imp id fun listed => ?_⟩
        replace listed : key ∈ (b.state.registry.register given).2.keysOf given.name := by
          rw [← Bench.registry_register]
          exact listed
        rcases Registry.mem_keysOf_register listed with ⟨-, rfl⟩ | before
        · exact absurd ⟨given.name, named, .inl own⟩ apart
        · exact before
  | removed name =>
      refine ⟨has.eraseName fun listed => apart ⟨name, owns, .inr listed⟩, ?_⟩
      rintro ⟨name', named', bears⟩
      cases named'.symm.trans owns
      refine apart ⟨name, owns, bears.imp id fun listed => ?_⟩
      replace listed : key ∈ (b.state.registry.remove name).2.keysOf name := by
        rw [← Bench.registry_eraseName]
        exact listed
      exact Registry.mem_keysOf_remove listed

end Bench

/-! ## Tasks -/

section

variable {c : Compiler Output} {f : Sources} {path : Path} {token : Token}

/-- What is read from a source file is under its name and its key, whatever others do. -/
theorem Store.Files.owns_readSource :
    Yields (fun _ => True) (fun found => ∀ record, found = some record →
      f.Owns path (.updated record)) (readSource f path token) := by
  have any {α : Type} (x : Filing α) : Yields (fun _ => True) (fun _ => True) x :=
    under_any.mono fun _ _ _ => trivial
  unfold readSource
  split
  · exact yields_pure fun _ => nofun
  · rename_i name named
    refine (any _).seq fun found => ?_
    split
    · exact yields_pure fun _ => nofun
    · rename_i source
      have keeps : Yields (fun _ : Site Output => True)
          (fun found => ∀ record, found = some record → f.Owns path (.updated record)) (do
            let key ← Storing.naming (f.keyOf name path)
            let extension := path.extension?
            some <$> Storing.keepContent
              (.make name key (.ofSource source extension) .discovered extension none)) := by
        have resolves : Yields (fun _ : Site Output => True) (fun key => f.keyOf name path = .ok key)
            (Storing.naming (f.keyOf name path)) := Storing.yields_naming fun _ => id
        refine resolves.bind fun key keyed => ?_
        refine (Storing.yields_modify fun _ => id).seq fun _ => yields_pure ?_
        intro record same
        cases same
        exact ⟨named, keyed⟩
      split
      · exact keeps
      · split
        · exact keeps
        · exact (any _).seq fun root => (any _).seq fun _ => keeps

/-- A store operation of a task leaves the registry alone. -/
theorem keepsBeyond_storing {α : Type} {good : Except StoreError α → Prop} {job : Storing Output α}
    (h : job.run.Under (fun _ => True) good) :
    (Compiling.storing job).run.Anytime (Bench.KeepsBeyond f path) fun r =>
      ∃ v, r = .ok v ∧ good v := by
  have works (site : Site Output) (b : Bench Output) :
      b.KeepsBeyond f path (Bench.sitePart.set site b) := Bench.keepsBeyond_of_same rfl
  exact anytime_lift ((h.anytime_on works).mono fun fine => ⟨_, rfl, fine⟩)

theorem Compiler.owns_eventAt (store : c.store = .files f) :
    (c.eventAt path token).run.Anytime (Bench.KeepsBeyond f path)
      fun r => ∀ event, r = .ok (some event) → f.Owns path event := by
  unfold Compiler.eventAt
  rw [store]
  split
  · exact fun _ => nofun
  · rename_i name named
    have looks : (Compiling.gets fun b : Bench Output => b.site.environment.files).run.Anytime
        (Bench.KeepsBeyond f path) fun _ => True :=
      anytime_lift fun b => ⟨Bench.keepsBeyond_of_same rfl, trivial⟩
    refine looks.bindExcept (fun files _ => ?_) ?_
    rotate_left
    · rintro e - event ⟨⟩
    split
    · exact fun _ => nofun
    · refine (keepsBeyond_storing Files.owns_readSource).bindExcept ?_ ?_
      rotate_left
      · rintro e - event ⟨⟩
      rintro r ⟨_, ⟨rfl⟩, owns⟩
      have removes : (do
          let _ ← Compiling.storing ((Store.files f).unregister name token)
          return some (.removed name) : Compiling Output (Option PathChange)).run.Anytime
            (Bench.KeepsBeyond f path) fun r => ∀ event, r = .ok (some event) → f.Owns path event := by
        refine (keepsBeyond_storing under_any).bindExcept ?_ ?_
        · rintro _ - _ ⟨rfl⟩
          exact named
        · rintro e - event ⟨⟩
      split
      · rename_i record
        rintro _ ⟨rfl⟩
        exact owns _ rfl record rfl
      · exact removes

/-- Whatever others do between its steps, a task that settles a path leaves all records that a
change there is not about. -/
theorem Compiler.settle_spares (store : c.store = .files f) :
    ((Command.settle path token).work c).run.Anytime (Bench.KeepsBeyond f path) fun _ => True := by
  rw [settle_job]
  refine fun b => ⟨Bench.keepsBeyond_of_same rfl, ?_⟩
  dsimp only
  split
  · trivial
  · refine Anytime.bind (owns_eventAt store) fun r owns => ?_
    rcases r with e | (_ | event)
    · trivial
    · trivial
    · refine fun b => ⟨?_, trivial⟩
      dsimp only
      split
      · exact Bench.keepsBeyond_of_same rfl
      · exact Bench.keepsBeyond_apply (owns event rfl)

end

/-! ## Sessions -/

namespace Session

variable {c : Compiler Output} {f : Sources} {s : Session Output}

/-- An event in which a task works that settles a path. -/
inductive Settles {π : Type} (path : Path) (s : Session π) : Event π → Prop where
  | made {token : Token} : Settles path s (.ask (.settle path token))
  | goes {number : Nat} {call : Call π} {token : Token} (there : s.calls[number]? = some call)
      (settles : call.command = .settle path token) : Settles path s (.turn number)

/-- What is left of the tasks that settle a path. -/
def Tasked (f : Sources) (s : Session Output) : Prop :=
  ∀ (j : Nat) (call : Call Output) (path : Path) (token : Token), s.calls[j]? = some call →
    call.command = .settle path token → call.job.Keeps (Bench.KeepsBeyond f path)

theorem tasked_start (site : Site Output) : (start site).Tasked f := by
  intro j call path token there
  simp [start] at there

theorem Tasked.step (store : c.store = .files f) (tasked : s.Tasked f) (e : Event Output) :
    (step c s e).Tasked f := by
  intro j call path token there settles
  cases e with
  | ask command =>
      rcases mem_asked there with ⟨-, there⟩ | ⟨-, rfl⟩
      · exact tasked j call path token there settles
      · cases settles
        exact ((Compiler.settle_spares store).keeps s.bench).advance.2
  | turn number =>
      cases found : s.calls[number]? with
      | none =>
          simp only [Session.step, found] at there
          exact tasked j call path token there settles
      | some before =>
          simp only [Session.step, found] at there
          rcases mem_turned there with ⟨-, there⟩ | ⟨-, rfl⟩
          · exact tasked j call path token there settles
          · exact ((tasked _ before path token found settles).unpaused s.bench).advance.2
  | elsewhere content own environment => exact tasked j call path token there settles

theorem Tasked.run (store : c.store = .files f) (tasked : s.Tasked f)
    (events : List (Event Output)) : (run c s events).Tasked f := by
  induction events generalizing s with
  | nil => exact tasked
  | cons e rest ih => exact ih (tasked.step store e)

/-- A stretch of a task that settles a path leaves all records that a change there is not about. -/
theorem Tasked.spares (store : c.store = .files f) (tasked : s.Tasked f) {path : Path}
    {e : Event Output} (settles : s.Settles path e) :
    s.bench.KeepsBeyond f path (Session.step c s e).bench := by
  cases settles with
  | made => exact Bench.keepsBeyond_of_path ((Compiler.settle_spares store).keeps s.bench).advance.1
  | @goes number call token there settles =>
      have work := (tasked number call path token there settles).unpaused
      simp only [Session.step, there]
      exact Bench.keepsBeyond_of_path (work s.bench).advance.1

/-- In every session, settling a path leaves all records as they are but those that the registry
lists under the name of the path, and that of the path itself. So a record that is gone or replaced
was so in an event that is about it. -/
theorem removal_spares_others (store : c.store = .files f) (reached : c.Reaches s) :
    (∀ path e key record, s.Settles path e → ¬f.BearsUpon path key s.bench.state.registry →
      s.bench.Has key record → (step c s e).bench.Has key record) ∧
    ∀ key record events, s.bench.Has key record → ¬(run c s events).bench.Has key record →
      ∃ before e after, events = before ++ e :: after ∧
        (run c s before).bench.Has key record ∧ ¬(run c s (before ++ [e])).bench.Has key record ∧
        (run c s before).Alters c key e ∧ ∀ path, (run c s before).Settles path e →
          f.BearsUpon path key (run c s before).bench.state.registry := by
  have tasked : s.Tasked f := by
    obtain ⟨site, events, -, rfl⟩ := reached
    exact (tasked_start site).run store events
  constructor
  · intro path e key record settles apart has
    exact (tasked.spares store settles key record ⟨has, apart⟩).has
  · intro key record events has gone
    have lawful : c.store.Lawful := by
      rw [store]
      exact files_lawful f
    obtain ⟨before, e, after, same, there, gone, alters⟩ :=
      (records_change_by_registrations lawful reached).1 key record events has gone
    refine ⟨before, e, after, same, there, gone, alters, fun path settles => ?_⟩
    by_contra apart
    refine gone ?_
    have last : run c s (before ++ [e]) = step c (run c s before) e := List.foldl_append
    rw [last]
    exact ((tasked.run store before).spares store settles key record ⟨there, apart⟩).has

end Session

namespace Sample

open Session

/-- A source tree with some files below the prefix. Each has its name as text. -/
def namesakes (names : List String) : FileTree :=
  { entries := .ofPairs ([("/in", .directory), ("/in/partials", .directory)] ++
      names.map fun name => ("/in/partials/" ++ name, .file name.toUTF8.toList)) }

def namesakeSources : Sources := ⟨{ sourceDir := ⟨"/in"⟩ }, resolver, none⟩

def variantWatch : Compiler Output := compiler (Store.files namesakeSources) .read

def variantStock : Site Output :=
  { own := { dir := some ⟨"/out"⟩ },
    environment := { files := namesakes ["a.html", "a.txt", "b.html"] } }

/-- The task of the watch that settles the path of a file. -/
def settleAt (name : String) : Event Output :=
  .ask (.settle ⟨"/in/partials/" ++ name⟩ ⟨[1], none⟩)

/-- The files are watched and have been read, and one of them is gone. -/
def withdrawn : Session Output :=
  run variantWatch (start variantStock) ([.ask .watch,
    settleAt "a.html", .turn 1, .turn 1, .turn 1, settleAt "a.txt", .turn 2, .turn 2, .turn 2,
    settleAt "b.html", .turn 3, .turn 3, .turn 3,
    .elsewhere ∅ { dir := none }
      { files := namesakes ["a.txt", "b.html"], clock := { fresh := 9 } }])

theorem withdrawn_reached : variantWatch.Reaches withdrawn :=
  ⟨variantStock, _, fun _ _ => nofun, rfl⟩

/-- The session when the task has ended that settles the path of the file. -/
def bared : Session Output := run variantWatch withdrawn [settleAt "a.html", .turn 4]

theorem withdrawn_has : ∃ variant other, withdrawn.bench.Has "partials/a.txt" variant ∧
    withdrawn.bench.Has "partials/b.html" other ∧
    "partials/b.html" ∉ withdrawn.bench.state.registry.keysOf "a" := by
  have there : (withdrawn.bench.state.registry.byKey.get? "partials/a.txt").isSome ∧
      (withdrawn.bench.state.registry.byKey.get? "partials/b.html").isSome ∧
      "partials/b.html" ∉ withdrawn.bench.state.registry.keysOf "a" := by
    decide +kernel
  obtain ⟨variant, has⟩ := Option.isSome_iff_exists.1 there.1
  obtain ⟨other, has'⟩ := Option.isSome_iff_exists.1 there.2.1
  exact ⟨variant, other, has, has', there.2.2⟩

theorem bared_of_variant : (bared.answer? 4).isSome = true ∧
    bared.bench.state.registry.byKey.get? "partials/a.txt" = none := by
  have gone : (bared.answer? 4).isSome = true ∧
      (bared.bench.state.registry.byKey.get? "partials/a.txt").isNone = true := by
    unfold bared run Session.step Command.work Compiler.settlePath Compiler.apply Bench.eraseName
    simp only [List.mergeSort_eq_insertionSort (α := String) (· ≤ ·)]
    decide +kernel
  exact ⟨gone.1, Option.isNone_iff_eq_none.1 gone.2⟩

end Sample

open Sample

namespace Session

/-- The record of a file with another name stays when the name of the missing one is removed. The
one that goes is a variant's, and it goes in the task. -/
theorem other_names_stay :
    (∃ record, withdrawn.bench.Has "partials/b.html" record ∧
      (step variantWatch withdrawn (settleAt "a.html")).bench.Has "partials/b.html" record) ∧
    ∃ before e after, [settleAt "a.html", .turn 4] = before ++ e :: after ∧
      (run variantWatch withdrawn before).Alters variantWatch "partials/a.txt" e := by
  obtain ⟨variant, other, has, has', unlisted⟩ := withdrawn_has
  have spared := removal_spares_others (c := variantWatch) rfl withdrawn_reached
  constructor
  · refine ⟨other, has', spared.1 ⟨"/in/partials/a.html"⟩ _ _ other .made ?_ has'⟩
    rintro ⟨name, named, ⟨relative, below, same⟩ | listed⟩
    · have own : namesakeSources.relative? ⟨"/in/partials/a.html"⟩ = some ⟨"partials/a.html"⟩ := by
        decide +kernel
      cases own.symm.trans below
      exact absurd same (by decide +kernel)
    · have own : namesakeSources.nameOf ⟨"/in/partials/a.html"⟩ = some "a" := by decide +kernel
      cases own.symm.trans named
      exact unlisted listed
  · obtain ⟨before, e, after, same, -, -, alters, -⟩ :=
      spared.2 "partials/a.txt" variant [settleAt "a.html", .turn 4] has fun kept =>
        nomatch kept.symm.trans bared_of_variant.2
    exact ⟨before, e, after, same, alters⟩

/-- The file of a variant is still there at its own path when the record of it goes, since the path
that was settled has the same name. -/
theorem removal_takes_variants :
    variantWatch.Reaches withdrawn ∧
      withdrawn.bench.site.environment.files.status ⟨"/in/partials/a.html"⟩ = .error .notFound ∧
      namesakeSources.fileOf "partials/a.txt" = ⟨"/in/partials/a.txt"⟩ ∧
      withdrawn.bench.site.environment.files.readText ⟨"/in/partials/a.txt"⟩ = .ok "a.txt" ∧
      (∃ record, withdrawn.bench.Has "partials/a.txt" record) ∧
      (bared.answer? 4).isSome = true ∧ ∀ record, ¬bared.bench.Has "partials/a.txt" record := by
  obtain ⟨variant, -, has, -, -⟩ := withdrawn_has
  refine ⟨withdrawn_reached, by decide +kernel, by decide +kernel, by decide +kernel,
    ⟨variant, has⟩, bared_of_variant.1, fun record kept => ?_⟩
  exact nomatch kept.symm.trans bared_of_variant.2

end Session
end TemplateCache
