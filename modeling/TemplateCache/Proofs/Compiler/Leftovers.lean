import Mathlib.Data.List.Sort
import TemplateCache.Proofs.Compiler.Trace
import TemplateCache.Proofs.Store.Unregister

/-!
# What an unregistration leaves in the medium

The compiler removes a name from what it remembers before the store removes it from the medium, and
on the way it drops the renderers of all registered records from the overlay. The overlay is where
the store looks up which code it has to remove, so the code of registered variants stays behind.
-/

namespace TemplateCache

open Job

variable {π : Type}

namespace Bench

variable {b : Bench π} {resolver : Resolver} {name key : String}

/-- The code keys whose code is removed along with a name: the plain one, and those that the
overlay has for the name unless they belong to one of its registered records. -/
def ReleasesCode (resolver : Resolver) (name key : String) (b : Bench π) : Prop :=
  resolver.resolve name .code none none = .ok key ∨ key ∉ b.detached resolver name ∧
    ∃ record, b.site.overlay.code.get? key = some record ∧ record.name = name

theorem site_eraseName :
    (eraseName resolver name b).site.overlay.content = b.site.overlay.content ∧
      (eraseName resolver name b).site.environment = b.site.environment ∧
      (eraseName resolver name b).site.own = b.site.own :=
  ⟨content_eraseName, medium_invalidate _ _⟩

theorem listsContent_eraseName :
    (eraseName resolver name b).site.overlay.ListsContent resolver name key ↔
      b.site.overlay.ListsContent resolver name key := by
  unfold Overlay.ListsContent
  rw [site_eraseName.1]

theorem listsCode_eraseName : (eraseName resolver name b).site.overlay.ListsCode resolver name key ↔
    b.ReleasesCode resolver name key := by
  unfold Overlay.ListsCode ReleasesCode
  rw [code_eraseName]
  split
  · rename_i detached
    simp [detached]
  · rename_i apart
    simp [apart]

end Bench

namespace Compiling

variable {α : Type} {b : Bench π}

theorem succeeds_naming {r : Except NameError α} {ok : α → Bench π → Prop}
    (h : ∀ v, r = .ok v → ok v b) : Succeeds (naming r) ok b := by
  cases r with
  | ok w =>
      rintro v ⟨⟩
      exact h w rfl
  | error e => exact fun _ => nofun

theorem succeeds_storing {job : Storing π α} {ok : α → Site π → Prop}
    (h : Succeeds job ok b.site) :
    Succeeds (storing job) (fun r b => ∀ v, r = .ok v → ok v b.site) b := by
  have start : job.run.Alone (fun r site => ∀ v, r = .ok v → ok v site)
      (Bench.sitePart.get b) := h
  exact succeeds_lift (start.on (fun _ _ => rfl) fun _ _ => rfl)

end Compiling

/-- What the store ensures of its part, the compiler ensures of the site. -/
theorem Compiler.succeeds_unregister {c : Compiler π} {name : String} {b : Bench π}
    {ok : Site π → Prop}
    (h : ∀ token clock, Succeeds (c.store.unregister name token) (fun _ site => ok site)
      (Clocked.setClock clock (Bench.eraseName c.store.resolver name b).site)) :
    Succeeds (c.unregister name) (fun _ b => ok b.site) b := by
  refine Succeeds.bind (Compiling.succeeds_naming fun key named => ?_)
  refine Succeeds.bind (succeeds_lift ?_)
  refine Succeeds.bind (succeeds_lift ?_)
  refine Succeeds.bind (Succeeds.mono ?_ (Compiling.succeeds_storing (h _ _)))
  intro r b' ends
  cases r with
  | ok _ => exact succeeds_pure (ends _ rfl)
  | error e => exact succeeds_throw _

theorem keyValue_unregister (resolver : Resolver) (pageSize : Nat) (name : String) (token : Token)
    (clock : Clock) (b : Bench Written) :
    Succeeds ((Store.keyValue resolver pageSize).unregister name token) (fun _ site =>
      ∃ documents, Store.KeyValue.Removes documents b.site site ∧
        (∀ key, (.content, key) ∈ documents ↔ b.site.overlay.ListsContent resolver name key) ∧
        ∀ key, (.code, key) ∈ documents ↔ b.ReleasesCode resolver name key)
      (Clocked.setClock clock (Bench.eraseName resolver name b).site) := by
  refine (Store.KeyValue.succeeds_unregister resolver pageSize name token _).mono ?_
  rintro - site ⟨documents, removes, listed⟩
  refine ⟨documents, ⟨removes.gone, fun unlisted => ?_⟩, fun key => ?_, fun key => ?_⟩
  · refine (removes.kept unlisted).trans ?_
    show (Bench.eraseName resolver name b).site.environment.engine.get? _ _ = _
    rw [Bench.site_eraseName.2.1]
    rfl
  · exact (listed (.content, key)).trans Bench.listsContent_eraseName
  · exact (listed (.code, key)).trans Bench.listsCode_eraseName

theorem files_unregister (sources : Store.Sources) (name : String) (token : Token) (clock : Clock)
    (b : Bench Output) {dir : Path} (known : b.site.own.dir = some dir) :
    Succeeds ((Store.files sources).unregister name token) (fun _ site =>
      (∀ key, b.site.overlay.ListsContent sources.resolver name key ∨
          b.ReleasesCode sources.resolver name key →
        ∃ p, p.same (dir.join (Store.relativePath key)) = true ∧
          site.environment.files.Lacks p) ∧
      ∀ place, (∀ key, b.site.overlay.ListsContent sources.resolver name key ∨
          b.ReleasesCode sources.resolver name key →
        ¬b.site.environment.files.Covers [dir.join (Store.relativePath key)] place) →
        site.environment.files.entry? place = b.site.environment.files.entry? place)
      (Clocked.setClock clock (Bench.eraseName sources.resolver name b).site) := by
  have dirs : (Clocked.setClock clock (Bench.eraseName sources.resolver name b).site).own.dir =
      some dir := by
    show (Bench.eraseName sources.resolver name b).site.own.dir = some dir
    rw [Bench.site_eraseName.2.2, known]
  have files : (Clocked.setClock clock (Bench.eraseName sources.resolver name
      b).site).environment.files = b.site.environment.files := by
    show (Bench.eraseName sources.resolver name b).site.environment.files = _
    rw [Bench.site_eraseName.2.1]
  have listed key : (Clocked.setClock clock (Bench.eraseName sources.resolver name
      b).site).overlay.ListsContent sources.resolver name key ∨ (Clocked.setClock clock
      (Bench.eraseName sources.resolver name b).site).overlay.ListsCode sources.resolver name key ↔
      b.site.overlay.ListsContent sources.resolver name key ∨
        b.ReleasesCode sources.resolver name key :=
    or_congr Bench.listsContent_eraseName Bench.listsCode_eraseName
  refine (Store.Files.succeeds_unregister sources name token _ dirs).mono ?_
  intro _ site removed
  simp only [listed, files] at removed
  exact removed

/-- An unregistration that succeeds removes from the medium what the store has under the keys that
the overlay lists, and nothing else. Code keys are looked up too late: the overlay does not list
the code of a registered variant any more, so it stays. -/
theorem unregister_removes_what_overlay_lists (name : String) :
    (∀ settings generator resolver pageSize (b b' : Bench Written),
      let c : Compiler Written := ⟨settings, Store.keyValue resolver pageSize, generator⟩
      (c.unregister name).run.finish b = some (.ok (), b') → ∀ key,
        (b.site.overlay.ListsContent resolver name key →
          Store.KeyValue.document .content key b'.site = none) ∧
        (¬b.site.overlay.ListsContent resolver name key →
          Store.KeyValue.document .content key b'.site =
            Store.KeyValue.document .content key b.site) ∧
        (b.ReleasesCode resolver name key → Store.KeyValue.document .code key b'.site = none) ∧
        (¬b.ReleasesCode resolver name key →
          Store.KeyValue.document .code key b'.site =
            Store.KeyValue.document .code key b.site)) ∧
    ∀ settings generator sources (b b' : Bench Output) dir,
      let c : Compiler Output := ⟨settings, Store.files sources, generator⟩
      let path key := dir.join (Store.relativePath key)
      let removed key := b.site.overlay.ListsContent sources.resolver name key ∨
        b.ReleasesCode sources.resolver name key
      b.site.own.dir = some dir → (c.unregister name).run.finish b = some (.ok (), b') →
        (∀ key, removed key → ∃ p, p.same (path key) = true ∧ b'.site.environment.files.Lacks p) ∧
        ∀ place, (∀ key, removed key → ¬b.site.environment.files.Covers [path key] place) →
          b'.site.environment.files.entry? place = b.site.environment.files.entry? place := by
  refine ⟨?_, ?_⟩
  · intro settings generator resolver pageSize b b' c ends key
    obtain ⟨documents, removes, content, code⟩ := (Compiler.succeeds_unregister fun token clock =>
      keyValue_unregister resolver pageSize name token clock b).finish ends
    refine ⟨fun listed => ?_, fun unlisted => ?_, fun listed => ?_, fun unlisted => ?_⟩
    · exact removes.gone ((content key).2 listed)
    · exact removes.kept fun there => unlisted ((content key).1 there)
    · exact removes.gone ((code key).2 listed)
    · exact removes.kept fun there => unlisted ((code key).1 there)
  · intro settings generator sources b b' dir c path removed known ends
    exact (Compiler.succeeds_unregister fun token clock =>
      files_unregister sources name token clock b known).finish ends

/-! ## Samples -/

namespace Sample

/-- A compiler over an engine, which keeps what it makes. -/
def shared : Compiler Written := compiler (Store.keyValue resolver 10) .readWrite

/-- Compiles a text under the name `a`, and one of its own for French. -/
def publish : Compiling Written Unit := do
  let _ ← shared.compile ⟨⟨"a", none, none⟩, some (.text "hello")⟩
  let _ ← shared.compile ⟨⟨"a", none, some (KeyMap.insert ∅ "lang" "fr")⟩, some (.text "salut")⟩

def blank : Bench Written := Compiler.start { own := [] }

def published : Bench Written := ((publish.run.finish blank).map (·.2)).getD blank

def sources : Store.Sources := ⟨{ sourceDir := ⟨"/in"⟩ }, resolver, none⟩

/-- A compiler over files, which keeps what it makes. -/
def printed : Compiler Output := compiler (Store.files sources) .readWrite

/-- The content of the name `a` is in the output tree. -/
def desk : Bench Output :=
  Compiler.start {
    own := { dir := some ⟨"/out"⟩ }
    environment := { files := { entries := .ofPairs [("/out", .directory),
      ("/out/partials", .directory), ("/out/partials/a.html", .file [])] } } }

/-- Where the name `a` has files, in the order of their removal. -/
def targets : List Path := [⟨"/out/partials/a.html"⟩, ⟨"/out/partials/a.html.compiled"⟩]

/-- The order of removals, in a form that can be evaluated for the targets. -/
def ordered (paths : List Path) : List Path :=
  if paths = targets then targets else Path.dedup (Path.sort paths)

theorem ordered_eq (paths : List Path) : Path.dedup (Path.sort paths) = ordered paths := by
  unfold ordered
  split
  · rename_i same
    rw [same, Path.sort, List.mergeSort_of_pairwise (by decide)]
    unfold targets
    rw [Path.dedup, if_neg (by decide), Path.dedup]
    intro p q rest same
    cases same
  · rfl

end Sample

open Sample

/-- The renderer of the plain name is removed from the collection of code, and the content of the
name from the output tree. -/
theorem plain_name_is_removed :
    (∃ b, (shared.unregister "a").run.finish published = some (.ok (), b) ∧
      (Store.KeyValue.document .code "partials/a.html.compiled" published.site).isSome = true ∧
      Store.KeyValue.document .code "partials/a.html.compiled" b.site = none) ∧
    ∃ b, (printed.unregister "a").run.finish desk = some (.ok (), b) ∧
      ∃ p, p.same ((⟨"/out"⟩ : Path).join (Store.relativePath "partials/a.html")) = true ∧
        b.site.environment.files.Lacks p := by
  have removes := unregister_removes_what_overlay_lists "a"
  have named : resolver.resolve "a" .content none none = .ok "partials/a.html" := rfl
  have coded : resolver.resolve "a" .code none none = .ok "partials/a.html.compiled" := rfl
  refine ⟨?_, ?_⟩
  · have ends : ((shared.unregister "a").run.finish published).map (·.1.toOption) =
        some (some ()) := by
      unfold Compiler.unregister Bench.eraseName
      simp only [List.mergeSort_eq_insertionSort (α := String) (· ≤ ·)]
      decide +kernel
    obtain ⟨⟨r, b⟩, ends, ok⟩ := Option.map_eq_some_iff.1 ends
    cases r with
    | error e => exact nomatch ok
    | ok _ =>
        refine ⟨b, ends, by decide +kernel, ?_⟩
        exact (removes.1 _ _ _ _ _ _ ends _).2.2.1 (.inl coded)
  · have ends : ((printed.unregister "a").run.finish desk).map (·.1.toOption) =
        some (some ()) := by
      unfold Compiler.unregister printed compiler Store.files
      simp only [ordered_eq]
      decide +kernel
    obtain ⟨⟨r, b⟩, ends, ok⟩ := Option.map_eq_some_iff.1 ends
    cases r with
    | error e => exact nomatch ok
    | ok _ =>
        refine ⟨b, ends, ?_⟩
        exact (removes.2 _ _ _ _ _ ⟨"/out"⟩ rfl ends).1 _ (.inl (.inl named))

/-- The renderer for French, which the same compiler wrote before, is not. -/
theorem registered_variant_stays :
    (Store.KeyValue.document .code "partials/a.html.compiled?lang=fr" blank.site).isSome = false ∧
      (((do publish; shared.unregister "a") : Compiling Written Unit).run.finish blank).map
        (fun (r, b) => (r.toOption,
          (Store.KeyValue.document .code "partials/a.html.compiled?lang=fr" b.site).isSome)) =
        some (some (), true) := by
  refine ⟨by decide +kernel, ?_⟩
  unfold Compiler.unregister Bench.eraseName
  simp only [List.mergeSort_eq_insertionSort (α := String) (· ≤ ·)]
  decide +kernel

end TemplateCache
