import TemplateCache.Proofs.Compiler.Leftovers
import TemplateCache.Proofs.Compiler.Variants
import TemplateCache.Proofs.Store.Lawful

/-!
# Variants apart in installations

The compilers of an installation have stores over one medium, and each has its own bench. They
write, register, scan and compile one after the other, and each finds the medium as the one before
left it. Whatever they did, a compile under a code key without a query returns a renderer of common
content.
-/

namespace TemplateCache

open Job

variable {π : Type}

/-! ## What a call keeps -/

/-- Others use the store or its medium while a call waits. They add nothing that a request without
parameters must not find. -/
structure Common.Apart {generator : Generator} {options : Json.Value} (k : Common generator options)
    (supply : Supply π) (b d : Bench π) : Prop where
  elsewhere : b.Elsewhere d
  sorted : b.site.Sorted k supply → d.site.Sorted k supply

/-- A call that brings variants in by their parameters only. -/
def Command.Sorted {generator : Generator} {options : Json.Value} (k : Common generator options)
    (supply : Supply π) (resolver : Resolver) : Command → Prop
  | .compile input =>
    (∀ content, input.content = some content → input.address.isBare = true → k.content content) ∧
      (input.content = none → ∀ key, input.address.key resolver .content = .ok key →
        supply.loads input.address key)
  | .register _ content => k.content content
  | .scan => supply.scans
  | _ => False

section

variable {c : Compiler π} {k : Common c.generator c.settings.generator} {supply : Supply π}
  {b d : Bench π}

theorem Common.Apart.keeps (changed : k.Apart supply b d) (sorted : b.Sorted k supply) :
    d.Sorted k supply where
  site := changed.sorted sorted.site
  registry := by
    rw [changed.elsewhere.state]
    exact sorted.registry
  cache there := by
    rw [changed.elsewhere.state] at there
    exact sorted.cache there

/-- Where no state has changed, no flight is under way. -/
theorem Bench.Resting.of_state (resting : b.Resting) (state : d.state = b.state)
    (sorted : d.Sorted k supply) : d.Resting where
  sound := ⟨state ▸ resting.sound.flights, fun there => (sorted.site.code _ _ there).1,
    state ▸ resting.sound.cache⟩
  free key := by
    rw [state]
    exact resting.free key

theorem rests_registerGiven (input : CompileInput) :
    Yields Bench.Resting (fun _ => True) (c.registerGiven input) := by
  unfold Compiler.registerGiven
  split
  · exact yields_pure trivial
  · refine Yields.seq (fun _ _ => trivial) fun key => ?_
    have registers record : Yields Bench.Resting (fun _ => True)
        (Compiling.step (Bench.register c.store.resolver record) : Compiling π ContentRecord) :=
      yields_lift fun b resting => ⟨(Bench.sheds_register _).resting resting, trivial⟩
    refine Under.bind (registers _) fun r _ => ?_
    cases r <;> exact fun _ _ => trivial

/-- A compile keeps variants apart, and under a code key without a query it returns a renderer of
common content. -/
theorem Bench.Sorted.compile_named {input : CompileInput} {codeKey : String}
    {r : Except CompileError CodeRecord} (sorts : c.store.Sorts k supply)
    (sorted : b.Sorted k supply) (resting : b.Resting)
    (brings : (Command.compile input).Sorted k supply c.store.resolver)
    (named : input.address.key c.store.resolver .code = .ok codeKey)
    (runs : (c.compile input).run.Runs (k.Apart supply) b r d) :
    d.Sorted k supply ∧ ∀ record, r = .ok record → k.Serves codeKey record := by
  unfold Compiler.compile at runs
  dsimp only at runs
  rw [named] at runs
  rcases Runs.of_bindExcept runs with ⟨_, u, names, runs⟩ | ⟨e, fails, -⟩
  case inr => exact nomatch fails
  cases names
  have registers : Yields (Bench.Sorted k supply) _ (c.registerGiven input) :=
    yields_registerGiven named brings.1
  rcases Runs.of_bindExcept runs with ⟨given, u, begins, runs⟩ | ⟨e, fails, rfl⟩
  case inr =>
    have kept := registers.runs fails (fun changed => changed.keeps) sorted
    exact ⟨kept.1, fun _ => nofun⟩
  obtain ⟨sorted, fine⟩ := registers.runs begins (fun changed => changed.keeps) sorted
  obtain ⟨same, common⟩ := fine given rfl
  have resting : u.Resting := ((rests_registerGiven input).runs begins
    (fun changed => changed.elsewhere.sheds.resting) resting).1
  replace runs := Compiling.runs_gets (Compiling.runs_gets runs)
  split at runs
  -- A cached renderer is returned as it is.
  · rename_i record cached
    cases runs
    refine ⟨sorted, ?_⟩
    rintro _ ⟨⟩ bare
    split at cached
    · exact sorted.cache cached bare
    · exact nomatch cached
  -- No flight is under way, so the compile does its work in a new one.
  · obtain ⟨v, w, changed, works, left⟩ := runs_share_new
      (fun changed => changed.elsewhere.state) (resting.free codeKey) runs
    have loads : given = none → ∀ key, input.address.key c.store.resolver .content = .ok key →
        supply.loads input.address key := by
      rintro rfl
      exact brings.2 (Option.isNone_iff_eq_none.1 (by simpa using same.symm))
    obtain ⟨sorted, fine⟩ := (yields_compileAnew sorts named common loads _).runs works
      (fun changed => changed.keeps) (changed.keeps (sorted.withFlights _))
    rw [left]
    exact ⟨sorted.withFlights _, fine⟩

theorem Bench.Sorted.compile {input : CompileInput} {r : Except CompileError CodeRecord}
    (sorts : c.store.Sorts k supply) (sorted : b.Sorted k supply) (resting : b.Resting)
    (brings : (Command.compile input).Sorted k supply c.store.resolver)
    (runs : (c.compile input).run.Runs (k.Apart supply) b r d) : d.Sorted k supply := by
  cases named : input.address.key c.store.resolver .code with
  | ok codeKey => exact (sorted.compile_named sorts resting brings named runs).1
  | error e =>
      rw [Session.compile_unnamed named] at runs
      cases runs
      exact sorted

theorem yields_register (name : String) {content : Content} (common : k.content content) :
    Yields (Bench.Sorted k supply) (fun _ => True) (c.register name content) := by
  refine (Compiling.yields_naming _).bind fun key _ => ?_
  refine Compiling.yields_step fun b sorted => ⟨sorted.register fun _ => common, trivial⟩

theorem yields_scan (sorts : c.store.Sorts k supply) (scans : supply.scans) :
    Yields (Bench.Sorted k supply) (fun _ => True) c.scan := by
  refine (yields_newToken sorts).seq fun token => ?_
  refine Yields.bind (yields_lift (Compiling.under_onSite (sorts.scan scans token)))
    fun discovery fine => ?_
  refine Yields.seq (Compiling.yields_modify fun b sorted => sorted.registerAll fine) fun _ => ?_
  exact fun _ _ => trivial

/-- What every call keeps. -/
theorem Bench.Sorted.call {command : Command} {answer : Except CompileError Answer}
    (sorts : c.store.Sorts k supply) (sorted : b.Sorted k supply) (resting : b.Resting)
    (brings : command.Sorted k supply c.store.resolver)
    (runs : (command.work c).run.Runs (k.Apart supply) b answer d) : d.Sorted k supply := by
  cases command with
  | compile input =>
      obtain ⟨r, runs, -⟩ := Runs.of_map runs
      exact sorted.compile sorts resting brings runs
  | register name content =>
      obtain ⟨r, runs, -⟩ := Runs.of_map runs
      exact ((yields_register name brings).runs runs (fun changed => changed.keeps) sorted).1
  | scan =>
      obtain ⟨r, runs, -⟩ := Runs.of_map runs
      exact ((yields_scan sorts brings).runs runs (fun changed => changed.keeps) sorted).1
  | _ => exact brings.elim

end

/-! ## Installations -/

/-- Compilers whose stores share a medium. -/
structure Installation (π ι : Type) where
  compiler : ι → Compiler π
  common : ∀ i, Common (compiler i).generator (compiler i).settings.generator
  supply : ι → Supply π
  lawful : ∀ i, (compiler i).store.Lawful
  sorts : ∀ i, (compiler i).store.Sorts (common i) (supply i)
  medium : ∀ {i j e}, (supply i).shared e → (supply j).shared e

namespace Installation

variable {ι : Type} {n : Installation π ι} {start benches : ι → Bench π} {i : ι} {b d : Bench π}

def Apart (n : Installation π ι) (i : ι) : Bench π → Bench π → Prop :=
  (n.common i).Apart (n.supply i)

/-- Nothing was called yet. -/
def Fresh (n : Installation π ι) (benches : ι → Bench π) : Prop :=
  ∀ i, ∃ site, site.Sorted (n.common i) (n.supply i) ∧ benches i = Compiler.start site

/-- What holds of a bench between calls. -/
structure Tidy (n : Installation π ι) (i : ι) (b : Bench π) : Prop where
  sorted : b.Sorted (n.common i) (n.supply i)
  resting : b.Resting

theorem tidy_start {site : Site π} (sorted : site.Sorted (n.common i) (n.supply i)) :
    n.Tidy i (Compiler.start site) where
  sorted := ⟨sorted.setClock (n.sorts i).passes _, fun _ _ => nofun, nofun⟩
  resting := Bench.resting_start fun _ _ there => (sorted.code _ _ there).1

theorem Tidy.elsewhere (h : n.Tidy i b) (changed : n.Apart i b d) : n.Tidy i d :=
  ⟨changed.keeps h.sorted, changed.elsewhere.sheds.resting h.resting⟩

theorem Tidy.call {command : Command} {answer : Except CompileError Answer} (h : n.Tidy i b)
    (sorted : command.Sorted (n.common i) (n.supply i) (n.compiler i).store.resolver)
    (runs : (command.work (n.compiler i)).run.Runs (n.Apart i) b answer d) : n.Tidy i d where
  sorted := h.sorted.call (n.sorts i) h.resting sorted runs
  resting :=
    have does : (n.compiler i).Does command b answer d := runs.mono fun changed => changed.elsewhere
    does.resting (n.lawful i) h.resting

/-- A store does not touch what its compiler remembers. -/
theorem Tidy.write {address : Address} {key : String} {content : Content} {token : Token}
    {answer : Except StoreError ContentRecord} (h : n.Tidy i b)
    (keyed : address.key (n.compiler i).store.resolver .content = .ok key)
    (writes : (n.supply i).writes address key content)
    (runs : (((n.compiler i).store.writeContent address content token).run.on
      Bench.sitePart).Runs (n.Apart i) b answer d) : n.Tidy i d := by
  have sorted : d.Sorted (n.common i) (n.supply i) :=
    ((Compiling.under_onSite ((n.sorts i).writeContent token keyed writes)).runs runs
      (fun changed => changed.keeps) h.sorted).1
  have state : d.state = b.state :=
    ((under_any.on (fun _ _ => trivial) fun _ _ _ same => same).runs runs
      (fun changed same => changed.elsewhere.state.trans same) rfl).1
  exact ⟨sorted, h.resting.of_state state sorted⟩

variable [DecidableEq ι]

/-- What one of them does at its bench, the others see in the medium. -/
def moved (benches : ι → Bench π) (i : ι) (d : Bench π) (j : ι) : Bench π :=
  if j = i then d
  else
    { benches j with
      site := { (benches j).site with environment := d.site.environment } }

/-- Writes, registrations, scans and compiles, one after the other. -/
inductive Course (n : Installation π ι) (start : ι → Bench π) : (ι → Bench π) → Prop where
  | refl : Course n start start
  | call {benches : ι → Bench π} {i : ι} {command : Command} {answer : Except CompileError Answer}
      {d : Bench π} (before : Course n start benches)
      (sorted : command.Sorted (n.common i) (n.supply i) (n.compiler i).store.resolver)
      (runs : (command.work (n.compiler i)).run.Runs (n.Apart i) (benches i) answer d) :
      Course n start (moved benches i d)
  /-- Content is written by the store of a compiler. -/
  | write {benches : ι → Bench π} {i : ι} {address : Address} {key : String} {content : Content}
      {token : Token} {answer : Except StoreError ContentRecord} {d : Bench π}
      (before : Course n start benches)
      (keyed : address.key (n.compiler i).store.resolver .content = .ok key)
      (writes : (n.supply i).writes address key content)
      (runs : (((n.compiler i).store.writeContent address content token).run.on
        Bench.sitePart).Runs (n.Apart i) (benches i) answer d) :
      Course n start (moved benches i d)
  | elsewhere {benches : ι → Bench π} {i : ι} {d : Bench π} (before : Course n start benches)
      (changed : n.Apart i (benches i) d) : Course n start (moved benches i d)

/-- What one of them leaves behind in the medium, the others can work with. -/
theorem tidy_moved (all : ∀ j, n.Tidy j (benches j)) (h : n.Tidy i d) (j : ι) :
    n.Tidy j (moved benches i d j) := by
  unfold moved
  split
  · rename_i same
    exact same ▸ h
  · obtain ⟨⟨site, registry, cache⟩, sound, free⟩ := all j
    have shared : (n.supply j).shared d.site.environment := n.medium h.sorted.site.shared
    exact ⟨⟨⟨site.content, site.code, site.own, shared⟩, registry, cache⟩,
      ⟨sound.flights, sound.code, sound.cache⟩, free⟩

theorem Course.tidy (course : n.Course start benches) (fresh : n.Fresh start) (j : ι) :
    n.Tidy j (benches j) := by
  induction course generalizing j with
  | refl =>
      obtain ⟨site, sorted, same⟩ := fresh j
      exact same ▸ tidy_start sorted
  | call before sorted runs ih => exact tidy_moved ih ((ih _).call sorted runs) j
  | write before keyed writes runs ih => exact tidy_moved ih ((ih _).write keyed writes runs) j
  | elsewhere before changed ih => exact tidy_moved ih ((ih _).elsewhere changed) j

end Installation

/-- Whatever was written, registered, scanned and compiled before, with parameters or without, a
compile under a code key without a query returns a renderer that was made of common content, or
loaded from a common source. -/
theorem bare_renderer_is_common {ι : Type} [DecidableEq ι] {n : Installation π ι}
    {start benches : ι → Bench π} {i : ι} {input : CompileInput} {codeKey : String}
    {record : CodeRecord} {d : Bench π} (fresh : n.Fresh start) (course : n.Course start benches)
    (coded : input.address.key (n.compiler i).store.resolver .code = .ok codeKey)
    (bare : BareKey codeKey)
    (sorted : (Command.compile input).Sorted (n.common i) (n.supply i)
      (n.compiler i).store.resolver)
    (runs : ((Command.compile input).work (n.compiler i)).run.Runs (n.Apart i) (benches i)
      (.ok (.code record)) d) : (n.common i).Renders record.renderer := by
  obtain ⟨r, runs, same⟩ := Runs.of_map runs
  obtain ⟨tidy, resting⟩ := course.tidy fresh i
  cases r with
  | error e => exact nomatch same
  | ok made =>
      cases same
      exact (tidy.compile_named (n.sorts i) resting sorted coded runs).2 record rfl bare

/-! ## Samples -/

namespace Sample

/-- One text is common, and nothing else. -/
def greeting : Common generator shared.settings.generator where
  content x := x.asText = "hello"
  source text := text = "hello"
  generated common made sourced := by
    cases made
    cases sourced
    exact common

/-- Two compilers over an engine, without documents that have parameters. -/
def twins : Installation Written Bool where
  compiler _ := shared
  common _ := greeting
  supply _ := Store.KeyValue.supply greeting fun _ => False
  lawful _ := Store.keyValue_lawful 10
  sorts _ := Store.keyValue_sorts 10 _
  medium := id

def inFrench : Address := ⟨"a", none, some (KeyMap.insert ∅ "lang" "fr")⟩

def plain : CompileInput := ⟨⟨"a", none, none⟩, none⟩

/-- Writes a text with the store of a compiler. -/
def writing (address : Address) (text : String) :
    Job (Bench Written) (Except StoreError ContentRecord) :=
  (shared.store.writeContent address (.text text) ⟨[0], none⟩).run.on Bench.sitePart

/-- The bench that a job leaves. -/
def left {α : Type} (job : Job (Bench Written) α) (b : Bench Written) : Bench Written :=
  ((job.finish b).map (·.2)).getD b

theorem runs_left {α : Type} (i : Bool) (job : Job (Bench Written) α) (b : Bench Written)
    (ends : (job.finish b).isSome = true) :
    ∃ x, (job.finish b).map (·.1) = some x ∧ job.Runs (twins.Apart i) b x (left job b) := by
  unfold left
  cases same : job.finish b with
  | none =>
      rw [same] at ends
      exact nomatch ends
  | some result =>
      refine ⟨result.1, rfl, runs_of_finish (fun s => ⟨.refl s, id⟩)
        (fun clock s => ⟨⟨rfl, rfl⟩, fun sorted => ?_⟩) (fun _ _ => rfl) same⟩
      exact sorted.setClock (twins.sorts i).passes clock

/-- The benches after a text was written for everyone. -/
def greeted : Bool → Bench Written :=
  Installation.moved (fun _ => blank) false (left (writing plain.address "hello") blank)

/-- The benches after another one was written for French. -/
def supplied : Bool → Bench Written :=
  Installation.moved greeted false (left (writing inFrench "salut") (greeted false))

/-- The other compiler is given one more text for French. -/
def translate : Command := .compile ⟨inFrench, some (.text "bonjour")⟩

def served : Bool → Bench Written :=
  Installation.moved supplied true (left (translate.work shared).run (supplied true))

def isCode : Except CompileError Answer → Bool
  | .ok (.code _) => true
  | _ => false

end Sample

open Sample

/-- The texts for French are kept apart from the plain name. -/
theorem greeting_is_rendered :
    ∃ record d, ((Command.compile plain).work shared).run.Runs (twins.Apart true) (served true)
      (.ok (.code record)) d ∧ greeting.Renders record.renderer := by
  have fresh : twins.Fresh fun _ => blank :=
    fun _ => ⟨{ own := [] }, ⟨fun _ _ => nofun, fun _ _ => nofun, trivial, nofun, nofun⟩, rfl⟩
  have bare : BareKey "partials/a.html" ∧ BareKey "partials/a.html.compiled" := by
    unfold BareKey
    decide
  have asks : ¬BareKey "partials/a.html?lang=fr" := by
    unfold BareKey
    decide
  have reads : (Json.Decoder.ofBytes? (Store.KeyValue.contentRecord "partials/a.html")
      (Store.KeyValue.contentDocument plain.address (.text "hello")).toUTF8.toList).all
        (fun record => record.content.asText == "hello") = true := by
    decide +kernel
  have greeting_fits : (twins.supply false).writes plain.address "partials/a.html"
      (.text "hello") := by
    refine ⟨fun _ => rfl, fun _ record read => ?_⟩
    replace read : Json.Decoder.ofBytes? _ _ = some record := read
    rw [read] at reads
    exact eq_of_beq reads
  have variant_fits : (twins.supply false).writes inFrench "partials/a.html?lang=fr"
      (.text "salut") :=
    ⟨nofun, fun loads => (loads.elim asks id).elim⟩
  have course : twins.Course (fun _ => blank) served := by
    obtain ⟨_, -, greets⟩ :=
      runs_left false (writing plain.address "hello") blank (by decide +kernel)
    obtain ⟨_, -, writes⟩ :=
      runs_left false (writing inFrench "salut") (greeted false) (by decide +kernel)
    obtain ⟨_, -, translates⟩ :=
      runs_left true (translate.work shared).run (supplied true) (by decide +kernel)
    have first : twins.Course (fun _ => blank) greeted := .write .refl rfl greeting_fits greets
    have second : twins.Course (fun _ => blank) supplied :=
      .write first (by decide +kernel) variant_fits writes
    have given : translate.Sorted greeting (twins.supply true) resolver :=
      ⟨fun _ _ bare => absurd bare Bool.false_ne_true, nofun⟩
    exact .call second given translates
  obtain ⟨answer, answers, runs⟩ :=
    runs_left true ((Command.compile plain).work shared).run (served true) (by decide +kernel)
  have returns : ((((Command.compile plain).work shared).run.finish (served true)).map
      (·.1)).any isCode = true := by
    decide +kernel
  rw [answers] at returns
  rcases answer with e | answer
  case error => exact nomatch returns
  cases answer with
  | code record =>
      refine ⟨record, _, runs, ?_⟩
      refine bare_renderer_is_common fresh course rfl bare.2 ⟨?_, fun _ key named => .inl ?_⟩ runs
      · rintro _ ⟨⟩
      · exact Except.ok.inj named ▸ bare.1
  | _ => exact nomatch returns

namespace Sample

/-- The bench of the other compiler after a text for French, and nothing else, was written, and
after a scan. -/
def searched : Bench Written :=
  let written := left (writing inFrench "salut") blank
  left (Command.work shared .scan).run (Installation.moved (fun _ => blank) false written true)

/-- One that takes names with a slash as keys. -/
def pathwise : Compiler Unit :=
  let rules := { NamingRules.standard with verbatimPattern := some "/" }
  ⟨{ naming := rules }, .memory ⟨rules, some (.text ['/'])⟩, generator⟩

/-- A name with parameters, and one that spells them. -/
def spelled : Compiling Unit CodeRecord := do
  let _ ← pathwise.compile ⟨⟨"/a", none, inFrench.params⟩, some (.text "salut")⟩
  pathwise.compile ⟨⟨"/a?lang=fr", none, none⟩, none⟩

end Sample

/-- A document does not tell its parameters, so after a scan the plain name finds the text for
French. A name that is a key itself may end like a query, and then finds a variant of another. -/
theorem variant_is_rendered_plainly :
    inFrench.key resolver .content = .ok "partials/a.html?lang=fr" ∧
      ((searched.state.registry.byKey.get? "partials/a.html?lang=fr").map fun record =>
        (record.content.asText, record.params)) = some ("salut", none) ∧
      ((shared.compile plain).run.finish searched).map
        (fun (r, _) => r.toOption.bind (·.renderer.source)) = some (some "salut") ∧
      (spelled.run.finish (Compiler.start { own := () })).map
        (fun (r, _) => r.toOption.bind (·.renderer.source)) = some (some "salut") := by
  decide +kernel

end TemplateCache
