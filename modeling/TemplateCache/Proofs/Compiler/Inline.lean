import TemplateCache.Proofs.Compiler.Cargo
import TemplateCache.Proofs.Compiler.Paced

/-!
# Compiles that bring content

Registering content and boarding a flight are separate steps, so compiles that bring different
contents for one name may both register before either boards. In sessions where that does not
happen, and nobody caches what was made from older content, each of them returns a renderer of what
it brought, whatever the others do between its steps; in others it need not.
-/

namespace TemplateCache

open Job

variable {π : Type}

/-! ## Sessions in order -/

namespace Paced

section

variable (c : Compiler π) (contentKey codeKey : String)

/-- A call is between registering what it brings and entering the flights of its key. -/
def Opening (s : Paced π) (j : Nat) : Prop :=
  ∃ call input, s.calls[j]? = some call ∧ call.command = .compile input ∧
    input.address.key c.store.resolver .code = .ok codeKey ∧ call.answer? = none ∧
    1 ≤ s.taken j ∧ s.taken j ≤ 3

/-- Only compiles are made, and those of the key bring content. While one of them is opening, what
is registered stays; and what is cached is made from what is registered then. -/
structure InOrder (s : Paced π) (e : Session.Event π) : Prop where
  compiles : ∀ {command}, e = .ask command → ∃ input, command = .compile input ∧
    (input.address.key c.store.resolver .code = .ok codeKey →
      input.address.key c.store.resolver .content = .ok contentKey ∧ input.content.isSome = true)
  opens : ∀ {j}, s.Opening c codeKey j → ∀ {content}, s.bench.Holds contentKey content →
    (tick c s e).bench.Holds contentKey content
  caches : c.settings.caching = true → ∀ record,
    (tick c s e).bench.state.cache.get? codeKey = some record →
      s.bench.state.cache.get? codeKey = some record ∨
        ∃ content, (tick c s e).bench.Holds contentKey content ∧ c.MadeFrom content record

variable (first : Nat) (cargo : Nat → Content)

/-- A compile stands in a phase that fits its flight and, under the key, what it brought. One
without a code key has ended. -/
inductive Fits (s : Paced π) (j : Nat) (call : Call π) : Prop where
  | unnamed {answer : Except CompileError Answer} (ended : call.job = .done answer)
      (errand : ∀ input key, call.command = .compile input →
        input.address.key c.store.resolver .code ≠ .ok key)
  | compiles {input : CompileInput} {key : String} {a : Phase}
      (command : call.command = .compile input)
      (coded : input.address.key c.store.resolver .code = .ok key)
      (stance : Stance c input key a call.job) (sits : a.Sits key s.bench.state.flights)
      (named : key = codeKey → input.address.key c.store.resolver .content = .ok contentKey)
      (bears : key = codeKey → ∃ content, input.content = some content ∧
        a.Bears c contentKey first cargo content s.bench (s.taken j))

structure Laden (s : Paced π) : Prop where
  bench : s.bench.Laden c contentKey codeKey first cargo
  fresh : ∀ {j}, s.calls.length ≤ j → s.taken j = 0
  fits : ∀ {j call}, s.calls[j]? = some call → Fits c contentKey codeKey first cargo s j call

end

section

variable {c : Compiler π} {contentKey codeKey : String} {first : Nat} {cargo cargo' : Nat → Content}
  {s t : Paced π} {e : Session.Event π}

theorem unanswered {call : Call π} (isOpen : call.job.Open) : call.answer? = none := by
  rcases call with ⟨command, job⟩
  cases job with
  | done answer => exact absurd rfl (isOpen answer)
  | _ => rfl

/-- The step of another call, or of nobody, leaves a compile where it is. -/
theorem Fits.later {j : Nat} {call : Call π} (fits : Fits c contentKey codeKey first cargo s j call)
    (there : s.calls[j]? = some call) (taken : t.taken j = s.taken j)
    (same : ∀ n, n < s.bench.state.flights.all.length → cargo' n = cargo n)
    (grows : s.bench.state.flights.Grows t.bench.state.flights)
    (holds : s.Opening c codeKey j → ∀ {content}, s.bench.Holds contentKey content →
      t.bench.Holds contentKey content) :
    Fits c contentKey codeKey first cargo' t j call := by
  cases fits with
  | unnamed ended errand => exact .unnamed ended errand
  | @compiles input key a command coded stance sits named bears =>
      refine .compiles command coded stance (sits.grows grows) named fun own => ?_
      obtain ⟨content, full, rides⟩ := bears own
      rw [taken]
      refine ⟨content, full, rides.later sits same fun opens => holds ?_⟩
      rw [own] at coded
      exact ⟨call, input, there, command, coded, unanswered (stance.isOpen opens),
        rides.opening opens⟩

/-- A call that is made fits. -/
theorem fits_asked {input : CompileInput} {j : Nat} (taken : s.taken j = 0)
    (named : input.address.key c.store.resolver .code = .ok codeKey →
      input.address.key c.store.resolver .content = .ok contentKey ∧ input.content.isSome = true) :
    Fits c contentKey codeKey first cargo s j
      ⟨.compile input, ((Command.compile input).work c).run⟩ := by
  cases coded : input.address.key c.store.resolver .code with
  | error e =>
      have ended : ((Command.compile input).work c).run = .done (.error (.naming e)) := by
        show Job.bind (c.compile input).run _ = _
        rw [Session.compile_unnamed coded]
        rfl
      refine .unnamed ended ?_
      rintro _ key ⟨⟩ same
      cases coded.symm.trans same
  | ok key =>
      refine .compiles rfl coded (stance_compile coded) ?_ (fun own => ?_) fun own => ?_
      · split
        · exact nofun
        · exact nofun
      · exact (named (own ▸ coded)).1
      · obtain ⟨content, full⟩ := Option.isSome_iff_exists.1 (named (own ▸ coded)).2
        refine ⟨content, full, ?_⟩
        rw [full, Option.isNone_some, if_neg nofun]
        exact taken

/-- A step of one call keeps a session laden. -/
theorem Laden.turn (returns : c.store.Returns)
    (matched : c.store.resolver.codeKeyOf contentKey = codeKey)
    (laden : s.Laden c contentKey codeKey first cargo) {j : Nat}
    (order : s.InOrder c contentKey codeKey (.turn j)) {call : Call π}
    (there : s.calls[j]? = some call) :
    ∃ cargo', (Paced.tick c s (.turn j)).Laden c contentKey codeKey first cargo' := by
  have after := tick_turn (c := c) there
  have bench : (Paced.tick c s (.turn j)).bench = (call.job.once s.bench).2 := by rw [after]
  have fresh {i : Nat} (beyond : (Paced.tick c s (.turn j)).calls.length ≤ i) :
      (Paced.tick c s (.turn j)).taken i = 0 := by
    rw [after] at beyond ⊢
    replace beyond : (s.calls.set j _).length ≤ i := beyond
    rw [List.length_set] at beyond
    obtain ⟨bound, -⟩ := List.getElem?_eq_some_iff.1 there
    have other : i ≠ j := by omega
    exact (Function.update_of_ne other _ _).trans (laden.fresh beyond)
  have others {cargo' : Nat → Content}
      (same : ∀ n, n < s.bench.state.flights.all.length → cargo' n = cargo n)
      (grows : s.bench.state.flights.Grows (Paced.tick c s (.turn j)).bench.state.flights)
      {i : Nat} {call' : Call π} (other : i ≠ j) (there : s.calls[i]? = some call') :
      Fits c contentKey codeKey first cargo' (Paced.tick c s (.turn j)) i call' := by
    refine (laden.fits there).later there ?_ same grows order.opens
    rw [after]
    exact Function.update_of_ne other _ _
  have taken : (Paced.tick c s (.turn j)).taken j = s.taken j + 1 := by
    rw [after]
    exact Function.update_self ..
  have caches := order.caches
  rw [bench] at caches
  cases laden.fits there with
  | @unnamed answer ended errand =>
      have stays : call.job.once s.bench = (call.job, s.bench) := by
        rw [ended]
        rfl
      have same : (Paced.tick c s (.turn j)).bench = s.bench := by rw [bench, stays]
      refine ⟨cargo, same ▸ laden.bench, fresh, fun {i call'} there' => ?_⟩
      rw [after] at there'
      rcases Session.mem_turned there' with ⟨other, there'⟩ | ⟨rfl, rfl⟩
      · exact others (fun _ _ => rfl) (same ▸ .refl _) other there'
      · rw [stays]
        exact .unnamed ended errand
  | @compiles input key a command coded stance sits named bears =>
      obtain ⟨a', paces, stance'⟩ := stance.once returns s.bench
      obtain ⟨cargo', carried⟩ := paces.carried matched named laden.bench sits bears caches
      refine ⟨cargo', bench ▸ carried.laden, fresh, fun {i call'} there' => ?_⟩
      have grows : s.bench.state.flights.Grows (Paced.tick c s (.turn j)).bench.state.flights :=
        bench ▸ carried.grows
      rw [after] at there'
      rcases Session.mem_turned there' with ⟨other, there'⟩ | ⟨rfl, rfl⟩
      · exact others carried.same grows other there'
      · have sits' : a'.Sits key (Paced.tick c s (.turn i)).bench.state.flights :=
          bench ▸ carried.sits
        refine .compiles command coded stance' sits' named fun own => ?_
        obtain ⟨content, full, bears⟩ := carried.bears own
        refine ⟨content, full, ?_⟩
        rw [taken, bench]
        exact bears

/-- A tick keeps a session in order laden. -/
theorem Laden.tick (returns : c.store.Returns)
    (matched : c.store.resolver.codeKeyOf contentKey = codeKey)
    (laden : s.Laden c contentKey codeKey first cargo) (order : s.InOrder c contentKey codeKey e) :
    ∃ cargo', (Paced.tick c s e).Laden c contentKey codeKey first cargo' := by
  cases e with
  | elsewhere content own environment =>
      have bench := laden.bench
      refine ⟨cargo, ⟨bench.keyed, bench.begun, bench.current, bench.landed, bench.cached⟩,
        laden.fresh, fun there => ?_⟩
      exact (laden.fits there).later there rfl (fun _ _ => rfl) (.refl _) fun _ _ => id
  | ask command =>
      obtain ⟨input, rfl, named⟩ := order.compiles rfl
      refine ⟨cargo, laden.bench, fun beyond => ?_, fun {j call} there => ?_⟩
      · replace beyond : (s.calls ++ [_]).length ≤ _ := beyond
        rw [List.length_append] at beyond
        exact laden.fresh (Nat.le_trans (Nat.le_add_right _ _) beyond)
      · rcases Session.mem_asked there with ⟨before, there⟩ | ⟨rfl, rfl⟩
        · exact (laden.fits there).later there rfl (fun _ _ => rfl) (.refl _) fun _ _ => id
        · have unmoved : (Paced.tick c s (.ask (.compile input))).taken s.calls.length = 0 :=
            laden.fresh (Nat.le_refl _)
          exact fits_asked unmoved named
  | turn j =>
      cases there : s.calls[j]? with
      | none =>
          have idle : Paced.tick c s (.turn j) = s := by simp only [Paced.tick, there]
          rw [idle]
          exact ⟨cargo, laden⟩
      | some call => exact laden.turn returns matched order there

/-- What every tick keeps, a run keeps. -/
theorem Laden.run (returns : c.store.Returns)
    (matched : c.store.resolver.codeKeyOf contentKey = codeKey)
    (laden : s.Laden c contentKey codeKey first cargo) {events : List (Session.Event π)}
    (order : Along c (InOrder c contentKey codeKey) s events) :
    ∃ cargo', (Paced.run c s events).Laden c contentKey codeKey first cargo' := by
  induction events generalizing s cargo with
  | nil => exact ⟨cargo, laden⟩
  | cons e rest ih =>
      obtain ⟨cargo', laden'⟩ := laden.tick returns matched order.1
      exact ih laden' order.2

/-- A compile that has returned a renderer, returned one of what stands for its content. -/
theorem Laden.renders (laden : s.Laden c contentKey codeKey first cargo) {j : Nat} {call : Call π}
    {input : CompileInput} {content : Content} {record : CodeRecord}
    (there : s.calls[j]? = some call) (asked : call.command = .compile input)
    (coded : input.address.key c.store.resolver .code = .ok codeKey)
    (brought : input.content = some content) (returned : s.renderer? j = some record) :
    ∃ kept, kept.StandsFor content ∧ c.MadeFrom kept record := by
  obtain ⟨call', there', ended⟩ := Session.job_of_renderer returned
  cases there.symm.trans there'
  cases laden.fits there with
  | unnamed _ errand => exact absurd coded (errand input codeKey asked)
  | @compiles input' key a command coded' stance sits named bears =>
      cases asked.symm.trans command
      cases coded.symm.trans coded'
      obtain ⟨content', full, rides⟩ := bears rfl
      cases brought.symm.trans full
      obtain ⟨result, rfl, same⟩ := stance.finished_of_done ended
      cases result with
      | ok made =>
          cases same
          exact rides record rfl
      | error e => cases same

end

end Paced

/-! ## Renderers of what was brought -/

/-- No flight of a code key is under way, and what is cached under it is made from what is
registered. -/
structure Bench.Calm (c : Compiler π) (contentKey codeKey : String) (b : Bench π) : Prop where
  keyed : b.state.flights.Keyed
  free : b.state.flights.current.get? codeKey = none
  cached : c.settings.caching = true → ∀ {record}, b.state.cache.get? codeKey = some record →
    ∃ content, b.Holds contentKey content ∧ c.MadeFrom content record

namespace Paced

/-- Nobody has called yet. -/
def start (b : Bench π) : Paced π := { bench := b }

variable {c : Compiler π} {contentKey codeKey : String} {b : Bench π}

theorem laden_start (calm : b.Calm c contentKey codeKey) (cargo : Nat → Content) :
    (start b).Laden c contentKey codeKey b.state.flights.all.length cargo where
  bench := by
    refine ⟨calm.keyed, Nat.le_refl _, fun leads => ?_, fun later own lands => ?_, calm.cached⟩
    · replace leads : b.state.flights.current.get? codeKey = some _ := leads
      rw [calm.free] at leads
      cases leads
    · exact absurd (Flights.bound_of_result lands) (Nat.not_lt.2 later)
  fresh _ := rfl
  fits there := by cases there

/-- In every interleaving of the steps of compiles, one that brings content and returns a renderer
returns one made from this content, if the session is in order: nobody registers another content
while it is between registering its own and boarding, and nobody caches what is made from another
content than the registered one. -/
theorem inline_content_is_compiled (returns : c.store.Returns)
    (matched : c.store.resolver.codeKeyOf contentKey = codeKey)
    (calm : b.Calm c contentKey codeKey) {events : List (Session.Event π)}
    (order : Along c (InOrder c contentKey codeKey) (start b) events) {j : Nat} {call : Call π}
    {input : CompileInput} {content : Content} {record : CodeRecord}
    (there : (run c (start b) events).calls[j]? = some call)
    (asked : call.command = .compile input)
    (coded : input.address.key c.store.resolver .code = .ok codeKey)
    (brought : input.content = some content)
    (returned : (run c (start b) events).renderer? j = some record) :
    ∃ kept, kept.StandsFor content ∧ c.MadeFrom kept record := by
  obtain ⟨cargo, laden⟩ := (laden_start calm fun _ => content).run returns matched order
  exact laden.renders there asked coded brought returned

end Paced

/-! ## Callers of one name -/

namespace Sample

open Paced

def brings (text : String) : Session.Event Unit :=
  .ask (.compile ⟨⟨"a", none, none⟩, some (.text text)⟩)

/-- Calls that bring texts for one name, and their turns. -/
def callers (texts : List String) (turns : List Nat) : List (Session.Event Unit) :=
  texts.map brings ++ turns.map .turn

def shelved : Paced Unit := start (Compiler.start shelf)

/-- The text that is registered for the name. -/
def registered (b : Bench Unit) : Option String :=
  match (b.state.registry.byKey.get? "partials/a.html").map ContentRecord.content with
  | some (.text text) => some text
  | _ => none

/-- Nobody is opening, or what is registered stays; and nothing is cached. -/
def isCalm (s : Paced Unit) (e : Session.Event Unit) : Bool :=
  ((List.range s.calls.length).all (fun j => s.taken j == 0 || 3 < s.taken j) ||
    (registered s.bench).isSome && registered (tick slow s e).bench == registered s.bench) &&
  ((tick slow s e).bench.state.cache.get? "partials/a.html.compiled").isNone

def areCalm : Paced Unit → List (Session.Event Unit) → Bool
  | _, [] => true
  | s, e :: rest => isCalm s e && areCalm (tick slow s e) rest

theorem holds_registered {b : Bench Unit} {text : String} (there : registered b = some text)
    {content : Content} : b.Holds "partials/a.html" content ↔ content = .text text := by
  unfold registered at there
  unfold Bench.Holds
  cases found : b.state.registry.byKey.get? "partials/a.html" with
  | none =>
      rw [found] at there
      cases there
  | some record =>
      rw [found] at there
      cases known : record.content with
      | text other =>
          simp only [Option.map_some, known] at there
          cases there
          simp [known, eq_comm]
      | json value =>
          simp only [Option.map_some, known] at there
          cases there

theorem inOrder_of_calm {s : Paced Unit} {e : Session.Event Unit}
    (only : (∃ text, e = brings text) ∨ ∃ j, e = .turn j) (calm : isCalm s e = true) :
    s.InOrder slow "partials/a.html" "partials/a.html.compiled" e := by
  have named : Address.key ⟨"a", none, none⟩ slow.store.resolver .content =
      .ok "partials/a.html" := rfl
  unfold isCalm at calm
  obtain ⟨stays, uncached⟩ := Bool.and_eq_true_iff.1 calm
  refine ⟨?_, ?_, ?_⟩
  · rintro command rfl
    rcases only with ⟨text, same⟩ | ⟨j, same⟩
    · cases same
      exact ⟨_, rfl, fun _ => ⟨named, rfl⟩⟩
    · cases same
  · rintro j ⟨call, input, there, -, -, -, opened, early⟩ content holds
    obtain ⟨bound, -⟩ := List.getElem?_eq_some_iff.1 there
    rcases Bool.or_eq_true_iff.1 stays with idle | stays
    · have idle := List.all_eq_true.1 idle j (List.mem_range.2 bound)
      simp at idle
      omega
    · obtain ⟨known, same⟩ := Bool.and_eq_true_iff.1 stays
      obtain ⟨text, known⟩ := Option.isSome_iff_exists.1 known
      have later := (beq_iff_eq.1 same).trans known
      exact (holds_registered later).2 ((holds_registered known).1 holds)
  · intro _ record cached
    rw [cached] at uncached
    cases uncached

theorem along_of_calm {texts : List String} {turns : List Nat} {s : Paced Unit}
    (calm : areCalm s (callers texts turns) = true) :
    Along slow (InOrder slow "partials/a.html" "partials/a.html.compiled") s
      (callers texts turns) := by
  have only : ∀ e ∈ callers texts turns, (∃ text, e = brings text) ∨ ∃ j, e = .turn j := by
    intro e there
    rcases List.mem_append.1 there with asks | turn
    · obtain ⟨text, -, rfl⟩ := List.mem_map.1 asks
      exact .inl ⟨text, rfl⟩
    · obtain ⟨j, -, rfl⟩ := List.mem_map.1 turn
      exact .inr ⟨j, rfl⟩
  revert calm only
  generalize callers texts turns = events
  intro calm only
  induction events generalizing s with
  | nil => trivial
  | cons e rest ih =>
      obtain ⟨first, later⟩ := Bool.and_eq_true_iff.1 calm
      obtain ⟨here, there⟩ := List.forall_mem_cons.1 only
      exact ⟨inOrder_of_calm here first, ih later there⟩

/-- The second caller boards the flight of the first one; a third one registers another text. -/
def overlap : List (Session.Event Unit) :=
  callers ["old", "old", "new"]
    [0, 0, 0, 0, 1, 1, 1, 1, 2, 2, 2, 2, 0, 0, 0, 0, 0, 0, 0, 0, 1, 1, 1]

end Sample

open Sample Paced

/-- The first caller is through only when the other text is registered, and the second one takes its
result. -/
theorem shared_text_is_returned :
    ∃ record, (run slow shelved overlap).renderer? 1 = some record ∧
      slow.MadeFrom (.text "old") record := by
  have order : Along slow (InOrder slow "partials/a.html" "partials/a.html.compiled") shelved
      overlap := along_of_calm (by decide)
  have returned : ((run slow shelved overlap).renderer? 1).isSome = true := by
    decide
  obtain ⟨record, returned⟩ := Option.isSome_iff_exists.1 returned
  have calm : (Compiler.start shelf).Calm slow "partials/a.html" "partials/a.html.compiled" :=
    ⟨Flights.keyed_empty, rfl, fun _ => nofun⟩
  obtain ⟨call, there, asked⟩ : ∃ call, (run slow shelved overlap).calls[1]? = some call ∧
      call.command = .compile ⟨⟨"a", none, none⟩, some (.text "old")⟩ := ⟨_, rfl, rfl⟩
  obtain ⟨kept, stands, made⟩ := inline_content_is_compiled (Store.delayed_returns 100) rfl calm
    order there asked rfl rfl returned
  exact ⟨record, returned, stands.text ▸ made⟩

namespace Sample

/-- A call that brings a text returns a renderer of another one. -/
def Mixed (s : Paced Unit) (j : Nat) (text : String) : Prop :=
  ∃ call record, s.calls[j]? = some call ∧
    call.command = .compile ⟨⟨"a", none, none⟩, some (.text text)⟩ ∧
    s.renderer? j = some record ∧ ¬slow.MadeFrom (.text text) record

theorem mixed_of_source {s : Paced Unit} {j : Nat} {call : Call Unit} {text : String}
    (other : String)
    (there : s.calls[j]? = some call)
    (asked : call.command = .compile ⟨⟨"a", none, none⟩, some (.text text)⟩)
    (returned : (s.renderer? j).map (·.renderer.source) = some (some other))
    (differ : text ≠ other) : Mixed s j text := by
  obtain ⟨record, returned, source⟩ := Option.map_eq_some_iff.1 returned
  refine ⟨call, record, there, asked, returned, fun made => differ ?_⟩
  replace made : some (some text) = some record.renderer.source :=
    congrArg (Option.map Renderer.source) (congrArg Except.toOption made)
  rw [source] at made
  cases made
  rfl

/-- Both callers register before either boards. -/
def both : List (Session.Event Unit) :=
  callers ["old", "new"] [0, 1, 0, 0, 0, 1, 1, 1, 0, 0, 0, 0, 0, 0, 0, 0, 1, 1, 1]

/-- The first caller caches its renderer when the second one has cached that of a newer text, and
another caller brings the newer text again. -/
def late : List (Session.Event Unit) :=
  callers ["old", "new", "new"]
    [0, 0, 0, 0, 0, 0, 0, 0, 0, 1, 1, 1, 1, 1, 1, 1, 1, 1, 1, 1, 1, 0, 0, 0, 2, 2, 2]

end Sample

/-- Out of order, callers get renderers of the texts of others: one boards a flight that carries
another text than its own, which it registered before, or it finds what was cached too late. -/
theorem renderers_are_mixed_up :
    Mixed (run slow shelved both) 1 "new" ∧ Mixed (run slow shelved late) 2 "new" :=
  ⟨mixed_of_source "old" rfl rfl (by decide) (by decide),
    mixed_of_source "old" rfl rfl (by decide) (by decide)⟩

end TemplateCache
