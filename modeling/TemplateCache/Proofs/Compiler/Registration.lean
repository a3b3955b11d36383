import TemplateCache.Proofs.Compiler.Trace
import TemplateCache.Proofs.Registry
import TemplateCache.Proofs.Store.Lawful

/-!
# Compiling what was registered

A registration that changes the content of a name makes its code key stale, and lets the next
compiles of it start over. What they return is made from the new content as long as nobody else
publishes under the key once it is not stale any more; what is cached is served as it is.
-/

namespace TemplateCache

variable {π : Type}

def Compiler.MadeFrom (c : Compiler π) (content : Content) (record : CodeRecord) : Prop :=
  c.generator.generate content c.settings.generator = .ok record.renderer

namespace Bench

/-- Some content is registered under a content key. -/
def Holds (contentKey : String) (content : Content) (b : Bench π) : Prop :=
  ∃ record, b.state.registry.byKey.get? contentKey = some record ∧ record.content = content

/-- Unless it is stale, a code key has renderers made from the content: one is cached, and one is
in the store where code is kept there. -/
def Serves (c : Compiler π) (content : Content) (codeKey : String) (b : Bench π) : Prop :=
  b.state.cache.isStale codeKey = false →
    (∃ record, b.state.cache.get? codeKey = some record ∧ c.MadeFrom content record) ∧
    (c.settings.policy.mayWrite = true →
      ∃ record, b.site.overlay.code.get? codeKey = some record ∧ c.MadeFrom content record)

/-- Some content is registered, served, and no compile of its code key is under way. -/
def Settled (c : Compiler π) (content : Content) (contentKey codeKey : String) (b : Bench π) :
    Prop :=
  b.Holds contentKey content ∧ b.Serves c content codeKey ∧
    b.state.flights.current.get? codeKey = none

end Bench

section

variable (c : Compiler π) (content : Content) (contentKey codeKey : String) (first : Nat)

/-- What holds of the bench from the registration on. -/
structure Bench.Minds (b : Bench π) : Prop where
  holds : b.Holds contentKey content
  serves : b.Serves c content codeKey
  guarded : b.state.flights.Guarded (c.MadeFrom content) codeKey first

/-- Without code in the store, compiles of the key follow one another. -/
def Bench.Idle (b : Bench π) : Prop :=
  c.settings.policy.mayWrite = false → b.state.flights.current.get? codeKey = none

/-- Without code in the store, a compile under way has the key to itself. -/
def Bench.Leads (t : Ticket) (b : Bench π) : Prop :=
  c.settings.policy.mayWrite = false → b.state.flights.current.get? codeKey = some t.number

/-- Nor does it wait, or look for code. -/
def Bench.Alone (t : Ticket) (b : Bench π) : Prop :=
  b.Leads c codeKey t ∧ (c.settings.policy.mayWrite = false →
    b.state.flights.isDue t.number t.caller = true ∧ b.state.cache.isStale codeKey = true)

/-- A result, if it is a renderer, was made from the content. -/
def Compiler.Yields (result : Except CompileError CodeRecord) : Prop :=
  ∀ record, result = .ok record → c.MadeFrom content record

/-- The stages of a compile that begins after the registration. -/
def Stage.Making (b : Bench π) : Stage → Prop
  | asked => b.Idle c codeKey
  | registered given => given = none ∧ b.Idle c codeKey
  | waiting t => t.given = none ∧ first ≤ t.number ∧ b.Alone c codeKey t
  | called t => t.given = none ∧ b.Alone c codeKey t
  | fetching _ => False
  | seeking t => t.given = none ∧ b.Alone c codeKey t
  | reading _ => False
  | generating t found => found = content ∧ b.Alone c codeKey t
  | writing _ renderer => c.settings.policy.mayWrite = true ∧
      c.generator.generate content c.settings.generator = .ok renderer
  | made t record => c.MadeFrom content record ∧ b.Leads c codeKey t ∧
      (c.settings.policy.mayWrite = true →
        ∃ record, b.site.overlay.code.get? codeKey = some record ∧ c.MadeFrom content record)
  | ended t result => c.Yields content result ∧ b.Leads c codeKey t
  | leaving t result => c.Yields content result ∧ b.Leads c codeKey t
  | finished result => c.Yields content result ∧ b.Idle c codeKey

end

section

variable {c : Compiler π} {content : Content} {contentKey codeKey : String} {first : Nat}
  {input : CompileInput} {a a' : Stage} {b b' : Bench π} {t : Ticket}

/-- What only moves the clock, counts, or works on other parts of the site. -/
theorem Bench.Minds.of_eq (minds : b.Minds c content contentKey codeKey first)
    (registry : b'.state.registry = b.state.registry) (cache : b'.state.cache = b.state.cache)
    (flights : b'.state.flights = b.state.flights)
    (code : b'.site.overlay.code = b.site.overlay.code) :
    b'.Minds c content contentKey codeKey first := by
  obtain ⟨holds, serves, guarded⟩ := minds
  refine ⟨?_, ?_, ?_⟩
  · unfold Bench.Holds
    rwa [registry]
  · unfold Bench.Serves
    rwa [cache, code]
  · rwa [flights]

/-- A compile that finds a key not stale is not alone, and finds renderers of the content. -/
theorem Bench.Alone.asks (alone : b.Alone c codeKey t) (serves : b.Serves c content codeKey)
    (asks : t.asksForCode c codeKey b = true) :
    ∃ record, b.site.overlay.code.get? codeKey = some record ∧ c.MadeFrom content record := by
  have fresh : b.state.cache.isStale codeKey = false := by
    simp only [Ticket.asksForCode, Bool.and_eq_true, Bool.not_eq_true'] at asks
    exact asks.2
  cases mayWrite : c.settings.policy.mayWrite with
  | true => exact (serves fresh).2 mayWrite
  | false =>
      rw [(alone.2 mayWrite).2] at fresh
      exact nomatch fresh

theorem making_board (caching : c.settings.caching = true)
    (minds : b.Minds c content contentKey codeKey first) {given : Option ContentRecord}
    (making : (Stage.registered given).Making c content codeKey first b)
    (missed : c.settings.caching = true → b.state.cache.get? codeKey = none) :
    (Stage.waiting ⟨(b.state.flights.join codeKey).1.1, (b.state.flights.join codeKey).1.2,
      b.state.cache.epoch, given⟩).Making c content codeKey first
      (b.withFlights fun f => (f.join codeKey).2) := by
  obtain ⟨bare, idle⟩ := making
  refine ⟨bare, ?_, fun mayNotWrite => ?_, fun mayNotWrite => ⟨?_, ?_⟩⟩
  · cases leads : b.state.flights.current.get? codeKey with
    | some n =>
        rw [Flights.join_boarded leads]
        exact minds.guarded.current leads
    | none =>
        rw [Flights.join_new leads]
        exact minds.guarded.room
  · exact Flights.current_join.trans (if_pos rfl)
  · have free := idle mayNotWrite
    show Flights.isDue (b.state.flights.join codeKey).2 _ _ = true
    unfold Flights.isDue
    rw [Flights.join_new free, Flights.flight_join_new free]
    simp
  · by_contra fresh
    obtain ⟨⟨record, cached, -⟩, -⟩ := minds.serves (Bool.eq_false_iff.2 fresh)
    rw [missed caching] at cached
    exact nomatch cached

theorem serves_publish (caching : c.settings.caching = true)
    (minds : b.Minds c content contentKey codeKey first) {record : CodeRecord}
    (own : record.key = codeKey) (making : (Stage.made t record).Making c content codeKey first b) :
    (c.publish codeKey t.since record b).Serves c content codeKey := by
  obtain ⟨made, -, kept⟩ := making
  have published : (c.publish codeKey t.since record b).state.cache =
      (b.state.cache.insert record t.since).2 := if_pos caching
  unfold Bench.Serves
  rw [published]
  cases outdated : b.state.cache.isOutdated record.key t.since with
  | true =>
      rw [CodeCache.insert_outdated outdated]
      exact minds.serves
  | false =>
      rw [CodeCache.insert_fresh outdated]
      refine fun _ => ⟨⟨record, ?_, made⟩, kept⟩
      show (b.state.cache.entries.insert record.key record).get? codeKey = some record
      rw [KeyMap.get?_insert, if_pos own.symm]

/-- What one move of a compile that begins after the registration does. -/
theorem Move.making (m : Move c input codeKey a b a' b') (caching : c.settings.caching = true)
    (bare : input.content = none)
    (key : input.address.key c.store.resolver .content = .ok contentKey) (bench : b.Sound)
    (sound : a.Sound codeKey b) (minds : b.Minds c content contentKey codeKey first)
    (making : a.Making c content codeKey first b) :
    b'.Minds c content contentKey codeKey first ∧ a'.Making c content codeKey first b' := by
  have guarded := minds.guarded.move m
  cases m with
  | bare => exact ⟨minds, rfl, making⟩
  | unplaced => exact ⟨minds, nofun, making⟩
  | give full =>
      rw [bare] at full
      exact nomatch full
  | hit _ cached =>
      obtain ⟨⟨record', cached', made⟩, -⟩ := minds.serves (bench.cache.cached cached)
      rw [cached] at cached'
      cases cached'
      refine ⟨minds, ?_, making.2⟩
      rintro record ⟨⟩
      exact made
  | board missed =>
      exact ⟨⟨minds.holds, minds.serves, guarded nofun⟩, making_board caching minds making missed⟩
  | share landed =>
      obtain ⟨-, later, alone⟩ := making
      obtain ⟨-, own, -⟩ := sound.seat rfl
      refine ⟨minds, ?_, alone.1⟩
      rintro record ⟨⟩
      exact minds.guarded.results later own landed
  | turn flying due => exact ⟨minds, making.1, making.2.2⟩
  | take asks kept =>
      obtain ⟨record', kept', made⟩ := making.2.asks minds.serves asks
      rw [kept] at kept'
      cases kept'
      exact ⟨minds.of_eq rfl rfl rfl rfl, made, making.2.1, fun _ => ⟨_, kept, made⟩⟩
  | fetch asks mayRead missing =>
      obtain ⟨record, kept, -⟩ := making.2.asks minds.serves asks
      rw [missing] at kept
      exact nomatch kept
  | seek nothing => exact ⟨minds.of_eq rfl rfl rfl rfl, making⟩
  | seekFails => exact ⟨minds, nofun, making.2.1⟩
  | given given =>
      rw [making.1] at given
      exact nomatch given
  | serve _ key' serves =>
      obtain ⟨record, registered, rfl⟩ := minds.holds
      rw [key] at key'
      cases key'
      unfold Registry.serving at serves
      rw [registered] at serves
      cases serves
      exact ⟨minds, rfl, making.2⟩
  | read _ key' unknown =>
      obtain ⟨record, registered, -⟩ := minds.holds
      rw [key] at key'
      cases key'
      unfold Registry.serving at unknown
      rw [registered] at unknown
      exact nomatch unknown
  | refuse => exact ⟨minds.of_eq rfl rfl rfl rfl, nofun, making.2.1⟩
  | keep mayWrite generates =>
      obtain ⟨rfl, -⟩ := making
      exact ⟨minds.of_eq rfl rfl rfl rfl, mayWrite, generates⟩
  | generate mayNotWrite generates =>
      obtain ⟨rfl, alone⟩ := making
      refine ⟨minds.of_eq rfl rfl rfl rfl, generates, alone.1, fun mayWrite => ?_⟩
      rw [mayNotWrite] at mayWrite
      exact nomatch mayWrite
  | @writeOn b t renderer site change =>
      obtain ⟨mayWrite, generates⟩ := making
      refine ⟨?_, mayWrite, generates⟩
      rcases change with same | kept
      · exact minds.of_eq rfl rfl rfl same
      · refine ⟨minds.holds, fun fresh => ?_, minds.guarded⟩
        refine ⟨(minds.serves fresh).1, fun _ => ?_⟩
        refine ⟨⟨codeKey, input.address.name, renderer⟩, ?_, generates⟩
        show site.overlay.code.get? codeKey = _
        rw [kept, KeyMap.get?_insert, if_pos rfl]
  | written kept =>
      obtain ⟨mayWrite, generates⟩ := making
      refine ⟨minds, generates, fun mayNotWrite => ?_, fun _ => ⟨_, kept, generates⟩⟩
      rw [mayNotWrite] at mayWrite
      exact nomatch mayWrite
  | writeFails =>
      obtain ⟨mayWrite, -⟩ := making
      refine ⟨minds, nofun, fun mayNotWrite => ?_⟩
      rw [mayNotWrite] at mayWrite
      exact nomatch mayWrite
  | publish =>
      refine ⟨⟨minds.holds, serves_publish caching minds (sound.made rfl) making, guarded nofun⟩,
        ?_, making.2.1⟩
      rintro record ⟨⟩
      exact making.1
  | land =>
      refine ⟨⟨minds.holds, minds.serves, guarded ?_⟩, making⟩
      rintro t record ⟨⟩
      exact making.1 _ rfl
  | handOver => exact ⟨⟨minds.holds, minds.serves, guarded nofun⟩, making⟩
  | leave =>
      refine ⟨⟨minds.holds, minds.serves, guarded nofun⟩, making.1, fun mayNotWrite => ?_⟩
      exact Flights.current_leave_own (making.2 mayNotWrite)
  | fetchOn => exact making.elim
  | load => exact making.elim
  | unreadable => exact making.elim
  | fetchNothing => exact making.elim
  | fetchFails => exact making.elim
  | readOn => exact making.elim
  | found => exact making.elim
  | readFails => exact making.elim

theorem path_making (path : (compilePlan c input codeKey).Path a b a' b')
    (caching : c.settings.caching = true) (bare : input.content = none)
    (key : input.address.key c.store.resolver .content = .ok contentKey) (bench : b.Sound)
    (sound : a.Sound codeKey b) (minds : b.Minds c content contentKey codeKey first)
    (making : a.Making c content codeKey first b) :
    b'.Minds c content contentKey codeKey first ∧ a'.Making c content codeKey first b' := by
  induction path with
  | refl => exact ⟨minds, making⟩
  | tail path m ih =>
      obtain ⟨-, bench', sound'⟩ := path_sound path bench sound
      exact Move.making m caching bare key bench' sound' ih.1 ih.2

/-- Only what is kept under the code key matters. -/
theorem Bench.Serves.of_eq (serves : b.Serves c content codeKey)
    (stale : b'.state.cache.stale.get? codeKey = b.state.cache.stale.get? codeKey)
    (cached : b'.state.cache.get? codeKey = b.state.cache.get? codeKey)
    (code : b'.site.overlay.code.get? codeKey = b.site.overlay.code.get? codeKey) :
    b'.Serves c content codeKey := by
  unfold Bench.Serves CodeCache.isStale KeyMap.contains at *
  rwa [stale, cached, code]

theorem serves_register {resolver : Resolver} {record : ContentRecord}
    (serves : b.Serves c content codeKey) :
    (Bench.register resolver record b).2.Serves c content codeKey := by
  cases changed : (b.state.registry.register record).1.2.changed with
  | true =>
      rw [Bench.register_changed changed]
      unfold Bench.Serves CodeCache.isStale KeyMap.contains
      rw [Bench.cache_invalidate, CodeCache.stale_invalidate, CodeCache.get?_invalidate,
        Bench.code_invalidate]
      split
      · exact fun fresh => nomatch fresh
      · exact serves
  | false =>
      rw [Bench.register_unchanged changed]
      exact serves

theorem get?_insert_of_ne {m : KeyMap CodeRecord} {k : String} {record : CodeRecord}
    (other : codeKey ≠ k) : (m.insert k record).get? codeKey = m.get? codeKey := by
  rw [KeyMap.get?_insert, if_neg other]

/-- A compile of another key may invalidate this one, but does not publish under it. -/
theorem Move.serves_other {d : Compiler π} {k : String} (m : Move d input k a b a' b')
    (other : codeKey ≠ k) (sound : a.Sound k b) (serves : b.Serves c content codeKey) :
    b'.Serves c content codeKey := by
  cases m with
  | give full key => exact serves_register serves
  | fetchOn same => exact serves.of_eq rfl rfl (congrArg (KeyMap.get? · codeKey) same)
  | readOn same => exact serves.of_eq rfl rfl (congrArg (KeyMap.get? · codeKey) same)
  | load loads => exact serves.of_eq rfl rfl (get?_insert_of_ne other)
  | writeOn change =>
      rcases change with same | kept
      · exact serves.of_eq rfl rfl (congrArg (KeyMap.get? · codeKey) same)
      · refine serves.of_eq rfl rfl ((congrArg (KeyMap.get? · codeKey) kept).trans ?_)
        exact get?_insert_of_ne other
  | @publish b t record =>
      have own : record.key = k := sound.made rfl
      have same : (d.publish k t.since record b).state.cache.stale.get? codeKey =
            b.state.cache.stale.get? codeKey ∧
          (d.publish k t.since record b).state.cache.get? codeKey =
            b.state.cache.get? codeKey := by
        show (if _ then _ else _ : CodeCache).stale.get? codeKey = _ ∧
          (if _ then _ else _ : CodeCache).get? codeKey = _
        split
        · exact (CodeCache.insert_other (own ▸ other)).symm
        · exact CodeCache.refresh_other other
      exact serves.of_eq same.1 same.2 rfl
  | found =>
      unfold Bench.note
      split
      · exact serves
      · exact serves
  | _ => exact serves

theorem path_serves_other {d : Compiler π} {k : String}
    (path : (compilePlan d input k).Path a b a' b')
    (other : codeKey ≠ k) (bench : b.Sound) (sound : a.Sound k b)
    (serves : b.Serves c content codeKey) : b'.Serves c content codeKey := by
  induction path with
  | refl => exact serves
  | tail path m ih =>
      obtain ⟨-, -, sound'⟩ := path_sound path bench sound
      exact Move.serves_other m other sound' ih

/-- How a compile that begins after the registration rests between its stretches. -/
def Stage.Resting (c : Compiler π) (content : Content) (first : Nat) : Stage → Prop
  | waiting t => c.settings.policy.mayWrite = true ∧ t.given = none ∧ first ≤ t.number
  | writing _ renderer => c.settings.policy.mayWrite = true ∧
      c.generator.generate content c.settings.generator = .ok renderer
  | finished result => c.Yields content result
  | _ => False

/-- Where a stretch ends, the key is free again, or code is kept in the store. -/
theorem Stage.Making.rests (making : a.Making c content codeKey first b) (stops : a.Stops b) :
    a.Resting c content first ∧ b.Idle c codeKey := by
  have keeps {p : Prop} (mayWrite : c.settings.policy.mayWrite = true)
      (mayNotWrite : c.settings.policy.mayWrite = false) : p := by
    rw [mayNotWrite] at mayWrite
    exact nomatch mayWrite
  rcases stops with ⟨result, rfl⟩ | rests
  · exact making
  · cases a with
    | waiting t =>
        cases mayWrite : c.settings.policy.mayWrite with
        | true => exact ⟨⟨mayWrite, making.1, making.2.1⟩, keeps mayWrite⟩
        | false =>
            have due := (making.2.2.2 mayWrite).1
            rw [show b.state.flights.isDue t.number t.caller = false from rests] at due
            exact nomatch due
    | fetching t => exact making.elim
    | reading t => exact making.elim
    | writing t renderer => exact ⟨making, keeps making.1⟩
    | _ => exact rests.elim

theorem Stage.Resting.making (resting : a.Resting c content first) (idle : b.Idle c codeKey) :
    a.Making c content codeKey first b := by
  cases a with
  | waiting t =>
      obtain ⟨mayWrite, bare, later⟩ := resting
      refine ⟨bare, later, fun mayNotWrite => ?_, fun mayNotWrite => ?_⟩
      · rw [mayNotWrite] at mayWrite
        exact nomatch mayWrite
      · rw [mayNotWrite] at mayWrite
        exact nomatch mayWrite
  | writing t renderer => exact resting
  | finished result => exact ⟨resting, idle⟩
  | _ => exact resting.elim

end

namespace Session

variable {c : Compiler π} {content : Content} {contentKey codeKey : String} {first since : Nat}
  {s : Session π} {ps : Nat → Progress π} {e : Event π}

/-- What may happen after the registration, so that it keeps its effect: the content stays
registered, no other content is compiled under the code key, and a compile of the key that began
earlier leaves the key stale or with renderers of the content, as do all calls but compiles. -/
structure Respects (c : Compiler π) (content : Content) (contentKey codeKey : String)
    (since : Nat) (s : Session π) (e : Event π) : Prop where
  holds : (step c s e).bench.Holds contentKey content
  alone : ∀ input, e = .ask (.compile input) →
    input.address.key c.store.resolver .code = .ok codeKey →
    input.content = none ∧ input.address.key c.store.resolver .content = .ok contentKey
  serves : (∃ j input k, s.compiles e = some (j, input) ∧
      input.address.key c.store.resolver .code = .ok k ∧ (k = codeKey → since ≤ j)) ∨
    (step c s e).bench.Serves c content codeKey

/-- The invariant of sessions after the registration. -/
structure Minds (c : Compiler π) (content : Content) (contentKey codeKey : String)
    (first since : Nat) (s : Session π) (ps : Nat → Progress π) : Prop where
  bench : s.bench.Minds c content contentKey codeKey first
  idle : s.bench.Idle c codeKey
  asked : since ≤ s.calls.length
  older : ∀ {j d input stage t}, j < since → ps j = .compiling d input codeKey stage →
    stage.ticket? = some t → t.number < first
  newer : ∀ {j d input stage}, since ≤ j → j < s.calls.length →
    ps j = .compiling d input codeKey stage → d = c ∧ input.content = none ∧
      input.address.key c.store.resolver .content = .ok contentKey ∧
      stage.Resting c content first

/-- An event that is not due to a later compile of the key keeps the bench in order. -/
theorem Minds.foreign (minds : s.Minds c content contentKey codeKey first since ps)
    (respects : Respects c content contentKey codeKey since s e)
    (serves : (step c s e).bench.Serves c content codeKey)
    (guarded : (step c s e).bench.state.flights.Guarded (c.MadeFrom content) codeKey first)
    (current : ∀ n, (step c s e).bench.state.flights.current.get? codeKey = some n →
      s.bench.state.flights.current.get? codeKey = some n) :
    (step c s e).bench.Minds c content contentKey codeKey first ∧
      (step c s e).bench.Idle c codeKey := by
  refine ⟨⟨respects.holds, serves, guarded⟩, fun mayNotWrite => ?_⟩
  cases leads : (step c s e).bench.state.flights.current.get? codeKey with
  | none => rfl
  | some n =>
      have before := current n leads
      rw [minds.idle mayNotWrite] at before
      exact nomatch before

/-- The invariant after an event in which one compile went on. -/
theorem Minds.update {j : Nat} {d : Compiler π} {input : CompileInput} {codeKey' : String}
    {stage : Stage} (minds : s.Minds c content contentKey codeKey first since ps)
    (bench : (step c s e).bench.Minds c content contentKey codeKey first ∧
      (step c s e).bench.Idle c codeKey)
    (older : j < since → codeKey' = codeKey → ∀ t, stage.ticket? = some t → t.number < first)
    (newer : since ≤ j → codeKey' = codeKey → d = c ∧ input.content = none ∧
      input.address.key c.store.resolver .content = .ok contentKey ∧
      stage.Resting c content first)
    (there : ∀ i, i ≠ j → i < (step c s e).calls.length → i < s.calls.length) :
    (step c s e).Minds c content contentKey codeKey first since
      (Function.update ps j (.compiling d input codeKey' stage)) where
  bench := bench.1
  idle := bench.2
  asked := Nat.le_trans minds.asked (calls_step e)
  older := by
    intro i d' input' stage' t before now sits
    by_cases own : i = j
    · subst own
      rw [Function.update_self] at now
      cases now
      exact older before rfl t sits
    · rw [Function.update_of_ne own] at now
      exact minds.older before now sits
  newer := by
    intro i d' input' stage' later asked now
    by_cases own : i = j
    · subst own
      rw [Function.update_self] at now
      cases now
      exact newer later rfl
    · rw [Function.update_of_ne own] at now
      exact minds.newer later (there i own asked) now

theorem Minds.begin (caching : c.settings.caching = true)
    (traced : s.Traced c ps)
    (minds : s.Minds c content contentKey codeKey first since ps) {input : CompileInput}
    {codeKey' : String} {stage : Stage}
    (respects : Respects c content contentKey codeKey since s (.ask (.compile input)))
    (named : input.address.key c.store.resolver .code = .ok codeKey')
    (path : (compilePlan c input codeKey').Path .asked s.bench stage
      (step c s (.ask (.compile input))).bench)
    (stops : stage.Stops (step c s (.ask (.compile input))).bench) :
    (step c s (.ask (.compile input))).Minds c content contentKey codeKey first since
      (Function.update ps s.calls.length (.compiling c input codeKey' stage)) := by
  have there i (other : i ≠ s.calls.length)
      (asked : i < (step c s (.ask (.compile input))).calls.length) : i < s.calls.length := by
    replace asked : i < (s.calls ++ [_]).length := asked
    rw [List.length_append, List.length_singleton] at asked
    omega
  by_cases own : codeKey' = codeKey
  · subst own
    obtain ⟨bare, key⟩ := respects.alone input rfl named
    obtain ⟨bench, making⟩ := path_making path caching bare key traced.bench stage_sound_asked
      minds.bench minds.idle
    obtain ⟨resting, idle⟩ := making.rests stops
    refine minds.update ⟨bench, idle⟩ ?_ (fun _ _ => ⟨rfl, bare, key, resting⟩) there
    intro before
    exact absurd before (Nat.not_lt.2 minds.asked)
  · refine minds.update (minds.foreign respects ?_ ?_ ?_) (fun _ same => absurd same own)
      (fun _ same => absurd same own) there
    · exact path_serves_other path (Ne.symm own) traced.bench stage_sound_asked minds.bench.serves
    · exact minds.bench.guarded.path path traced.bench stage_sound_asked (.inl (Ne.symm own))
    · exact fun n leads => path_current_other path (Ne.symm own) leads

theorem Minds.proceed (caching : c.settings.caching = true)
    (traced : s.Traced c ps)
    (minds : s.Minds c content contentKey codeKey first since ps) {j : Nat} {d : Compiler π}
    {input : CompileInput} {codeKey' : String} {stage stage' : Stage}
    (respects : Respects c content contentKey codeKey since s (.turn j))
    (there : j < s.calls.length) (now : ps j = .compiling d input codeKey' stage)
    (path : (compilePlan d input codeKey').Path stage s.bench stage' (step c s (.turn j)).bench)
    (stops : stage'.Stops (step c s (.turn j)).bench) :
    (step c s (.turn j)).Minds c content contentKey codeKey first since
      (Function.update ps j (.compiling d input codeKey' stage')) := by
  obtain ⟨goes, named⟩ := traced.compiles there now
  obtain ⟨sound, boarded⟩ := traced.stages there now
  have same i (_ : i ≠ j) (asked : i < (step c s (.turn j)).calls.length) : i < s.calls.length := by
    rwa [calls_turn] at asked
  by_cases later : codeKey' = codeKey ∧ since ≤ j
  · obtain ⟨rfl, later⟩ := later
    obtain ⟨rfl, bare, key, resting⟩ := minds.newer later there now
    obtain ⟨bench, making⟩ := path_making path caching bare key traced.bench sound minds.bench
      (resting.making minds.idle)
    obtain ⟨resting', idle⟩ := making.rests stops
    refine minds.update ⟨bench, idle⟩ ?_ (fun _ _ => ⟨rfl, bare, key, resting'⟩) same
    intro before
    exact absurd before (Nat.not_lt.2 later)
  · have earlier (own : codeKey' = codeKey) : j < since := by
      by_contra asked
      exact later ⟨own, Nat.le_of_not_lt asked⟩
    refine minds.update (minds.foreign respects ?_ ?_ ?_) ?_ ?_ same
    · by_cases own : codeKey' = codeKey
      · rcases respects.serves with ⟨i, input', k, goes', named', late⟩ | serves
        · rw [goes] at goes'
          cases goes'
          rw [named] at named'
          cases named'
          exact absurd ⟨own, late own⟩ later
        · exact serves
      · exact path_serves_other path (Ne.symm own) traced.bench sound minds.bench.serves
    · refine minds.bench.guarded.path path traced.bench sound ?_
      by_cases own : codeKey' = codeKey
      · subst own
        exact .inr ⟨boarded, fun t sits => minds.older (earlier rfl) now sits⟩
      · exact .inl (Ne.symm own)
    · exact fun n leads => path_current_boarded path boarded leads
    · intro before own t sits
      subst own
      exact minds.older before now ((path_boarded path boarded).2 t sits)
    · intro asked own
      exact absurd ⟨own, asked⟩ later

theorem Minds.step (lawful : c.store.Lawful) (caching : c.settings.caching = true)
    (traced : s.Traced c ps)
    (minds : s.Minds c content contentKey codeKey first since ps)
    (respects : Respects c content contentKey codeKey since s e) :
    ∃ ps', (Session.step c s e).Traced c ps' ∧
      (Session.step c s e).Minds c content contentKey codeKey first since ps' := by
  obtain ⟨ps', change, traced'⟩ := traced.step lawful e
  refine ⟨ps', traced', ?_⟩
  generalize bench : (Session.step c s e).bench = b at change
  cases change with
  | begin named path stops =>
      subst bench
      exact minds.begin caching traced respects named path stops
  | proceed there now path stops =>
      subst bench
      exact minds.proceed caching traced respects there now path stops
  | other kept new sheds free =>
      subst bench
      have serves : (Session.step c s e).bench.Serves c content codeKey := by
        rcases respects.serves with ⟨j, input, k, goes, named, -⟩ | serves
        · exact absurd named (free j input k goes)
        · exact serves
      obtain ⟨order, idle⟩ := minds.foreign respects serves (minds.bench.guarded.sheds sheds)
        fun n leads => sheds.current leads
      refine ⟨order, idle, Nat.le_trans minds.asked (calls_step e), ?_, ?_⟩
      · intro j d input stage t before now sits
        rw [kept j (Nat.lt_of_lt_of_le before minds.asked)] at now
        exact minds.older before now sits
      · intro j d input stage later asked now
        by_cases before : j < s.calls.length
        · rw [kept j before] at now
          exact minds.newer later before now
        · rw [new j (Nat.le_of_not_lt before) asked] at now
          exact nomatch now

/-- The invariant holds all along a run. -/
theorem Minds.run (lawful : c.store.Lawful) (caching : c.settings.caching = true)
    (traced : s.Traced c ps)
    (minds : s.Minds c content contentKey codeKey first since ps) {events : List (Event π)}
    (respects : Along c (Respects c content contentKey codeKey since) s events) :
    ∃ ps', (Session.run c s events).Traced c ps' ∧
      (Session.run c s events).Minds c content contentKey codeKey first since ps' := by
  induction events generalizing s ps with
  | nil => exact ⟨ps, traced, minds⟩
  | cons e rest ih =>
      obtain ⟨ps', traced', minds'⟩ := minds.step lawful caching traced respects.1
      exact ih traced' minds' respects.2

end Session

/-! ## Registering -/

/-- The stages of a compile whose code key is cached. -/
def Stage.Serving (codeKey : String) (record : CodeRecord) (b : Bench π) : Stage → Prop
  | asked => b.state.cache.get? codeKey = some record
  | registered _ => b.state.cache.get? codeKey = some record
  | finished result => result = .ok record
  | _ => False

theorem path_serving {c : Compiler π} {input : CompileInput} {codeKey : String}
    {record : CodeRecord} {b b' : Bench π} {a' : Stage}
    (path : (compilePlan c input codeKey).Path .asked b a' b')
    (caching : c.settings.caching = true) (bare : input.content = none)
    (cached : b.state.cache.get? codeKey = some record) : a'.Serving codeKey record b' := by
  refine path.keeps (fun a b => a.Serving codeKey record b) ?_ cached
  intro a d b d' m serving
  cases m with
  | bare => exact serving
  | unplaced full =>
      rw [bare] at full
      exact nomatch full
  | give full =>
      rw [bare] at full
      exact nomatch full
  | hit _ found =>
      cases found.symm.trans serving
      rfl
  | board missed => exact nomatch (missed caching).symm.trans serving
  | _ => exact serving.elim

namespace Session

variable {c : Compiler π} {s : Session π} {ps : Nat → Progress π} {name : String}
  {content : Content} {contentKey codeKey : String}

theorem bench_register
    (named : c.store.resolver.resolve name .content none none = .ok contentKey) :
    (step c s (.ask (.register name content))).bench = (Bench.register c.store.resolver
      (.make name contentKey content .explicit none none) s.bench).2 := by
  simp only [step, Command.work, Compiler.register, named]
  rfl

/-- A registration that changes the content makes its code key stale and free. -/
theorem settled_of_changed
    (named : c.store.resolver.resolve name .content none none = .ok contentKey)
    (coded : c.store.resolver.resolve name .code none none = .ok codeKey)
    (changed : (s.bench.state.registry.register
      (.make name contentKey content .explicit none none)).1.2.changed = true) :
    (step c s (.ask (.register name content))).bench.Settled c content contentKey codeKey := by
  obtain ⟨overridden, stored, registry⟩ := Registry.register_changed changed
  have bench := (bench_register named).trans (Bench.register_changed changed)
  have invalidated : codeKey ∈ Bench.codeKeys c.store.resolver (s.bench.state.registry.register
      (.make name contentKey content .explicit none none)).1.1 := by
    rw [stored]
    exact Bench.plain_mem_codeKeys rfl coded
  refine ⟨?_, fun fresh => ?_, ?_⟩
  · unfold Bench.Holds
    rw [bench, Bench.registry_invalidate]
    show ∃ record, (Registry.byKey (Prod.snd _)).get? contentKey = some record ∧ _
    rw [registry]
    exact ⟨_, (KeyMap.get?_insert _ _ _ _).trans (if_pos rfl), rfl⟩
  · rw [bench, Bench.cache_invalidate, CodeCache.isStale, KeyMap.contains,
      CodeCache.stale_invalidate, if_pos invalidated] at fresh
    exact nomatch fresh
  · rw [bench, Bench.current_invalidate, if_pos invalidated]

/-- One that changes nothing leaves everything as it is. -/
theorem settled_of_unchanged
    (named : c.store.resolver.resolve name .content none none = .ok contentKey)
    (same : (s.bench.state.registry.register
      (.make name contentKey content .explicit none none)).1.2.changed = false)
    (settled : s.bench.Settled c content contentKey codeKey) :
    (step c s (.ask (.register name content))).bench.Settled c content contentKey codeKey := by
  rw [bench_register named, Bench.register_unchanged same, Registry.register_unchanged same]
  exact settled

/-- The invariant holds right after the registration. -/
theorem minds_start
    (settled :
      (step c s (.ask (.register name content))).bench.Settled c content contentKey codeKey)
    (traced : (step c s (.ask (.register name content))).Traced c ps) :
    let t := step c s (.ask (.register name content))
    t.Minds c content contentKey codeKey t.bench.state.flights.all.length t.calls.length ps := by
  intro t
  obtain ⟨holds, serves, free⟩ := settled
  refine ⟨⟨holds, serves, Flights.Yields.start.guard free⟩, fun _ => free, Nat.le_refl _, ?_, ?_⟩
  · intro j d input stage number before now sits
    exact ((traced.stages before now).1.seat sits).1
  · intro j d input stage later asked
    exact absurd asked (Nat.not_lt.2 later)

/-- What is cached under a code key is served at once, whoever put it there. -/
theorem cached_is_served (lawful : c.store.Lawful) (caching : c.settings.caching = true)
    {input : CompileInput} {record : CodeRecord} (bare : input.content = none)
    (coded : input.address.key c.store.resolver .code = .ok codeKey)
    (cached : s.bench.state.cache.get? codeKey = some record) :
    (step c s (.ask (.compile input))).renderer? s.calls.length = some record := by
  refine answered_at_once lawful coded fun {stage b} path stops => ?_
  have serving := path_serving path caching bare cached
  rcases stops with ⟨result, rfl⟩ | rests
  · exact congrArg Stage.finished serving
  · cases stage with
    | waiting t => exact serving.elim
    | fetching t => exact serving.elim
    | reading t => exact serving.elim
    | writing t renderer => exact serving.elim
    | _ => exact rests.elim

/-- A compile of a name that begins after a registration and returns a renderer, returns one made
from the registered content, in every run that respects the registration. One that changes nothing
has to find the content settled. The last condition of `Respects` cannot go: what is cached under
the code key is what the next compile returns. -/
theorem registered_content_is_compiled (lawful : c.store.Lawful)
    (caching : c.settings.caching = true) (reached : c.Reaches s)
    (named : c.store.resolver.resolve name .content none none = .ok contentKey)
    (coded : c.store.resolver.resolve name .code none none = .ok codeKey)
    (fits : (s.bench.state.registry.register
        (.make name contentKey content .explicit none none)).1.2.changed = true ∨
      s.bench.Settled c content contentKey codeKey) :
    let t := step c s (.ask (.register name content))
    (∀ events, Along c (Respects c content contentKey codeKey t.calls.length) t events →
      ∀ j call record, t.calls.length ≤ j → (run c t events).calls[j]? = some call →
        call.command = .compile ⟨⟨name, none, none⟩, none⟩ →
        (run c t events).renderer? j = some record → c.MadeFrom content record) ∧
    ∀ u record, u.bench.state.cache.get? codeKey = some record →
      (step c u (.ask (.compile ⟨⟨name, none, none⟩, none⟩))).renderer? u.calls.length =
        some record := by
  intro t
  refine ⟨?_, fun u record cached => cached_is_served lawful caching rfl coded cached⟩
  intro events respects j call record later there asked returned
  obtain ⟨ps, traced⟩ := reached.traced lawful
  obtain ⟨ps, -, traced⟩ := traced.step lawful (.ask (.register name content))
  have settled : t.bench.Settled c content contentKey codeKey := by
    cases changed : (s.bench.state.registry.register
        (.make name contentKey content .explicit none none)).1.2.changed with
    | true => exact settled_of_changed named coded changed
    | false => exact settled_of_unchanged named changed (fits.resolve_left (by simp [changed]))
  obtain ⟨ps, traced, minds⟩ :=
    (minds_start settled traced).run lawful caching traced respects
  have fits := traced.fits there
  cases now : ps j with
  | compiling d input codeKey' stage =>
      rw [now] at fits
      obtain ⟨-, same, named', -⟩ := fits
      rw [asked] at same
      cases same
      rw [show Address.key ⟨name, none, none⟩ c.store.resolver .code = .ok codeKey from coded]
        at named'
      cases named'
      obtain ⟨before, -⟩ := List.getElem?_eq_some_iff.1 there
      obtain ⟨-, -, -, resting⟩ := minds.newer later before now
      obtain rfl := traced.renderer now returned
      exact resting record rfl
  | other =>
      rw [now] at fits
      exact absurd coded (fits.2 _ codeKey asked)

end Session

/-! ## Overtaken registrations -/

namespace Sample

open Session

def post : Event Unit := .ask (.register "a" (.text "new"))

/-- A compile that began earlier is under way when the text is replaced. -/
def posted : Session Unit := step slow (run slow (start shelf) [ask]) post

end Sample

open Sample Session

/-- It is through before the next compile begins, so the key is still stale when it ends. -/
theorem posted_text_is_compiled :
    ∃ record, (run slow posted [pass, .turn 0, ask]).renderer? 2 = some record ∧
      slow.MadeFrom (.text "new") record := by
  have respects : Along slow (Respects slow (.text "new") "partials/a.html"
      "partials/a.html.compiled" 2) posted [pass, .turn 0, ask] := by
    refine ⟨⟨⟨_, rfl, rfl⟩, nofun, .inr fun fresh => ?_⟩,
      ⟨⟨_, rfl, rfl⟩, nofun, .inr fun fresh => ?_⟩,
      ⟨⟨_, rfl, rfl⟩, ?_, .inl ⟨2, _, _, rfl, rfl, fun _ => Nat.le_refl _⟩⟩, trivial⟩
    · exact absurd fresh (by decide)
    · exact absurd fresh (by decide)
    · rintro input ⟨⟩ -
      exact ⟨rfl, rfl⟩
  have returned : ((run slow posted [pass, .turn 0, ask]).renderer? 2).isSome = true := by
    decide
  obtain ⟨record, returned⟩ := Option.isSome_iff_exists.1 returned
  refine ⟨record, returned, ?_⟩
  exact (registered_content_is_compiled (Store.delayed_lawful 100) rfl
    ⟨shelf, [ask], shelf_keyed, rfl⟩ rfl rfl (.inl rfl)).1 _ respects 2 _ _ (Nat.le_refl _) rfl rfl
    returned

/-- It is through only after a later compile, which ended the staleness of the key: its renderer of
the old text is cached, and the compile that begins last returns it. -/
theorem posted_text_is_overtaken :
    let s := run slow posted [ask, pass, .turn 0, ask]
    s.bench.Holds "partials/a.html" (.text "new") ∧
      ∃ record, s.renderer? 3 = some record ∧ ¬slow.MadeFrom (.text "new") record := by
  intro s
  have returned : (s.renderer? 3).map (·.renderer.source) = some (some "old") := by
    decide
  obtain ⟨record, returned, old⟩ := Option.map_eq_some_iff.1 returned
  refine ⟨⟨_, rfl, rfl⟩, record, returned, fun made => ?_⟩
  replace made : some (some "new") = some record.renderer.source :=
    congrArg (Option.map Renderer.source) (congrArg Except.toOption made)
  rw [old] at made
  exact absurd made (by decide)

end TemplateCache
