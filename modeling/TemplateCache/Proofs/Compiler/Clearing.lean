import TemplateCache.Proofs.Compiler.Trace
import TemplateCache.Proofs.Store.Lawful

/-!
# Compiling after a clearing

A clearing empties registry, cache and overlay at once, and bars what began before it from the
first two for good. It leaves the flights alone, and the overlay takes what is put there later. So
what later compiles return is new as long as they join no earlier flight of their key and no
earlier compile puts a renderer of the key into the overlay.
-/

namespace TemplateCache

variable {π : Type}

/-- A renderer that the generator of a compiler makes of some content, or loads. -/
def Compiler.Makes (c : Compiler π) (renderer : Renderer) : Prop :=
  (∃ content, c.generator.generate content c.settings.generator = .ok renderer) ∨
    ∃ source, c.generator.load source c.settings.generator = .ok renderer

section

variable (c : Compiler π) (codeKey : String) (first : Nat)

/-- What a compile of the key may find has been made by the compiler. -/
structure Bench.Renewed (b : Bench π) : Prop where
  cached : ∀ {record}, b.state.cache.get? codeKey = some record → c.Makes record.renderer
  kept : ∀ {record}, b.site.overlay.code.get? codeKey = some record → c.Makes record.renderer
  yields : b.state.flights.Yields (fun record => c.Makes record.renderer) codeKey first

/-- The stages of a compile that joins no flight before the `first`. -/
def Stage.Renewed (b : Bench π) : Stage → Prop
  | asked | registered _ => ∀ n, b.state.flights.current.get? codeKey = some n → first ≤ n
  | waiting t => first ≤ t.number
  | writing _ renderer => c.Makes renderer
  | made _ record => c.Makes record.renderer
  | ended _ result | leaving _ result | finished result =>
    ∀ record, result = .ok record → c.Makes record.renderer
  | _ => True

end

section

variable {c : Compiler π} {codeKey : String} {first : Nat} {input : CompileInput} {a a' : Stage}
  {b b' : Bench π}

theorem Bench.Renewed.sheds (renewed : b.Renewed c codeKey first) (sheds : b.Sheds b') :
    b'.Renewed c codeKey first where
  cached found := renewed.cached (sheds.cached found)
  kept found := renewed.kept (sheds.code _ _ found)
  yields := renewed.yields.sheds sheds

/-- What is put into the overlay under the key was made by the compiler. -/
theorem Bench.Renewed.keep (renewed : b.Renewed c codeKey first)
    (cache : b'.state.cache = b.state.cache) (flights : b'.state.flights = b.state.flights)
    {key name : String} {renderer : Renderer} (makes : c.Makes renderer)
    (kept : b'.site.overlay.code = b.site.overlay.code.insert key ⟨key, name, renderer⟩) :
    b'.Renewed c codeKey first where
  cached found := by
    rw [cache] at found
    exact renewed.cached found
  kept found := by
    rw [kept, KeyMap.get?_insert] at found
    split at found
    · cases found
      exact makes
    · exact renewed.kept found
  yields := by
    rw [flights]
    exact renewed.yields

/-- What is cached under the key was made by the compiler. -/
theorem Bench.Renewed.publish (renewed : b.Renewed c codeKey first) {record : CodeRecord}
    (makes : c.Makes record.renderer) (since : Nat) :
    (c.publish codeKey since record b).Renewed c codeKey first where
  cached found := by
    replace found : CodeCache.get? (if _ then _ else _) codeKey = some _ := found
    split at found
    · by_cases own : codeKey = record.key
      · cases outdated : b.state.cache.isOutdated record.key since with
        | true =>
            rw [CodeCache.insert_outdated outdated] at found
            exact renewed.cached found
        | false =>
            rw [CodeCache.insert_fresh outdated] at found
            replace found : (b.state.cache.entries.insert record.key record).get? codeKey =
              some _ := found
            rw [KeyMap.get?_insert, if_pos own] at found
            cases found
            exact makes
      · rw [(CodeCache.insert_other own).1] at found
        exact renewed.cached found
    · have same : (b.state.cache.refresh codeKey since).get? codeKey =
          b.state.cache.get? codeKey := by
        unfold CodeCache.refresh
        split
        · rfl
        · rfl
      rw [same] at found
      exact renewed.cached found
  kept := renewed.kept
  yields := renewed.yields

/-- What one move of a compile does that joins no earlier flight. -/
theorem Move.renewed (m : Move c input codeKey a b a' b') (sound : a.Sound codeKey b)
    (bench : b.Renewed c codeKey first) (stage : a.Renewed c codeKey first b) :
    b'.Renewed c codeKey first ∧ a'.Renewed c codeKey first b' := by
  have yields := bench.yields.move m
  cases m with
  | bare => exact ⟨bench, stage⟩
  | unplaced => exact ⟨bench, nofun⟩
  | give full key =>
      exact ⟨bench.sheds (Bench.sheds_register _),
        fun n leads => stage n ((Bench.sheds_register _).current leads)⟩
  | hit _ cached =>
      refine ⟨bench, ?_⟩
      rintro record ⟨⟩
      exact bench.cached cached
  | board missed =>
      refine ⟨⟨bench.cached, bench.kept, yields nofun⟩, ?_⟩
      show first ≤ (b.state.flights.join codeKey).1.1
      cases leads : b.state.flights.current.get? codeKey with
      | some n =>
          rw [Flights.join_boarded leads]
          exact stage n leads
      | none =>
          rw [Flights.join_new leads]
          exact bench.yields.room
  | share landed =>
      obtain ⟨-, own, -⟩ := sound.seat rfl
      refine ⟨bench, ?_⟩
      rintro record ⟨⟩
      exact bench.yields.results stage own landed
  | turn => exact ⟨bench, trivial⟩
  | take asks kept => exact ⟨bench.sheds (.ofSite rfl rfl fun _ _ => id), bench.kept kept⟩
  | fetch => exact ⟨bench.sheds (.ofSite rfl rfl fun _ _ => id), trivial⟩
  | seek => exact ⟨bench.sheds (.ofSite rfl rfl fun _ _ => id), trivial⟩
  | fetchOn same => exact ⟨bench.sheds (.ofSite rfl rfl same.losesCode), trivial⟩
  | load loads => exact ⟨bench.keep rfl rfl (.inr ⟨_, loads⟩) rfl, .inr ⟨_, loads⟩⟩
  | unreadable => exact ⟨bench.sheds (.ofSite rfl rfl fun _ _ => id), trivial⟩
  | fetchNothing => exact ⟨bench, trivial⟩
  | fetchFails => exact ⟨bench, nofun⟩
  | seekFails => exact ⟨bench, nofun⟩
  | given => exact ⟨bench, trivial⟩
  | serve => exact ⟨bench, trivial⟩
  | read => exact ⟨bench, trivial⟩
  | readOn same => exact ⟨bench.sheds (.ofSite rfl rfl same.losesCode), trivial⟩
  | found => exact ⟨bench.sheds sheds_note, trivial⟩
  | readFails => exact ⟨bench, nofun⟩
  | refuse => exact ⟨bench.sheds (.ofSite rfl rfl fun _ _ => id), nofun⟩
  | keep _ generates =>
      exact ⟨bench.sheds (.ofSite rfl rfl fun _ _ => id), .inl ⟨_, generates⟩⟩
  | generate _ generates =>
      exact ⟨bench.sheds (.ofSite rfl rfl fun _ _ => id), .inl ⟨_, generates⟩⟩
  | writeOn change =>
      rcases change with same | kept
      · exact ⟨bench.sheds (.ofSite rfl rfl same.losesCode), stage⟩
      · exact ⟨bench.keep rfl rfl stage kept, stage⟩
  | written => exact ⟨bench, stage⟩
  | writeFails => exact ⟨bench, nofun⟩
  | publish =>
      refine ⟨bench.publish stage _, ?_⟩
      rintro record ⟨⟩
      exact stage
  | land =>
      refine ⟨⟨bench.cached, bench.kept, yields ?_⟩, stage⟩
      rintro t record ⟨⟩
      exact stage _ rfl
  | handOver => exact ⟨⟨bench.cached, bench.kept, yields nofun⟩, stage⟩
  | leave => exact ⟨⟨bench.cached, bench.kept, yields nofun⟩, stage⟩

theorem path_renewed (path : (compilePlan c input codeKey).Path a b a' b') (sound : b.Sound)
    (seat : a.Sound codeKey b) (bench : b.Renewed c codeKey first)
    (stage : a.Renewed c codeKey first b) :
    b'.Renewed c codeKey first ∧ a'.Renewed c codeKey first b' := by
  induction path with
  | refl => exact ⟨bench, stage⟩
  | tail path m ih =>
      obtain ⟨-, -, seat'⟩ := path_sound path sound seat
      exact Move.renewed m seat' ih.1 ih.2

/-- A compile of another key, or one that began earlier and is barred, keeps what a compile of the
key may find, if it puts no renderer of the key into the overlay. -/
theorem path_foreign {d : Compiler π} {key : String} {e : Nat}
    (path : (compilePlan d input key).Path a b a' b') (sound : b.Sound) (seat : a.Sound key b)
    (bench : b.Renewed c codeKey first)
    (foreign : codeKey ≠ key ∨ (a.Boarded ∧ b.state.cache.isOutdated key e = true ∧
      (∀ t, a.ticket? = some t → t.number < first ∧ t.since ≤ e) ∧
      ∀ record, b'.site.overlay.code.get? codeKey = some record →
        b.site.overlay.code.get? codeKey = some record)) : b'.Renewed c codeKey first := by
  rcases foreign with other | ⟨boarded, outdated, earlier, spared⟩
  · refine ⟨fun found => ?_, fun found => ?_, ?_⟩
    · exact bench.cached (path_cached_other path other sound seat found)
    · exact bench.kept (path_code_other path other found)
    · exact bench.yields.path path sound seat (.inl other)
  · refine ⟨fun found => ?_, fun found => bench.kept (spared _ found), ?_⟩
    · rw [(path_barred path sound seat boarded fun t sits =>
        CodeCache.isOutdated_of_le (earlier t sits).2 outdated).1] at found
      exact bench.cached found
    · exact bench.yields.path path sound seat
        (.inr ⟨boarded, fun t sits => (earlier t sits).1⟩)

/-- Once a compile has boarded, its stage does not depend on the bench. -/
theorem Stage.Renewed.elsewhere (stage : a.Renewed c codeKey first b) (boarded : a.Boarded)
    (d : Bench π) : a.Renewed c codeKey first d := by
  rcases boarded with ⟨t, sits⟩ | ⟨result, rfl⟩
  · cases a with
    | asked => exact nomatch sits
    | registered given => exact nomatch sits
    | _ => exact stage
  · exact stage

end

/-! ## What is left behind -/

section

variable {c : Compiler π} {codeKey : String} {input : CompileInput} {a a' : Stage} {b b' : Bench π}
  {record : CodeRecord}

/-- The stages of a compile that finds a renderer in the overlay. -/
def Stage.Taking (codeKey : String) (record : CodeRecord) (b : Bench π) : Stage → Prop
  | asked => b.state.cache.get? codeKey = none ∧ b.state.flights.current.get? codeKey = none ∧
      b.state.cache.isStale codeKey = false ∧ b.site.overlay.code.get? codeKey = some record
  | registered given => given = none ∧ b.state.cache.get? codeKey = none ∧
      b.state.flights.current.get? codeKey = none ∧ b.state.cache.isStale codeKey = false ∧
      b.site.overlay.code.get? codeKey = some record
  | waiting t => t.given = none ∧ (b.state.flights.flight t.number).result = none ∧
      b.state.flights.isDue t.number t.caller = true ∧ b.state.cache.isStale codeKey = false ∧
      b.site.overlay.code.get? codeKey = some record
  | called t => t.given = none ∧ b.state.cache.isStale codeKey = false ∧
      b.site.overlay.code.get? codeKey = some record
  | made _ found => found = record
  | ended _ result | leaving _ result | finished result => result = .ok record
  | _ => False

theorem Move.taking (m : Move c input codeKey a b a' b') (caching : c.settings.caching = true)
    (bare : input.content = none) (taking : a.Taking codeKey record b) :
    a'.Taking codeKey record b' := by
  cases m with
  | bare => exact ⟨rfl, taking⟩
  | unplaced full => exact nomatch bare.symm.trans full
  | give full => exact nomatch bare.symm.trans full
  | hit _ cached => exact nomatch taking.2.1.symm.trans cached
  | board =>
      obtain ⟨given, -, free, fresh, kept⟩ := taking
      have seat := Flights.flight_join_new (f := b.state.flights) free
      refine ⟨given, ?_, ?_, fresh, kept⟩
      · show ((b.state.flights.join codeKey).2.flight _).result = none
        rw [Flights.join_new free, seat]
      · show Flights.isDue (b.state.flights.join codeKey).2 _ _ = true
        unfold Flights.isDue
        rw [Flights.join_new free, seat]
        simp
  | share landed => exact nomatch taking.2.1.symm.trans landed
  | turn => exact ⟨taking.1, taking.2.2.2⟩
  | take asks kept => exact Option.some.inj (kept.symm.trans taking.2.2)
  | fetch _ _ missing => exact nomatch taking.2.2.symm.trans missing
  | seek nothing =>
      obtain ⟨given, fresh, kept⟩ := taking
      refine nomatch kept.symm.trans (nothing ?_).2
      unfold Ticket.asksForCode
      rw [caching, given, fresh]
      rfl
  | publish => exact congrArg Except.ok taking
  | land => exact taking
  | handOver => exact nomatch taking
  | leave => exact taking
  | _ => exact taking.elim

/-- A renderer that is in the overlay under a key is what the next compile of the key returns. -/
theorem Stage.Taking.ends (taking : a.Taking codeKey record b) (stops : a.Stops b) :
    a = .finished (.ok record) := by
  rcases stops with ⟨result, rfl⟩ | rests
  · exact congrArg Stage.finished taking
  · cases a with
    | waiting t =>
        have due := taking.2.2.1
        rw [show b.state.flights.isDue t.number t.caller = false from rests] at due
        exact nomatch due
    | fetching t => exact taking.elim
    | reading t => exact taking.elim
    | writing t renderer => exact taking.elim
    | _ => exact rests.elim

/-- The stages of a compile whose key leads to a flight that somebody else holds. -/
def Stage.Joining (c : Compiler π) (codeKey : String) (f : Flights) (number : Nat)
    (b : Bench π) : Stage → Prop
  | asked | registered _ => b.state.flights = f ∧
      (c.settings.caching = true → b.state.cache.get? codeKey = none)
  | waiting t => t.number = number ∧ t.caller = f.callers ∧ b.state.flights.flight number =
      { f.flight number with waiting := (f.flight number).waiting ++ [f.callers] }
  | _ => False

theorem Move.joining {f : Flights} {number holder : Nat} (m : Move c input codeKey a b a' b')
    (bare : input.content = none) (leads : f.current.get? codeKey = some number)
    (there : number < f.all.length) (held : (f.flight number).holder = some holder)
    (other : holder ≠ f.callers) (open' : (f.flight number).result = none)
    (joining : a.Joining c codeKey f number b) : a'.Joining c codeKey f number b' := by
  cases m with
  | bare => exact joining
  | unplaced full => exact nomatch bare.symm.trans full
  | give full => exact nomatch bare.symm.trans full
  | hit caching cached => exact nomatch (joining.2 caching).symm.trans cached
  | board =>
      obtain ⟨rfl, -⟩ := joining
      refine ⟨Flights.join_boarded leads, ?_, Flights.flight_join_held leads there held⟩
      unfold Flights.join Flights.board Flights.enter
      rw [leads]
  | share landed =>
      obtain ⟨rfl, -, flight⟩ := joining
      rw [flight] at landed
      exact nomatch open'.symm.trans landed
  | turn _ due =>
      obtain ⟨rfl, caller, flight⟩ := joining
      rw [flight, caller] at due
      exact absurd (Option.some.inj (held.symm.trans due)) other
  | _ => exact joining.elim

end

/-! ## Sessions -/

/-- Earlier compiles sit in earlier flights, and later ones are those of the compiler. -/
def Progress.Renewed (c : Compiler π) (codeKey : String) (first e : Nat) (b : Bench π)
    (earlier : Prop) : Progress π → Prop
  | compiling d _ key stage => key = codeKey →
    (earlier → ∀ t, stage.ticket? = some t → t.number < first ∧ t.since ≤ e) ∧
      (¬earlier → d = c ∧ stage.Renewed c codeKey first b)
  | other => True

namespace Session

variable {c : Compiler π} {s : Session π} {ps : Nat → Progress π} {codeKey : String}
  {first before e : Nat} {event : Event π}

/-- No compile of the key joins a flight that came before the `first`, and no call that was made
`before` puts a renderer of the key into the overlay. -/
structure Apart (c : Compiler π) (codeKey : String) (first before : Nat) (s : Session π)
    (event : Event π) : Prop where
  joins : ∀ input n, event = .ask (.compile input) →
    input.address.key c.store.resolver .code = .ok codeKey →
    s.bench.state.flights.current.get? codeKey = some n → first ≤ n
  writes : ∀ j input record, s.compiles event = some (j, input) → j < before →
    (step c s event).bench.site.overlay.code.get? codeKey = some record →
    s.bench.site.overlay.code.get? codeKey = some record

/-- The invariant of sessions after a clearing. -/
structure Renewed (c : Compiler π) (codeKey : String) (first before e : Nat) (s : Session π)
    (ps : Nat → Progress π) : Prop where
  bench : s.bench.Renewed c codeKey first
  asked : before ≤ s.calls.length
  begun : e ≤ s.bench.state.cache.epoch
  barred : e < s.bench.state.cache.lastClear
  calls : ∀ j < s.calls.length, (ps j).Renewed c codeKey first e s.bench (j < before)

/-- What was cleared is outdated for all that began before, whatever its key. -/
theorem outdated_of_cleared {r : CodeCache} (barred : e < r.lastClear) (key : String) :
    r.isOutdated key e = true :=
  Bool.or_eq_true_iff.2 (.inl (decide_eq_true barred))

theorem Renewed.older (renewed : s.Renewed c codeKey first before e ps)
    (traced : s.Traced c ps) (events : s.calls.length ≤ (step c s event).calls.length)
    (later : s.bench.Later (step c s event).bench)
    (bench : (step c s event).bench.Renewed c codeKey first) {ps' : Nat → Progress π}
    (calls : ∀ j < (step c s event).calls.length,
      (j < s.calls.length ∧ ps' j = ps j) ∨
        (ps' j).Renewed c codeKey first e (step c s event).bench (j < before)) :
    (step c s event).Renewed c codeKey first before e ps' where
  bench := bench
  asked := Nat.le_trans renewed.asked events
  begun := Nat.le_trans renewed.begun later.ages.epoch
  barred := later.ages.cleared renewed.begun renewed.barred
  calls j asked := by
    rcases calls j asked with ⟨there, same⟩ | changed
    · rw [same]
      have grown := renewed.calls j there
      cases now : ps j with
      | compiling d input key stage =>
          rw [now] at grown
          intro own
          obtain ⟨earlier, later⟩ := grown own
          refine ⟨earlier, fun new => ⟨(later new).1, ?_⟩⟩
          exact (later new).2.elsewhere (traced.stages there now).2 _
      | other => trivial
    · exact changed

theorem Renewed.begin (renewed : s.Renewed c codeKey first before e ps) (traced : s.Traced c ps)
    {input : CompileInput} {key : String} {stage : Stage}
    (apart : s.Apart c codeKey first before (.ask (.compile input)))
    (named : input.address.key c.store.resolver .code = .ok key)
    (path : (compilePlan c input key).Path .asked s.bench stage
      (step c s (.ask (.compile input))).bench) :
    (step c s (.ask (.compile input))).Renewed c codeKey first before e
      (Function.update ps s.calls.length (.compiling c input key stage)) := by
  obtain ⟨later, -, -⟩ := path_sound path traced.bench stage_sound_asked
  obtain ⟨bench, begun⟩ : (step c s (.ask (.compile input))).bench.Renewed c codeKey first ∧
      (key = codeKey → stage.Renewed c codeKey first
        (step c s (.ask (.compile input))).bench) := by
    by_cases own : key = codeKey
    · subst own
      obtain ⟨bench, begun⟩ := path_renewed path traced.bench stage_sound_asked renewed.bench
        fun n leads => apart.joins input n rfl named leads
      exact ⟨bench, fun _ => begun⟩
    · exact ⟨path_foreign path (e := e) traced.bench stage_sound_asked renewed.bench
        (.inl (Ne.symm own)), fun same => absurd same own⟩
  refine renewed.older traced (calls_step _) later bench fun j asked => ?_
  by_cases new : j = s.calls.length
  · subst new
    rw [Function.update_self]
    refine .inr fun own => ⟨fun earlier => ?_, fun _ => ⟨rfl, begun own⟩⟩
    exact absurd earlier (Nat.not_lt.2 renewed.asked)
  · rw [Function.update_of_ne new]
    replace asked : j < (s.calls ++ [_]).length := asked
    rw [List.length_append, List.length_singleton] at asked
    exact .inl ⟨by omega, rfl⟩

theorem Renewed.proceed (renewed : s.Renewed c codeKey first before e ps)
    (traced : s.Traced c ps) {j : Nat} {d : Compiler π} {input : CompileInput} {key : String}
    {stage stage' : Stage} (apart : s.Apart c codeKey first before (.turn j))
    (there : j < s.calls.length) (now : ps j = .compiling d input key stage)
    (path : (compilePlan d input key).Path stage s.bench stage' (step c s (.turn j)).bench) :
    (step c s (.turn j)).Renewed c codeKey first before e
      (Function.update ps j (.compiling d input key stage')) := by
  obtain ⟨goes, -⟩ := traced.compiles there now
  obtain ⟨sound, boarded⟩ := traced.stages there now
  obtain ⟨later, -, -⟩ := path_sound path traced.bench sound
  obtain ⟨-, seat⟩ := path_boarded path boarded
  have grown := renewed.calls j there
  rw [now] at grown
  obtain ⟨bench, gone⟩ : (step c s (.turn j)).bench.Renewed c codeKey first ∧
      (Progress.compiling d input key stage').Renewed c codeKey first e
        (step c s (.turn j)).bench (j < before) := by
    by_cases own : key = codeKey
    · subst own
      obtain ⟨earlier, new⟩ := grown rfl
      by_cases old : j < before
      · refine ⟨path_foreign path (e := e) traced.bench sound renewed.bench (.inr ⟨boarded,
          outdated_of_cleared renewed.barred _, earlier old, fun record found => ?_⟩), fun _ => ?_⟩
        · exact apart.writes j input record goes old found
        · exact ⟨fun _ t sits => earlier old t (seat t sits), fun new => absurd old new⟩
      · obtain ⟨rfl, stage⟩ := new old
        obtain ⟨bench, gone⟩ := path_renewed path traced.bench sound renewed.bench stage
        exact ⟨bench, fun _ => ⟨fun early => absurd early old, fun _ => ⟨rfl, gone⟩⟩⟩
    · exact ⟨path_foreign path (e := e) traced.bench sound renewed.bench (.inl (Ne.symm own)),
        fun same => absurd same own⟩
  refine renewed.older traced (calls_step _) later bench fun i asked => ?_
  by_cases same : i = j
  · subst same
    rw [Function.update_self]
    exact .inr gone
  · rw [Function.update_of_ne same]
    rw [calls_turn] at asked
    exact .inl ⟨asked, rfl⟩

theorem Renewed.step (lawful : c.store.Lawful) (traced : s.Traced c ps)
    (renewed : s.Renewed c codeKey first before e ps)
    (apart : s.Apart c codeKey first before event) :
    ∃ ps', (Session.step c s event).Traced c ps' ∧
      (Session.step c s event).Renewed c codeKey first before e ps' := by
  obtain ⟨ps', change, traced'⟩ := traced.step lawful event
  refine ⟨ps', traced', ?_⟩
  have later := change.later traced
  generalize bench : (Session.step c s event).bench = b at change
  cases change with
  | begin named path stops =>
      subst bench
      exact renewed.begin traced apart named path
  | proceed there now path stops =>
      subst bench
      exact renewed.proceed traced apart there now path
  | other kept new sheds free =>
      subst bench
      refine renewed.older traced (calls_step event) later (renewed.bench.sheds sheds) ?_
      intro j asked
      by_cases there : j < s.calls.length
      · exact .inl ⟨there, kept j there⟩
      · rw [new j (Nat.le_of_not_lt there) asked]
        exact .inr trivial

theorem Renewed.run (lawful : c.store.Lawful) (traced : s.Traced c ps)
    (renewed : s.Renewed c codeKey first before e ps) {events : List (Event π)}
    (apart : Along c (Apart c codeKey first before) s events) :
    ∃ ps', (Session.run c s events).Traced c ps' ∧
      (Session.run c s events).Renewed c codeKey first before e ps' := by
  induction events generalizing s ps with
  | nil => exact ⟨ps, traced, renewed⟩
  | cons event rest ih =>
      obtain ⟨ps', traced', renewed'⟩ := renewed.step lawful traced apart.1
      exact ih traced' renewed' apart.2

theorem kept_is_taken (lawful : c.store.Lawful) (caching : c.settings.caching = true)
    {input : CompileInput} {record : CodeRecord} (bare : input.content = none)
    (coded : input.address.key c.store.resolver .code = .ok codeKey)
    (free : s.bench.state.flights.current.get? codeKey = none)
    (missing : s.bench.state.cache.get? codeKey = none)
    (fresh : s.bench.state.cache.isStale codeKey = false)
    (kept : s.bench.site.overlay.code.get? codeKey = some record) :
    (step c s (.ask (.compile input))).renderer? s.calls.length = some record := by
  refine answered_at_once lawful coded fun {stage b} path stops => ?_
  have taking := path.keeps (fun a b => a.Taking codeKey record b)
    (fun m => Move.taking m caching bare) ⟨missing, free, fresh, kept⟩
  exact taking.ends stops

theorem held_is_joined (lawful : c.store.Lawful) (traced : s.Traced c ps) {input : CompileInput}
    {number holder : Nat} (bare : input.content = none)
    (coded : input.address.key c.store.resolver .code = .ok codeKey)
    (missing : c.settings.caching = true → s.bench.state.cache.get? codeKey = none)
    (leads : s.bench.state.flights.current.get? codeKey = some number)
    (held : (s.bench.state.flights.flight number).holder = some holder)
    (other : holder ≠ s.bench.state.flights.callers)
    (flying : (s.bench.state.flights.flight number).result = none) :
    ((step c s (.ask (.compile input))).bench.state.flights.flight number).waiting =
      (s.bench.state.flights.flight number).waiting ++ [s.bench.state.flights.callers] := by
  obtain ⟨there, -⟩ := traced.bench.flights codeKey number leads
  obtain ⟨stage, path, rests, stops⟩ := (work_follows (b := s.bench) lawful coded).advance
  have joining := path.keeps (fun a b => a.Joining c codeKey s.bench.state.flights number b)
    (fun m => Move.joining m bare leads there held other flying) ⟨rfl, missing⟩
  rcases stops_of_rests rests stops with ⟨result, rfl⟩ | rests
  · exact joining.elim
  · cases stage with
    | waiting t => exact congrArg Flight.waiting joining.2.2
    | fetching t => exact joining.elim
    | reading t => exact joining.elim
    | writing t renderer => exact joining.elim
    | _ => exact rests.elim

/-- The generators may differ from those of the calls so far. -/
theorem Traced.regenerate (traced : s.Traced c ps) (g : Generator) :
    s.Traced { c with generator := g } ps where
  fits {j call} there := by
    have fits := traced.fits there
    cases now : ps j with
    | compiling d input key stage =>
        rw [now] at fits
        exact fits
    | other =>
        rw [now] at fits
        exact fits
  bench := traced.bench
  stages := traced.stages

/-- The invariant holds right after the first stretch of a clearing. -/
theorem renewed_start (lawful : c.store.Lawful) (traced : s.Traced c ps) (all : Bool)
    (codeKey : String) (g : Generator) :
    ∃ ps', (step c s (.ask (.clear all))).Traced { c with generator := g } ps' ∧
      (step c s (.ask (.clear all))).Renewed { c with generator := g } codeKey
        s.bench.state.flights.all.length s.calls.length s.bench.state.cache.epoch ps' ∧
      ∀ j < s.calls.length, (ps j).Onward (ps' j) := by
  obtain ⟨ps', change, traced'⟩ := traced.step lawful (.ask (.clear all))
  obtain ⟨state, code⟩ : (step c s (.ask (.clear all))).bench.state = s.bench.cleared.state ∧
    ∀ key, (step c s (.ask (.clear all))).bench.site.overlay.code.get? key = none :=
    clear_stretch lawful all s.bench
  have flights : (step c s (.ask (.clear all))).bench.state.flights = s.bench.state.flights := by
    rw [state]
    rfl
  have cache : (step c s (.ask (.clear all))).bench.state.cache = s.bench.state.cache.clear := by
    rw [state]
    rfl
  refine ⟨ps', traced'.regenerate g, ⟨⟨?_, ?_, ?_⟩, calls_step _, ?_, ?_, ?_⟩,
    fun j asked => change.onward traced asked⟩
  · intro record found
    rw [cache] at found
    exact nomatch found
  · intro record found
    rw [code] at found
    exact nomatch found
  · rw [flights]
    exact .start
  · rw [cache]
    exact Nat.le_succ _
  · rw [cache]
    exact Nat.lt_succ_self _
  · intro j asked
    by_cases before : j < s.calls.length
    · cases now : ps' j with
      | compiling d input key stage =>
          refine fun _ => ⟨fun _ t sits => ?_, fun late => absurd before late⟩
          exact traced.seat before (now ▸ change.onward traced before) sits
      | other => trivial
    · generalize (step c s (.ask (.clear all))).bench = b at change
      cases change with
      | other kept new sheds free =>
          rw [new j (Nat.le_of_not_lt before) asked]
          trivial

/-- What began before a clearing leaves cache and registry as they are from then on. Apart from
that, the next compiles may join the flights that their keys led to, and they take what they find
in the overlay. As long as the compiles of a key do neither with what earlier compiles made, all
that they return is made by the generator that they were given themselves. -/
theorem clearing_bars_earlier_renderers (lawful : c.store.Lawful) (reached : c.Reaches s)
    (all : Bool) (codeKey : String) (g : Generator) :
    let t := step c s (.ask (.clear all))
    let d : Compiler π := { c with generator := g }
    let first := s.bench.state.flights.all.length
    let before := s.calls.length
    t.bench.state.flights = s.bench.state.flights ∧
    ∀ events, let u := run d t events
      (∀ j call input key, j < before → u.calls[j]? = some call →
        call.command = .compile input → input.address.key c.store.resolver .code = .ok key →
        u.Withholds d j) ∧
      (∀ n, u.bench.state.flights.current.get? codeKey = some n →
        s.bench.state.flights.current.get? codeKey = some n ∨ first ≤ n) ∧
      (Along d (Apart d codeKey first before) t events →
        ∀ j call input record, before ≤ j → u.calls[j]? = some call →
          call.command = .compile input →
          input.address.key c.store.resolver .code = .ok codeKey →
          u.renderer? j = some record → d.Makes record.renderer) ∧
      ∀ input : CompileInput, input.content = none →
        input.address.key c.store.resolver .code = .ok codeKey → c.settings.caching = true →
        u.bench.state.cache.get? codeKey = none →
        (∀ n h, u.bench.state.flights.current.get? codeKey = some n →
          (u.bench.state.flights.flight n).holder = some h → h ≠ u.bench.state.flights.callers →
          (u.bench.state.flights.flight n).result = none →
          ((step d u (.ask (.compile input))).bench.state.flights.flight n).waiting =
            (u.bench.state.flights.flight n).waiting ++ [u.bench.state.flights.callers]) ∧
        ∀ record, u.bench.state.flights.current.get? codeKey = none →
          u.bench.state.cache.isStale codeKey = false →
          u.bench.site.overlay.code.get? codeKey = some record →
          (step d u (.ask (.compile input))).renderer? u.calls.length = some record := by
  intro t d first before
  obtain ⟨ps, traced⟩ := reached.traced lawful
  obtain ⟨ps', traced', renewed, onward⟩ := renewed_start lawful traced all codeKey g
  have supplied : d.store.Lawful := lawful
  have flights : t.bench.state.flights = s.bench.state.flights := by
    rw [show t.bench.state = s.bench.cleared.state from (clear_stretch lawful all s.bench).1]
    rfl
  refine ⟨flights, fun events => ?_⟩
  intro u
  obtain ⟨qs, traced'', later, onward'⟩ := traced'.run_onward supplied events
  refine ⟨?_, ?_, ?_, ?_⟩
  · intro j call input key asked there command coded
    have grown := (onward j asked).trans (onward' j (Nat.lt_of_lt_of_le asked renewed.asked))
    refine traced''.withholds supplied there command coded
      (fun now sits => (traced.seat asked (now ▸ grown) sits).2) ?_
    exact outdated_of_cleared (later.ages.cleared renewed.begun renewed.barred) key
  · intro n leads
    rw [← flights]
    rcases later.grows.current leads with joined | new
    · exact .inl joined
    · refine .inr (Nat.le_trans (Nat.le_of_eq ?_) new)
      rw [flights]
  · intro apart j call input record asked there command coded returned
    obtain ⟨qs, traced'', renewed'⟩ := renewed.run supplied traced' apart
    obtain ⟨within', -⟩ := List.getElem?_eq_some_iff.1 there
    have fits := traced''.fits there
    have call' := renewed'.calls j within'
    cases now : qs j with
    | compiling d' input' key stage =>
        rw [now] at fits call'
        obtain ⟨-, same, named, -⟩ := fits
        cases command.symm.trans same
        cases coded.symm.trans named
        obtain ⟨-, stage'⟩ := (call' rfl).2 (Nat.not_lt.2 asked)
        obtain rfl := traced''.renderer now returned
        exact stage' record rfl
    | other =>
        rw [now] at fits
        exact absurd coded (fits.2 input codeKey command)
  · intro input bare coded caching missing
    refine ⟨fun n h leads held other flying => ?_, fun record free fresh kept => ?_⟩
    · exact held_is_joined supplied traced'' bare coded (fun _ => missing) leads held other flying
    · exact kept_is_taken supplied caching bare coded free missing fresh kept

end Session

/-! ## Renderers that come back -/

namespace Sample

open Session

def wipe : Event Unit := .ask (.clear true)

/-- Brings content along, so that nothing has to be read. -/
def tell : Event Unit := .ask (.compile ⟨⟨"a", none, none⟩, some (.text "new")⟩)

/-- The renderer of a text is louder than the text. -/
def loud : Generator where
  generate content _ := .ok ⟨some (content.asText ++ "!"), fun _ _ => .ok content.asText⟩

/-- It makes nothing, so a renderer that is returned after a clearing was made before it. -/
def mute : Generator where
  generate _ _ := .error ⟨"mute"⟩

/-- One whose store keeps renderers. -/
def keeping : Compiler Unit := compiler (Store.delayed resolver 100) .readWrite

end Sample

open Sample Session

/-- The earlier compile is through before the next one begins, and keeps nothing. -/
theorem clearing_bars_what_was_read :
    let d : Compiler Unit := { slow with generator := loud }
    let u := run d (step slow (run slow (start shelf) [ask]) wipe) [pass, .turn 0, tell]
    ∃ record, u.renderer? 2 = some record ∧ d.Makes record.renderer := by
  intro d u
  let t := step slow (run slow (start shelf) [ask]) wipe
  have spared : (step d (step d t pass) (.turn 0)).bench.site.overlay.code.get?
      "partials/a.html.compiled" = none := Option.isNone_iff_eq_none.1 (by decide)
  have left : (step d (step d t pass) (.turn 0)).bench.state.flights.current.get?
      "partials/a.html.compiled" = none := Option.isNone_iff_eq_none.1 (by decide)
  have apart : Along d (Apart d "partials/a.html.compiled" 1 1) t [pass, .turn 0, tell] := by
    refine ⟨⟨nofun, nofun⟩, ⟨nofun, ?_⟩, ⟨?_, ?_⟩, trivial⟩
    · intro j input record _ _ found
      rw [spared] at found
      exact nomatch found
    · intro input n _ _ leads
      rw [left] at leads
      exact nomatch leads
    · intro j input record goes before
      obtain ⟨rfl, -⟩ := Prod.mk.inj (Option.some.inj goes)
      exact absurd before (by decide)
  have returned : (u.renderer? 2).isSome = true := by decide
  obtain ⟨record, returned⟩ := Option.isSome_iff_exists.1 returned
  refine ⟨record, returned, ?_⟩
  exact ((clearing_bars_earlier_renderers (Store.delayed_lawful 100)
    ⟨shelf, [ask], shelf_keyed, rfl⟩ true "partials/a.html.compiled" loud
    (s := run slow (start shelf) [ask]) (c := slow)).2 [pass, .turn 0, tell]).2.2.1 apart 2 _ _ _
    (by decide) rfl rfl rfl returned

/-- A compile that begins after a clearing joins a compile that began before, or finds in the
overlay what such a compile has put there since: either way it returns a renderer of the text that
was read before the clearing. -/
theorem clearing_lets_renderers_come_back :
    let d : Compiler Unit := { slow with generator := mute }
    let t := step slow (run slow (start shelf) [ask]) wipe
    let u := run d t [ask, pass, .turn 0, .turn 2]
    let d' : Compiler Unit := { keeping with generator := mute }
    let t' := step keeping (run keeping (start shelf) [ask]) wipe
    let u' := run d' t' [pass, .turn 0, ask]
    ((t.answer? 1).isSome = true ∧
      ∃ record, u.renderer? 2 = some record ∧ ¬d.Makes record.renderer) ∧
    (t'.answer? 1).isSome = true ∧
      ∃ record, u'.renderer? 2 = some record ∧ ¬d'.Makes record.renderer := by
  intro d t u d' t' u'
  have joined : (u.renderer? 2).isSome = true := by decide
  have kept : (u'.renderer? 2).isSome = true := by decide
  obtain ⟨record, joined⟩ := Option.isSome_iff_exists.1 joined
  obtain ⟨record', kept⟩ := Option.isSome_iff_exists.1 kept
  refine ⟨⟨by decide, record, joined, ?_⟩, by decide, record', kept, ?_⟩
  · rintro (⟨content, made⟩ | ⟨source, made⟩)
    · exact nomatch made
    · exact nomatch made
  · rintro (⟨content, made⟩ | ⟨source, made⟩)
    · exact nomatch made
    · exact nomatch made

end TemplateCache
