import TemplateCache.Proofs.Compiler.Trace
import TemplateCache.Proofs.Store.Lawful

/-!
# Removing a name while it is compiled

An unregistration knows the records that are registered under the name, its plain code key, and the
code keys under which the name has renderers. Compiles of these keys that began earlier are barred
from cache and registry until a later compile of the key is cached. Any other compile of the name
goes on as if nothing had been removed.
-/

namespace TemplateCache

variable {π : Type}

/-! ## Compiles that have a flight for themselves -/

section

variable {c : Compiler π} {input : CompileInput} {codeKey : String} {a a' : Stage}
  {b b' : Bench π} {since : Nat}

namespace Stage

/-- It need not wait for others any more. -/
def Working (since : Nat) : Stage → Prop
  | called t | fetching t | seeking t | reading t | generating t _ | writing t _ | made t _ =>
    t.since = since
  | ended _ _ | leaving _ _ | finished _ => True
  | _ => False

/-- How a compile begins that finds its key free. -/
def Opening (codeKey : String) (since : Nat) (b : Bench π) : Stage → Prop
  | asked | registered _ =>
    b.state.cache.epoch = since ∧ b.state.flights.current.get? codeKey = none
  | waiting t => t.since = since ∧ b.state.flights.isDue t.number t.caller = true
  | a => a.Working since

/-- What a compile that is not barred makes is in the cache when it ends. -/
def Publishing (codeKey : String) (since : Nat) (b : Bench π) : Stage → Prop
  | ended _ result | leaving _ result | finished result =>
    ∀ record, result = .ok record → b.state.cache.get? codeKey = some record
  | a => a.Working since ∧ b.state.cache.isOutdated codeKey since = false

end Stage

theorem Move.working (m : Move c input codeKey a b a' b') (working : a.Working since) :
    a'.Working since := by
  cases m with
  | bare => exact working.elim
  | unplaced => exact working.elim
  | give => exact working.elim
  | hit => exact working.elim
  | board => exact working.elim
  | share => exact working.elim
  | turn => exact working.elim
  | fetchFails => trivial
  | seekFails => trivial
  | readFails => trivial
  | refuse => trivial
  | writeFails => trivial
  | publish => trivial
  | _ => exact working

theorem Move.opening (m : Move c input codeKey a b a' b') (bare : input.content = none)
    (opening : a.Opening codeKey since b) : a'.Opening codeKey since b' := by
  cases m with
  | bare => exact opening
  | unplaced full =>
      rw [bare] at full
      exact nomatch full
  | give full =>
      rw [bare] at full
      exact nomatch full
  | hit => trivial
  | board missed =>
      obtain ⟨epoch, free⟩ := opening
      refine ⟨epoch, ?_⟩
      show Flights.isDue (b.state.flights.join codeKey).2 _ _ = true
      unfold Flights.isDue
      rw [Flights.join_new free, Flights.flight_join_new free]
      simp
  | share => trivial
  | turn => exact opening.1
  | fetchFails => trivial
  | seekFails => trivial
  | readFails => trivial
  | refuse => trivial
  | writeFails => trivial
  | publish => trivial
  | _ => exact opening

theorem Move.publishing (m : Move c input codeKey a b a' b') (caching : c.settings.caching = true)
    (sound : a.Sound codeKey b) (publishing : a.Publishing codeKey since b) :
    a'.Publishing codeKey since b' := by
  cases m with
  | bare => exact publishing.1.elim
  | unplaced => exact publishing.1.elim
  | give => exact publishing.1.elim
  | hit => exact publishing.1.elim
  | board => exact publishing.1.elim
  | share => exact publishing.1.elim
  | turn => exact publishing.1.elim
  | fetchFails => exact nofun
  | seekFails => exact nofun
  | readFails => exact nofun
  | refuse => exact nofun
  | writeFails => exact nofun
  | found =>
      refine ⟨publishing.1, ?_⟩
      unfold Bench.note
      split
      · exact publishing.2
      · exact publishing.2
  | @publish b t record =>
      obtain ⟨began, fresh⟩ := publishing
      obtain rfl : t.since = since := began
      obtain rfl : record.key = codeKey := sound.made rfl
      rintro record ⟨⟩
      show CodeCache.get? (if _ then _ else _) _ = _
      rw [if_pos caching, CodeCache.insert_fresh fresh]
      exact (KeyMap.get?_insert _ _ _ _).trans (if_pos rfl)
  | _ => exact publishing

theorem path_working (path : (compilePlan c input codeKey).Path a b a' b') :
    a.Working since → a'.Working since :=
  path.keeps (fun a _ => a.Working since) fun m => Move.working m

theorem path_opening (path : (compilePlan c input codeKey).Path a b a' b')
    (bare : input.content = none) : a.Opening codeKey since b → a'.Opening codeKey since b' :=
  path.keeps (fun a b => a.Opening codeKey since b) fun m => Move.opening m bare

theorem path_publishing (path : (compilePlan c input codeKey).Path a b a' b')
    (caching : c.settings.caching = true) (bench : b.Sound) (sound : a.Sound codeKey b)
    (publishing : a.Publishing codeKey since b) : a'.Publishing codeKey since b' := by
  induction path with
  | refl => exact publishing
  | tail path m ih =>
      obtain ⟨-, -, sound'⟩ := path_sound path bench sound
      exact Move.publishing m caching sound' ih

/-- A compile whose flight is its own rests at work. -/
theorem Stage.Opening.working (opening : a.Opening codeKey since b) (stops : a.Stops b) :
    a.Working since := by
  rcases stops with ⟨result, rfl⟩ | rests
  · trivial
  · cases a with
    | waiting t =>
        have due := opening.2
        rw [show b.state.flights.isDue t.number t.caller = false from rests] at due
        exact nomatch due
    | fetching t => exact opening
    | reading t => exact opening
    | writing t renderer => exact opening
    | _ => exact rests.elim

theorem Stage.Working.publishing (working : a.Working since) (rests : a.rests b')
    (fresh : b.state.cache.isOutdated codeKey since = false) : a.Publishing codeKey since b := by
  cases a with
  | waiting t => exact working.elim
  | fetching t => exact ⟨working, fresh⟩
  | reading t => exact ⟨working, fresh⟩
  | writing t renderer => exact ⟨working, fresh⟩
  | _ => exact rests.elim

end

namespace Session

variable {c : Compiler π} {r s : Session π} {ps : Nat → Progress π} {input : CompileInput}
  {codeKey : String} {j : Nat}

/-- A compile of a key began in `r`, where the key led to no flight, and the session is `s` now. -/
structure Began (c : Compiler π) (input : CompileInput) (codeKey : String) (r s : Session π) :
    Prop where
  reached : c.Reaches r
  bare : input.content = none
  coded : input.address.key c.store.resolver .code = .ok codeKey
  free : r.bench.state.flights.current.get? codeKey = none
  since : ∃ events, s = run c (step c r (.ask (.compile input))) events

/-- If a call ends with a renderer in its next turn, the renderer is cached under the key. -/
def Publishes (c : Compiler π) (codeKey : String) (j : Nat) (s : Session π) : Prop :=
  ∀ record, s.answer? j = none → (step c s (.turn j)).renderer? j = some record →
    (step c s (.turn j)).bench.state.cache.get? codeKey = some record

/-- A compile that has a flight for itself is at work from its first stretch on. -/
theorem Began.working (began : Began c input codeKey r s) (lawful : c.store.Lawful) :
    ∃ ps, s.Traced c ps ∧ r.calls.length < s.calls.length ∧ ∃ stage,
      ps r.calls.length = .compiling c input codeKey stage ∧
        stage.Working r.bench.state.cache.epoch := by
  obtain ⟨reached, bare, coded, free, events, rfl⟩ := began
  obtain ⟨ps, traced⟩ := reached.traced lawful
  obtain ⟨ps', change, traced'⟩ := traced.step lawful (.ask (.compile input))
  refine traced'.keeps lawful (fun s ps => r.calls.length < s.calls.length ∧ ∃ stage,
      ps r.calls.length = .compiling c input codeKey stage ∧
        stage.Working r.bench.state.cache.epoch) ⟨?_, ?_⟩ ?_ events
  · simp [step]
  · generalize (step c r (.ask (.compile input))).bench = b at change
    cases change with
    | @begin _ codeKey' stage _ named path stops =>
        cases coded.symm.trans named
        refine ⟨stage, Function.update_self .., ?_⟩
        exact (path_opening path bare ⟨rfl, free⟩).working stops
    | other kept new sheds unnamed => exact absurd coded (unnamed _ input codeKey rfl)
  · rintro s ps e ps' traced change ⟨asked, stage, now, working⟩
    refine ⟨Nat.lt_of_lt_of_le asked (calls_step e), ?_⟩
    generalize (step c s e).bench = b at change
    cases change with
    | begin named path stops =>
        rw [Function.update_of_ne (Nat.ne_of_lt asked)]
        exact ⟨stage, now, working⟩
    | @proceed i d input' codeKey' from' stage' b there now' path stops =>
        by_cases own : r.calls.length = i
        · subst own
          cases now.symm.trans now'
          rw [Function.update_self]
          exact ⟨stage', rfl, path_working path working⟩
        · rw [Function.update_of_ne own]
          exact ⟨stage, now, working⟩
    | other kept new sheds unnamed =>
        rw [kept _ asked]
        exact ⟨stage, now, working⟩

/-- What such a compile makes is cached, unless its key is outdated for it. -/
theorem Began.publishes (began : Began c input codeKey r s) (lawful : c.store.Lawful)
    (caching : c.settings.caching = true)
    (fresh : s.bench.state.cache.isOutdated codeKey r.bench.state.cache.epoch = false) :
    s.Publishes c codeKey r.calls.length := by
  intro record unanswered returned
  obtain ⟨ps, traced, asked, stage, now, working⟩ := began.working lawful
  obtain ⟨b, may⟩ := traced.rests asked now unanswered
  obtain ⟨ps', change, traced'⟩ := traced.step lawful (.turn r.calls.length)
  obtain ⟨goes, named⟩ := traced.compiles asked now
  generalize bench : (step c s (.turn r.calls.length)).bench = b' at change
  cases change with
  | @proceed _ d input' codeKey' from' stage' _ _ now' path stops =>
      cases now.symm.trans now'
      obtain rfl := traced'.renderer (Function.update_self ..) returned
      refine path_publishing path caching traced.bench (traced.stages asked now).1
        (working.publishing may fresh) record rfl
  | other kept new sheds unnamed => exact absurd named (unnamed _ _ _ goes)

/-! ## Unregistering -/

variable {name contentKey : String}

theorem state_unregister
    (named : c.store.resolver.resolve name .content none none = .ok contentKey) :
    (step c s (.ask (.unregister name))).bench.state =
      (Bench.eraseName c.store.resolver name s.bench).state :=
  state_of_path ((unregister_begins named).advance s.bench).1

theorem Began.onward (began : Began c input codeKey r s) (events : List (Event π)) :
    Began c input codeKey r (run c s events) := by
  obtain ⟨reached, bare, coded, free, before, rfl⟩ := began
  refine ⟨reached, bare, coded, free, before ++ events, ?_⟩
  exact (List.foldl_append ..).symm

/-- An unregistration bars the compiles under way of the code keys that it knows, and of no other
one. While they are barred they leave cache and registry as they are; they stay so until a renderer
is cached under their key again. A key still leads to a flight that began before, if and only if it
did and is not detached. What is not barred is cached. -/
theorem removal_bars_what_it_knows (lawful : c.store.Lawful) (caching : c.settings.caching = true)
    (reached : c.Reaches s)
    (named : c.store.resolver.resolve name .content none none = .ok contentKey)
    (codeKey : String) :
    let e := s.bench.state.cache.epoch
    let detached := s.bench.detached c.store.resolver name
    let known := codeKey ∈ detached ∨ codeKey ∈ s.bench.state.cache.keysOf name
    let t := step c s (.ask (.unregister name))
    (t.bench.state.cache.isOutdated codeKey e = true ↔ known) ∧
    (∀ n, t.bench.state.flights.current.get? codeKey = some n ↔
      codeKey ∉ detached ∧ s.bench.state.flights.current.get? codeKey = some n) ∧
    ∀ events, let u := run c t events
      (known → u.bench.state.cache.get? codeKey = none →
        u.bench.state.cache.isOutdated codeKey e = true) ∧
      (∀ n, u.bench.state.flights.current.get? codeKey = some n →
        (codeKey ∉ detached ∧ s.bench.state.flights.current.get? codeKey = some n) ∨
          s.bench.state.flights.all.length ≤ n) ∧
      (u.bench.state.cache.isOutdated codeKey e = true →
        ∀ j call input, j < s.calls.length → u.calls[j]? = some call →
          call.command = .compile input →
          input.address.key c.store.resolver .code = .ok codeKey → u.Withholds c j) ∧
      ∀ r input, Began c input codeKey r s →
        u.bench.state.cache.isOutdated codeKey r.bench.state.cache.epoch = false →
        u.Publishes c codeKey r.calls.length := by
  intro e detached known t
  obtain ⟨ps, traced⟩ := reached.traced lawful
  obtain ⟨ps', -, traced'⟩ := traced.step lawful (.ask (.unregister name))
  have state : t.bench.state = (Bench.eraseName c.store.resolver name s.bench).state :=
    state_unregister named
  have barred : t.bench.state.cache.isOutdated codeKey e = true ↔ known := by
    rw [state, Bench.isOutdated_eraseName (Nat.le_refl _), traced.bench.cache.fresh]
    simp [known, detached]
  have leads n : t.bench.state.flights.current.get? codeKey = some n ↔
      codeKey ∉ detached ∧ s.bench.state.flights.current.get? codeKey = some n := by
    rw [state, Bench.current_eraseName]
    split
    · rename_i named
      simp [detached, named]
    · rename_i unnamed
      simp [detached, unnamed]
  refine ⟨barred, leads, fun events => ?_⟩
  intro u
  have later : e ≤ t.bench.state.cache.epoch := by
    obtain ⟨-, -, later, -⟩ := traced.run_onward lawful [.ask (.unregister name)]
    exact later.ages.epoch
  refine ⟨?_, ?_, ?_, ?_⟩
  · intro knows
    exact traced'.run_shut lawful caching later (fun _ => barred.2 knows) events
  · intro n now
    obtain ⟨-, -, grown, -⟩ := traced'.run_onward lawful events
    rcases grown.grows.current now with before | new
    · exact .inl ((leads n).1 before)
    · refine .inr (Nat.le_trans (Nat.le_of_eq ?_) new)
      rw [state, Bench.flights_eraseName]
  · intro outdated j call input asked there command coded
    obtain ⟨qs, traced'', -, onward⟩ :=
      traced.run_onward lawful (.ask (.unregister name) :: events)
    refine traced''.withholds lawful there command coded (fun now sits => ?_) outdated
    exact (traced.seat asked (now ▸ onward j asked) sits).2
  · intro r input began fresh
    exact (began.onward (.ask (.unregister name) :: events)).publishes lawful caching fresh

end Session

/-! ## Unknown variants -/

namespace Sample

open Session

def drop : Event Unit := .ask (.unregister "a")

/-- Asks for the variant of the name that has an extension of its own. -/
def askVariant : Event Unit := .ask (.compile ⟨⟨"a", some "txt", none⟩, none⟩)

end Sample

open Sample Session

/-- A compile of the plain name is barred: what it has read is neither registered nor cached. -/
theorem removal_bars_plain_compile :
    let u := run slow (step slow (run slow (start shelf) [ask]) drop) [pass]
    u.Withholds slow 0 := by
  have barred := (removal_bars_what_it_knows (Store.delayed_lawful 100) rfl
    ⟨shelf, [ask], shelf_keyed, rfl⟩ (s := run slow (start shelf) [ask])
    (show resolver.resolve "a" .content none none = .ok "partials/a.html" from rfl)
    "partials/a.html.compiled").2.2 [pass]
  exact barred.2.2.1 (by decide +kernel) 0 _ ⟨⟨"a", none, none⟩, none⟩ (by decide) rfl rfl rfl

/-- A compile of a variant is not, as neither the registry nor the cache has any: after the
removal its key still leads to its flight, and then it registers and caches what it has read. -/
theorem removal_misses_unknown_variant :
    let t := step slow (run slow (start shelf) [askVariant]) drop
    let u := run slow t [pass, .turn 0]
    (t.answer? 1).isSome = true ∧
      t.bench.state.flights.current.get? "partials/a.txt.compiled" = some 0 ∧
      t.bench.state.registry.byKey.get? "partials/a.txt" = none ∧
      (u.bench.state.registry.byKey.get? "partials/a.txt").map (·.name) = some "a" ∧
      (u.bench.state.cache.get? "partials/a.txt.compiled").map (·.name) = some "a" := by
  refine ⟨by decide +kernel, by decide +kernel, ?_, by decide +kernel, by decide +kernel⟩
  exact Option.isNone_iff_eq_none.1 (by decide +kernel)

end TemplateCache
