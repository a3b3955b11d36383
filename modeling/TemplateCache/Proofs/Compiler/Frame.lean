import TemplateCache.Proofs.Compiler.Sound

/-!
# What a compile leaves alone

A compile has one seat from boarding to leaving. It ends no other flight, leads no other key to a
flight, and puts renderers under its own key only. What it began too early for, it neither caches
nor registers.
-/

namespace TemplateCache

variable {π : Type} {c : Compiler π} {input : CompileInput} {codeKey k : String} {a a' : Stage}
  {b b' : Bench π} {t : Ticket}

/-- It sits in a flight, or is done. -/
def Stage.Boarded (a : Stage) : Prop := (∃ t, a.ticket? = some t) ∨ ∃ result, a = .finished result

theorem Move.boarded (m : Move c input codeKey a b a' b') (boarded : a.Boarded) :
    a'.Boarded ∧ ∀ t, a'.ticket? = some t → a.ticket? = some t := by
  rcases boarded with ⟨t, sits⟩ | ⟨result, rfl⟩
  · cases m with
    | bare => exact nomatch sits
    | unplaced => exact nomatch sits
    | give => exact nomatch sits
    | hit => exact nomatch sits
    | board => exact nomatch sits
    | leave => exact ⟨.inr ⟨_, rfl⟩, nofun⟩
    | _ => exact ⟨.inl ⟨_, rfl⟩, fun _ => id⟩
  · cases m

/-! ## Flights -/

theorem Move.current_other (m : Move c input codeKey a b a' b') (other : k ≠ codeKey) {n : Nat}
    (leads : b'.state.flights.current.get? k = some n) :
    b.state.flights.current.get? k = some n := by
  cases m with
  | give full key => exact (Bench.sheds_register _).current leads
  | board missed =>
      replace leads : (b.state.flights.join codeKey).2.current.get? k = some n := leads
      rwa [Flights.current_join, if_neg other] at leads
  | found => exact sheds_note.current leads
  | leave => exact Flights.current_leave leads
  | _ => exact leads

theorem Move.current_boarded (m : Move c input codeKey a b a' b') (boarded : a.Boarded) {n : Nat}
    (leads : b'.state.flights.current.get? k = some n) :
    b.state.flights.current.get? k = some n := by
  cases m with
  | give full key => exact (Bench.sheds_register _).current leads
  | board missed =>
      rcases boarded with ⟨t, sits⟩ | ⟨result, same⟩
      · exact nomatch sits
      · exact nomatch same
  | found => exact sheds_note.current leads
  | leave => exact Flights.current_leave leads
  | _ => exact leads

/-- A compile gives a result to the flight in which it sits at most. -/
theorem Move.result (m : Move c input codeKey a b a' b') {n : Nat}
    (free : ∀ t record, a = .ended t (.ok record) → n ≠ t.number) :
    (b'.state.flights.flight n).result = (b.state.flights.flight n).result := by
  cases m with
  | give full key => rw [(Bench.sheds_register _).flight]
  | board missed => exact Flights.result_join
  | found => rw [sheds_note.flight]
  | land => exact Flights.result_land_other _ (free _ _ rfl)
  | handOver => exact Flights.result_handOver
  | leave => exact congrArg Flight.result Flights.flight_leave
  | _ => rfl

section

variable (path : (compilePlan c input codeKey).Path a b a' b')
include path

theorem path_boarded (boarded : a.Boarded) :
    a'.Boarded ∧ ∀ t, a'.ticket? = some t → a.ticket? = some t := by
  induction path with
  | refl => exact ⟨boarded, fun _ => id⟩
  | tail _ m ih =>
      obtain ⟨boarded', same⟩ := Move.boarded m ih.1
      exact ⟨boarded', fun t sits => ih.2 t (same t sits)⟩

theorem path_current_other (other : k ≠ codeKey) {n : Nat}
    (leads : b'.state.flights.current.get? k = some n) :
    b.state.flights.current.get? k = some n := by
  induction path with
  | refl => exact leads
  | tail _ m ih => exact ih (Move.current_other m other leads)

theorem path_current_boarded (boarded : a.Boarded) {n : Nat}
    (leads : b'.state.flights.current.get? k = some n) :
    b.state.flights.current.get? k = some n := by
  induction path with
  | refl => exact leads
  | tail path m ih => exact ih (Move.current_boarded m (path_boarded path boarded).1 leads)

/-- A flight of another key got its result from somebody else. -/
theorem path_result_other (bench : b.Sound) (sound : a.Sound codeKey b) {n : Nat}
    {record : CodeRecord} (other : (b'.state.flights.flight n).key ≠ codeKey)
    (landed : (b'.state.flights.flight n).result = some record) :
    (b.state.flights.flight n).result = some record := by
  induction path with
  | refl => exact landed
  | @tail d a' u b' path m ih =>
      obtain ⟨-, -, sound'⟩ := path_sound path bench sound
      have grows := (Move.later m).grows
      have same : (u.state.flights.flight n).result = some record := by
        refine (Move.result m fun t record ended here => ?_).symm.trans landed
        have sits : d.ticket? = some t := by rw [ended]; rfl
        obtain ⟨there, own, -⟩ := sound'.seat sits
        rw [here, grows.key there] at other
        exact other own
      have there : n < u.state.flights.all.length := by
        by_contra beyond
        rw [Flights.flight_beyond (Nat.le_of_not_lt beyond)] at same
        exact nomatch same
      refine ih ?_ same
      rwa [← grows.key there]

/-- Other flights than that of a compile that has boarded get no result. -/
theorem path_result_boarded (boarded : a.Boarded) {n : Nat}
    (free : ∀ t, a.ticket? = some t → n ≠ t.number) :
    (b'.state.flights.flight n).result = (b.state.flights.flight n).result := by
  induction path with
  | refl => rfl
  | tail path m ih =>
      refine (Move.result m fun t record ended => ?_).trans ih
      exact free t ((path_boarded path boarded).2 t (ended ▸ rfl))

end

/-- What flights of a key yield that came `first` or later has been `made` as it should. -/
structure Flights.Yields (made : CodeRecord → Prop) (key : String) (first : Nat) (f : Flights) :
    Prop where
  room : first ≤ f.all.length
  results : ∀ {n record}, first ≤ n → (f.flight n).key = key →
    (f.flight n).result = some record → made record

/-- Besides, whoever boards a flight of the key from now on boards one of these. -/
structure Flights.Guarded (made : CodeRecord → Prop) (key : String) (first : Nat) (f : Flights) :
    Prop extends f.Yields made key first where
  current : ∀ {n}, f.current.get? key = some n → first ≤ n

namespace Flights

theorem there_of_result {f : Flights} {n : Nat} {record : CodeRecord}
    (landed : (f.flight n).result = some record) : n < f.all.length := by
  by_contra beyond
  rw [flight_beyond (Nat.le_of_not_lt beyond)] at landed
  exact nomatch landed

end Flights

namespace Flights.Yields

variable {made : CodeRecord → Prop} {key : String} {first : Nat}

/-- The next flight is the first one that matters. -/
theorem start {f : Flights} : f.Yields made key f.all.length where
  room := Nat.le_refl _
  results beyond _ landed := by
    rw [flight_beyond beyond] at landed
    exact nomatch landed

theorem grows {f f' : Flights} (yields : f.Yields made key first) (grows : f.Grows f')
    (results : ∀ {n record}, first ≤ n → (f'.flight n).key = key →
      (f'.flight n).result = some record → (f.flight n).result = some record ∨ made record) :
    f'.Yields made key first where
  room := Nat.le_trans yields.room grows.length
  results later own landed := by
    rcases results later own landed with before | fine
    · exact yields.results later ((grows.key (there_of_result before)).symm.trans own) before
    · exact fine

theorem sheds (yields : b.state.flights.Yields made key first) (sheds : b.Sheds b') :
    b'.state.flights.Yields made key first := by
  refine yields.grows sheds.later.grows fun _ _ landed => .inl ?_
  rwa [sheds.flight] at landed

/-- A compile of another key, or one that sits in an earlier flight, ends no flight that matters. -/
theorem path (yields : b.state.flights.Yields made key first)
    (path : (compilePlan c input codeKey).Path a b a' b') (bench : b.Sound)
    (sound : a.Sound codeKey b)
    (foreign : key ≠ codeKey ∨ (a.Boarded ∧ ∀ t, a.ticket? = some t → t.number < first)) :
    b'.state.flights.Yields made key first := by
  refine yields.grows (path_sound path bench sound).1.grows fun {n record} later own landed => ?_
  rcases foreign with other | ⟨boarded, earlier⟩
  · exact .inl (path_result_other path bench sound (own ▸ other) landed)
  · rw [path_result_boarded path boarded fun t sits => ?_] at landed
    · exact .inl landed
    · exact Nat.ne_of_gt (Nat.lt_of_lt_of_le (earlier t sits) later)

/-- A compile of the key itself may end its flight with what was made as it should. -/
theorem move (yields : b.state.flights.Yields made codeKey first)
    (m : Move c input codeKey a b a' b')
    (landing : ∀ t record, a = .ended t (.ok record) → made record) :
    b'.state.flights.Yields made codeKey first := by
  refine yields.grows (Move.later m).grows fun {n record} later own landed => ?_
  by_cases lands : ∃ t record, a = .ended t (.ok record) ∧ n = t.number
  · obtain ⟨t, record', rfl, rfl⟩ := lands
    cases m
    have there := there_of_result landed
    replace there : t.number < b.state.flights.all.length := (length_update _).symm ▸ there
    replace landed := (result_land_own record' there).symm.trans landed
    cases landed
    exact .inr (landing t record rfl)
  · refine .inl ((Move.result m fun t record ended here => lands ?_).symm.trans landed)
    exact ⟨t, record, ended, here⟩

/-- Where a key is free, whoever boards a flight of it boards a new one. -/
theorem guard {f : Flights} (yields : f.Yields made key first) (free : f.current.get? key = none) :
    f.Guarded made key first where
  toYields := yields
  current leads := by
    rw [free] at leads
    exact nomatch leads

end Flights.Yields

namespace Flights.Guarded

variable {made : CodeRecord → Prop} {key : String} {first : Nat}

/-- New flights are among those that matter. -/
theorem grows {f f' : Flights} (guarded : f.Guarded made key first)
    (yields : f'.Yields made key first) (grows : f.Grows f') : f'.Guarded made key first where
  toYields := yields
  current leads := by
    rcases grows.current leads with before | later
    · exact guarded.current before
    · exact Nat.le_trans guarded.room later

theorem sheds (guarded : b.state.flights.Guarded made key first) (sheds : b.Sheds b') :
    b'.state.flights.Guarded made key first :=
  guarded.grows (guarded.toYields.sheds sheds) sheds.later.grows

theorem path (guarded : b.state.flights.Guarded made key first)
    (path : (compilePlan c input codeKey).Path a b a' b') (bench : b.Sound)
    (sound : a.Sound codeKey b)
    (foreign : key ≠ codeKey ∨ (a.Boarded ∧ ∀ t, a.ticket? = some t → t.number < first)) :
    b'.state.flights.Guarded made key first :=
  guarded.grows (guarded.toYields.path path bench sound foreign)
    (path_sound path bench sound).1.grows

theorem move (guarded : b.state.flights.Guarded made codeKey first)
    (m : Move c input codeKey a b a' b')
    (landing : ∀ t record, a = .ended t (.ok record) → made record) :
    b'.state.flights.Guarded made codeKey first :=
  guarded.grows (guarded.toYields.move m landing) (Move.later m).grows

end Flights.Guarded

/-! ## Cache and registry -/

/-- A compile that began too early leaves cache and registry as they are. -/
theorem Move.barred (m : Move c input codeKey a b a' b') (bench : b.Sound)
    (sound : a.Sound codeKey b) (boarded : a.Boarded)
    (outdated : ∀ t, a.ticket? = some t → b.state.cache.isOutdated codeKey t.since = true) :
    b'.state.cache = b.state.cache ∧ b'.state.registry = b.state.registry := by
  cases m with
  | give full key =>
      rcases boarded with ⟨t, sits⟩ | ⟨result, same⟩
      · exact nomatch sits
      · exact nomatch same
  | found =>
      unfold Bench.note
      rw [if_pos (outdated _ rfl)]
      exact ⟨rfl, rfl⟩
  | @publish b t record =>
      refine ⟨?_, rfl⟩
      have own := sound.made rfl
      show (if _ then _ else _) = _
      split
      · refine CodeCache.insert_outdated ?_
        rw [own]
        exact outdated t rfl
      · exact bench.cache.refresh_outdated (outdated t rfl)
  | _ => exact ⟨rfl, rfl⟩

theorem path_barred (path : (compilePlan c input codeKey).Path a b a' b') (bench : b.Sound)
    (sound : a.Sound codeKey b) (boarded : a.Boarded)
    (outdated : ∀ t, a.ticket? = some t → b.state.cache.isOutdated codeKey t.since = true) :
    b'.state.cache = b.state.cache ∧ b'.state.registry = b.state.registry := by
  induction path with
  | refl => exact ⟨rfl, rfl⟩
  | tail path m ih =>
      obtain ⟨cache, registry⟩ := ih
      obtain ⟨-, bench', sound'⟩ := path_sound path bench sound
      obtain ⟨boarded', same⟩ := path_boarded path boarded
      have kept := Move.barred m bench' sound' boarded' fun t sits => by
        rw [cache]
        exact outdated t (same t sits)
      exact ⟨kept.1.trans cache, kept.2.trans registry⟩

/-- A compile opens the cache for earlier ones only by caching a renderer itself. -/
theorem Move.shut (m : Move c input codeKey a b a' b') (caching : c.settings.caching = true)
    {e : Nat} (begun : e ≤ b.state.cache.epoch) (shut : b.state.cache.Shut k e) :
    b'.state.cache.Shut k e := by
  cases m with
  | give full key => exact (Bench.sheds_register _).shut begun shut
  | found => exact sheds_note.shut begun shut
  | publish =>
      show CodeCache.Shut (if _ then _ else _) k e
      rw [if_pos caching]
      exact shut.insert
  | _ => exact shut

theorem path_shut (path : (compilePlan c input codeKey).Path a b a' b')
    (caching : c.settings.caching = true) {e : Nat} (begun : e ≤ b.state.cache.epoch)
    (shut : b.state.cache.Shut k e) : b'.state.cache.Shut k e := by
  suffices both : e ≤ b'.state.cache.epoch ∧ b'.state.cache.Shut k e from both.2
  induction path with
  | refl => exact ⟨begun, shut⟩
  | tail _ m ih =>
      exact ⟨Nat.le_trans ih.1 (Move.later m).ages.epoch, Move.shut m caching ih.1 ih.2⟩

/-- Under other keys, a compile caches nothing. -/
theorem Move.cached_other (m : Move c input codeKey a b a' b') (other : k ≠ codeKey)
    (sound : a.Sound codeKey b) {record : CodeRecord}
    (found : b'.state.cache.get? k = some record) : b.state.cache.get? k = some record := by
  cases m with
  | give full key => exact (Bench.sheds_register _).cached found
  | found => exact sheds_note.cached found
  | @publish b t made =>
      have own : made.key = codeKey := sound.made rfl
      replace found : CodeCache.get? (if _ then _ else _) k = some record := found
      split at found
      · rwa [(CodeCache.insert_other (own ▸ other)).1] at found
      · rwa [(CodeCache.refresh_other other).2] at found
  | _ => exact found

theorem path_cached_other (path : (compilePlan c input codeKey).Path a b a' b')
    (other : k ≠ codeKey) (bench : b.Sound) (sound : a.Sound codeKey b) {record : CodeRecord}
    (found : b'.state.cache.get? k = some record) : b.state.cache.get? k = some record := by
  induction path with
  | refl => exact found
  | tail path m ih =>
      obtain ⟨-, -, sound'⟩ := path_sound path bench sound
      exact ih (Move.cached_other m other sound' found)

/-! ## Renderers in the overlay -/

theorem get?_insert_other {m : KeyMap CodeRecord} {renderer : Renderer} {name : String}
    {record : CodeRecord} (other : k ≠ codeKey)
    (h : (m.insert codeKey ⟨codeKey, name, renderer⟩).get? k = some record) :
    m.get? k = some record := by
  rwa [KeyMap.get?_insert, if_neg other] at h

theorem Move.code_other (m : Move c input codeKey a b a' b') (other : k ≠ codeKey)
    {record : CodeRecord} (found : b'.site.overlay.code.get? k = some record) :
    b.site.overlay.code.get? k = some record := by
  cases m with
  | give full key => exact (Bench.sheds_register _).code _ _ found
  | fetchOn same => exact same ▸ found
  | readOn same => exact same ▸ found
  | load loads => exact get?_insert_other other found
  | writeOn change =>
      rcases change with same | kept
      · exact same ▸ found
      · exact get?_insert_other other (kept ▸ found)
  | found => exact sheds_note.code _ _ found
  | _ => exact found

theorem path_code_other (path : (compilePlan c input codeKey).Path a b a' b') (other : k ≠ codeKey)
    {record : CodeRecord} (found : b'.site.overlay.code.get? k = some record) :
    b.site.overlay.code.get? k = some record := by
  induction path with
  | refl => exact found
  | tail _ m ih => exact ih (Move.code_other m other found)

end TemplateCache
