import TemplateCache.Proofs.Compiler.Errand

/-!
# Sound benches

What holds of every bench and of every compile under way, in all sessions: keys lead to flights of
their own, renderers are kept under their keys, the marks of the cache are in order, and a compile
sits in a flight of its code key, since an epoch that has begun.
-/

namespace TemplateCache

variable {π : Type}

structure Bench.Sound (b : Bench π) : Prop where
  flights : b.state.flights.Keyed
  code : ∀ {key record}, b.site.overlay.code.get? key = some record → record.key = key
  cache : b.state.cache.Sound

/-- What holds of a stage of a compile under a code key. -/
structure Stage.Sound (codeKey : String) (b : Bench π) (a : Stage) : Prop where
  seat : ∀ {t}, a.ticket? = some t → t.number < b.state.flights.all.length ∧
    (b.state.flights.flight t.number).key = codeKey ∧ t.since ≤ b.state.cache.epoch
  made : ∀ {t record}, a = .made t record → record.key = codeKey

/-- What happens to a bench in the course of time. -/
structure Bench.Later (b d : Bench π) : Prop where
  grows : b.state.flights.Grows d.state.flights
  ages : b.state.cache.Ages d.state.cache

namespace Bench

variable {b d d' : Bench π}

theorem later_of_eq (flights : d.state.flights = b.state.flights)
    (cache : d.state.cache = b.state.cache) : b.Later d where
  grows := by
    rw [flights]
    exact .refl _
  ages := by
    rw [cache]
    exact CodeCache.ages_of_eq rfl rfl

theorem Later.refl (b : Bench π) : b.Later b := later_of_eq rfl rfl

theorem Later.trans (h : b.Later d) (h' : d.Later d') : b.Later d' :=
  ⟨h.grows.trans h'.grows, h.ages.trans h'.ages⟩

theorem Sheds.flight (h : b.Sheds d) (n : Nat) :
    d.state.flights.flight n = b.state.flights.flight n := by
  unfold Flights.flight
  rw [h.flights]

theorem Sheds.later (h : b.Sheds d) : b.Later d where
  grows := ⟨Nat.le_of_eq (by rw [h.flights]), fun _ => by rw [h.flight],
    fun leads => .inl (h.current leads)⟩
  ages := h.ages

theorem Sheds.keeps_sound (h : b.Sheds d) (sound : b.Sound) : d.Sound where
  flights := sound.flights.grows h.later.grows h.current
  code found := sound.code (h.code _ _ found)
  cache := h.sound sound.cache

end Bench

theorem Stage.Sound.later {codeKey : String} {b d : Bench π} {a : Stage}
    (sound : a.Sound codeKey b) (later : b.Later d) : a.Sound codeKey d where
  seat sits := by
    obtain ⟨there, own, begun⟩ := sound.seat sits
    exact ⟨Nat.lt_of_lt_of_le there later.grows.length, (later.grows.key there).trans own,
      Nat.le_trans begun later.ages.epoch⟩
  made := sound.made

/-! ## Moves -/

section

variable {c : Compiler π} {input : CompileInput} {codeKey k : String} {a a' : Stage}
  {b b' : Bench π}

theorem later_withFlights {f : Flights → Flights}
    (grows : b.state.flights.Grows (f b.state.flights)) : b.Later (b.withFlights f) :=
  ⟨grows, CodeCache.ages_of_eq rfl rfl⟩

theorem later_withCache {f : CodeCache → CodeCache}
    (ages : b.state.cache.Ages (f b.state.cache)) : b.Later (b.withCache f) :=
  ⟨.refl _, ages⟩

theorem sheds_note {since : Nat} {found : ContentRecord} :
    b.Sheds (b.note codeKey since found) := by
  unfold Bench.note
  split
  · exact .refl b
  · exact .ofSite rfl rfl fun _ _ => id

theorem Move.later (m : Move c input codeKey a b a' b') : b.Later b' := by
  cases m with
  | give full key => exact (Bench.sheds_register _).later
  | board missed => exact later_withFlights Flights.grows_join
  | publish =>
      refine later_withCache ?_
      split
      · exact CodeCache.ages_insert
      · exact CodeCache.ages_refresh
  | land => exact later_withFlights (Flights.grows_update fun _ => rfl)
  | handOver => exact later_withFlights (Flights.grows_update fun _ => rfl)
  | leave => exact later_withFlights Flights.grows_leave
  | found => exact sheds_note.later
  | _ => exact Bench.later_of_eq rfl rfl

/-- Moves that touch neither the flights nor the cache, and put no foreign renderer anywhere. -/
theorem Bench.Sound.ofCode (sound : b.Sound) (flights : b'.state.flights = b.state.flights)
    (cache : b'.state.cache = b.state.cache)
    (code : ∀ {key record}, b'.site.overlay.code.get? key = some record →
      b.site.overlay.code.get? key = some record ∨ record.key = key) : b'.Sound where
  flights := by
    rw [flights]
    exact sound.flights
  code found := by
    rcases code found with before | own
    · exact sound.code before
    · exact own
  cache := by
    rw [cache]
    exact sound.cache

theorem code_insert {m : KeyMap CodeRecord} {key name : String} {renderer : Renderer}
    {record : CodeRecord}
    (h : (m.insert codeKey ⟨codeKey, name, renderer⟩).get? key = some record) :
    m.get? key = some record ∨ record.key = key := by
  rw [KeyMap.get?_insert] at h
  split at h
  · rename_i own
    cases h
    exact .inr own.symm
  · exact .inl h

theorem Move.keeps_sound (m : Move c input codeKey a b a' b') (sound : b.Sound) : b'.Sound := by
  cases m with
  | give full key => exact (Bench.sheds_register _).keeps_sound sound
  | board missed => exact ⟨sound.flights.join, sound.code, sound.cache⟩
  | fetchOn same => exact sound.ofCode rfl rfl fun found => .inl (same ▸ found)
  | readOn same => exact sound.ofCode rfl rfl fun found => .inl (same ▸ found)
  | load loads => exact sound.ofCode rfl rfl code_insert
  | writeOn change =>
      refine sound.ofCode rfl rfl fun {key record} found => ?_
      rcases change with same | kept
      · exact .inl (same ▸ found)
      · replace found := kept ▸ found
        exact code_insert found
  | publish =>
      refine ⟨sound.flights, sound.code, ?_⟩
      show CodeCache.Sound (if _ then _ else _)
      split
      · exact sound.cache.insert
      · exact sound.cache.refresh
  | land => exact ⟨sound.flights.update fun _ => rfl, sound.code, sound.cache⟩
  | handOver => exact ⟨sound.flights.update fun _ => rfl, sound.code, sound.cache⟩
  | leave => exact ⟨sound.flights.leave, sound.code, sound.cache⟩
  | found => exact sheds_note.keeps_sound sound
  | _ => exact sound.ofCode rfl rfl .inl

/-- A compile keeps its seat from boarding to leaving. -/
theorem Move.keeps_stage (m : Move c input codeKey a b a' b') (bench : b.Sound)
    (sound : a.Sound codeKey b) : a'.Sound codeKey b' := by
  have later := (sound.later m.later)
  cases m with
  | bare => exact ⟨nofun, nofun⟩
  | unplaced => exact ⟨nofun, nofun⟩
  | give full key => exact ⟨nofun, nofun⟩
  | hit => exact ⟨nofun, nofun⟩
  | board missed =>
      refine ⟨fun sits => ?_, nofun⟩
      cases sits
      exact ⟨bench.flights.seat.1, bench.flights.seat.2, Nat.le_refl _⟩
  | take asks kept =>
      refine ⟨later.seat, fun is => ?_⟩
      cases is
      exact bench.code kept
  | load loads =>
      refine ⟨later.seat, fun is => ?_⟩
      cases is
      rfl
  | generate mayNotWrite generates =>
      refine ⟨later.seat, fun is => ?_⟩
      cases is
      rfl
  | written kept =>
      refine ⟨later.seat, fun is => ?_⟩
      cases is
      rfl
  | leave => exact ⟨nofun, nofun⟩
  | _ => exact ⟨later.seat, nofun⟩

/-- What a path of moves keeps of the bench and of the stage. -/
theorem path_sound (path : (compilePlan c input codeKey).Path a b a' b') (bench : b.Sound)
    (sound : a.Sound codeKey b) : b.Later b' ∧ b'.Sound ∧ a'.Sound codeKey b' := by
  induction path with
  | refl => exact ⟨.refl b, bench, sound⟩
  | tail path m ih =>
      obtain ⟨later, bench, sound⟩ := ih
      exact ⟨later.trans (Move.later m), Move.keeps_sound m bench, Move.keeps_stage m bench sound⟩

theorem stage_sound_asked : Stage.asked.Sound codeKey b := ⟨nofun, nofun⟩

end
end TemplateCache
