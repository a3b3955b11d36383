import TemplateCache.Proofs.Compiler.Steps

/-!
# What flights carry

The callers of a flight that bring content all bring the same: what is registered while the key
leads to the flight, since a registration of anything else detaches the key. `Laden` says so of the
bench, `Bears` of a compile, and `Paces.carried` is what a single step does to both.
-/

namespace TemplateCache

open Job

variable {π : Type}

/-! ## What a registration keeps -/

/-- Content that is kept for given content is the same, or equal to it in the registry. -/
def Content.StandsFor (kept given : Content) : Prop := kept = given ∨ kept.same given = true

/-- For text there is no difference. -/
theorem Content.StandsFor.text {kept : Content} {text : String}
    (stands : kept.StandsFor (.text text)) : kept = .text text := by
  rcases stands with same | same
  · exact same
  · cases kept with
    | text other => exact congrArg Content.text (beq_iff_eq.1 same)
    | json value => cases same

theorem Registry.merge_same {known given : ContentRecord}
    (same : (merge known given).2 = .unchanged) : known.content.same given.content = true := by
  unfold merge at same
  split at same
  · cases same
  · cases same
  · dsimp only at same
    split at same
    · rename_i equal
      exact (Bool.and_eq_true_iff.1 equal).1
    · cases same

theorem Registry.register_standsFor (r : Registry) (given : ContentRecord) :
    (r.register given).1.1.content.StandsFor given.content := by
  cases changed : (r.register given).1.2.changed with
  | true =>
      obtain ⟨overridden, stored, -⟩ := register_changed changed
      rw [stored]
      exact .inl rfl
  | false =>
      unfold register at *
      cases before : r.byKey.get? given.key with
      | none =>
          simp only [before] at changed
          cases changed
      | some known =>
          simp only [before] at changed ⊢
          have kept (same : (merge known given).2 = .unchanged) := merge_unchanged same
          have equal (same : (merge known given).2 = .unchanged) := merge_same same
          rcases outcome : merge known given with ⟨record, change⟩
          simp only [outcome] at changed kept equal ⊢
          cases change with
          | unchanged =>
              rw [kept rfl]
              exact .inr (equal rfl)
          | _ => cases changed

/-! ## What flights carry -/

section

variable (c : Compiler π) (contentKey codeKey : String) (first : Nat) (cargo : Nat → Content)

/-- From the flight `first` on, the flights of a code key carry contents: what lands is made from
the content of its flight, and what the key leads to and what is cached belongs to the content that
is registered. -/
structure Bench.Laden (b : Bench π) : Prop where
  keyed : b.state.flights.Keyed
  begun : first ≤ b.state.flights.all.length
  current : ∀ {n}, b.state.flights.current.get? codeKey = some n →
    first ≤ n ∧ b.Holds contentKey (cargo n)
  landed : ∀ {n record}, first ≤ n → (b.state.flights.flight n).key = codeKey →
    (b.state.flights.flight n).result = some record → c.MadeFrom (cargo n) record
  cached : c.settings.caching = true → ∀ {record}, b.state.cache.get? codeKey = some record →
    ∃ content, b.Holds contentKey content ∧ c.MadeFrom content record

/-- What was registered for content that a compile brought, and is registered still. -/
def Bench.Keeps (content : Content) (given : Option ContentRecord) (b : Bench π) : Prop :=
  ∃ known, given = some known ∧ known.content.StandsFor content ∧
    b.Holds contentKey known.content

/-- After some steps, a compile that brought content goes on with what was registered for it: this
is what the registry has until it boards, and then what its flight carries. -/
def Phase.Bears (content : Content) (b : Bench π) (taken : Nat) : Phase → Prop
  | asked => taken = 0
  | registered given => taken = 1 ∧ b.Keeps contentKey content given
  | dated given _ => taken = 2 ∧ b.Keeps contentKey content given
  | missed given _ => taken = 3 ∧ b.Keeps contentKey content given
  | waiting t | called t | working t =>
    first ≤ t.number ∧ ∃ known, t.given = some known ∧ known.content.StandsFor content ∧
      cargo t.number = known.content
  | leaving _ result | finished result =>
    ∀ record, result = .ok record → ∃ kept, kept.StandsFor content ∧ c.MadeFrom kept record

/-- The seat of a compile is in a flight of its code key. -/
def Phase.Sits (f : Flights) (a : Phase) : Prop :=
  ∀ t, a.seat? = some t → t.number < f.all.length ∧ (f.flight t.number).key = codeKey

end

section

variable {c : Compiler π} {contentKey codeKey key : String} {first : Nat}
  {cargo cargo' : Nat → Content} {b d : Bench π} {f : Flights} {a : Phase} {content : Content}

theorem Bench.Holds.unique {content' : Content} (holds : b.Holds contentKey content)
    (holds' : b.Holds contentKey content') : content = content' := by
  obtain ⟨record, there, rfl⟩ := holds
  obtain ⟨record', there', rfl⟩ := holds'
  cases there.symm.trans there'
  rfl

theorem Bench.Holds.retains (holds : b.Holds contentKey content) (retains : b.Retains d) :
    d.Holds contentKey content := by
  obtain ⟨record, there, same⟩ := holds
  exact ⟨record, retains.records there, same⟩

theorem Phase.Sits.grows (sits : a.Sits key f) {f' : Flights} (grows : f.Grows f') :
    a.Sits key f' := by
  intro t seated
  obtain ⟨bound, own⟩ := sits t seated
  exact ⟨Nat.lt_of_lt_of_le bound grows.length, (grows.key bound).trans own⟩

theorem Phase.Bears.opening {taken : Nat}
    (bears : a.Bears c contentKey first cargo content b taken) (opens : a.Opens) :
    1 ≤ taken ∧ taken ≤ 3 := by
  cases a with
  | registered given =>
      obtain ⟨rfl, -⟩ := bears
      decide
  | dated given since =>
      obtain ⟨rfl, -⟩ := bears
      decide
  | missed given since =>
      obtain ⟨rfl, -⟩ := bears
      decide
  | _ => exact opens.elim

/-- What others do leaves a compile as it is, if the registry keeps what it needs. -/
theorem Phase.Bears.later {taken : Nat} (bears : a.Bears c contentKey first cargo content b taken)
    (sits : a.Sits key f) (same : ∀ n, n < f.all.length → cargo' n = cargo n)
    (holds : a.Opens → ∀ {content}, b.Holds contentKey content → d.Holds contentKey content) :
    a.Bears c contentKey first cargo' content d taken := by
  have keeps {given} (opens : a.Opens) (keeps : b.Keeps contentKey content given) :
      d.Keeps contentKey content given := by
    obtain ⟨known, is, stands, there⟩ := keeps
    exact ⟨known, is, stands, holds opens there⟩
  have rides (t : Ticket) (seated : a.seat? = some t)
      (rides : first ≤ t.number ∧ ∃ known, t.given = some known ∧
        known.content.StandsFor content ∧ cargo t.number = known.content) :
      first ≤ t.number ∧ ∃ known, t.given = some known ∧ known.content.StandsFor content ∧
        cargo' t.number = known.content := by
    obtain ⟨later, known, given, stands, own⟩ := rides
    exact ⟨later, known, given, stands, (same _ (sits t seated).1).trans own⟩
  cases a with
  | asked => exact bears
  | registered given => exact ⟨bears.1, keeps trivial bears.2⟩
  | dated given since => exact ⟨bears.1, keeps trivial bears.2⟩
  | missed given since => exact ⟨bears.1, keeps trivial bears.2⟩
  | waiting t => exact rides t rfl bears
  | called t => exact rides t rfl bears
  | working t => exact rides t rfl bears
  | leaving t result => exact bears
  | finished result => exact bears

theorem Flights.bound_of_result {n : Nat} {record : CodeRecord}
    (lands : (f.flight n).result = some record) : n < f.all.length := by
  by_contra beyond
  rw [Flights.flight_beyond (Nat.le_of_not_lt beyond)] at lands
  cases lands

theorem Flights.Sheds.grows {f' : Flights} (sheds : f.Sheds f') : f.Grows f' where
  length := Nat.le_of_eq (congrArg List.length sheds.all.symm)
  key _ := congrArg Flight.key (sheds.flight _)
  current leads := .inl (sheds.current leads)

namespace Bench.Laden

theorem of_flights (laden : b.Laden c contentKey codeKey first cargo) (keyed : f.Keyed)
    (begun : first ≤ f.all.length)
    (current : ∀ {n}, f.current.get? codeKey = some n →
      b.state.flights.current.get? codeKey = some n)
    (landed : ∀ {n record}, first ≤ n → (f.flight n).key = codeKey →
      (f.flight n).result = some record → c.MadeFrom (cargo n) record) :
    (b.withFlights fun _ => f).Laden c contentKey codeKey first cargo where
  keyed := keyed
  begun := begun
  current leads := laden.current (current leads)
  landed := landed
  cached := laden.cached

/-- A registration that changes the content of the key detaches its flight and drops its cached
renderer. -/
theorem register (laden : b.Laden c contentKey codeKey first cargo)
    (matched : c.store.resolver.codeKeyOf contentKey = codeKey) (record : ContentRecord) :
    (Bench.register c.store.resolver record b).2.Laden c contentKey codeKey first cargo := by
  have prepares : b.Prepares (Bench.register c.store.resolver record b).2 :=
    prepares_register record
  have sheds := prepares.flights
  have keyed : (Bench.register c.store.resolver record b).2.state.flights.Keyed := by
    intro k n leads
    rw [sheds.all, sheds.flight]
    exact laden.keyed k n (sheds.current leads)
  have begun : first ≤ (Bench.register c.store.resolver record b).2.state.flights.all.length := by
    rw [sheds.all]
    exact laden.begun
  have landed {n made} (later : first ≤ n)
      (own : ((Bench.register c.store.resolver record b).2.state.flights.flight n).key = codeKey)
      (lands : ((Bench.register c.store.resolver record b).2.state.flights.flight n).result =
        some made) : c.MadeFrom (cargo n) made := by
    rw [sheds.flight] at own lands
    exact laden.landed later own lands
  cases changed : (b.state.registry.register record).1.2.changed with
  | false =>
      have bench : (Bench.register c.store.resolver record b).2 = b := by
        rw [register_unchanged changed, Registry.register_unchanged changed]
        rfl
      rw [bench]
      exact laden
  | true =>
      obtain ⟨overridden, stored, -⟩ := Registry.register_changed changed
      have own : c.store.resolver.codeKeyOf record.key ∈
          codeKeys c.store.resolver (b.state.registry.register record).1.1 := by
        rw [stored]
        exact own_mem_codeKeys
      -- What is registered under the content key is another one now only if its code key is gone.
      have spared (kept : codeKey ∉
          codeKeys c.store.resolver (b.state.registry.register record).1.1) {content : Content}
          (holds : b.Holds contentKey content) :
          (Bench.register c.store.resolver record b).2.Holds contentKey content := by
        have other : record.key ≠ contentKey := by
          rintro rfl
          rw [matched] at own
          exact kept own
        obtain ⟨known, there, same⟩ := holds
        exact ⟨known, Has.register there other, same⟩
      refine ⟨keyed, begun, ?_, landed, ?_⟩
      · intro n leads
        rw [register_changed changed, current_invalidate] at leads
        split at leads
        · cases leads
        · rename_i kept
          obtain ⟨later, holds⟩ := laden.current leads
          exact ⟨later, spared kept holds⟩
      · intro caching made cached
        rw [register_changed changed, cache_invalidate, CodeCache.get?_invalidate] at cached
        split at cached
        · cases cached
        · rename_i kept
          obtain ⟨content, holds, fine⟩ := laden.cached caching cached
          exact ⟨content, spared kept holds, fine⟩

/-- A caller boards with the content that is registered, and the flight carries it. -/
theorem board (laden : b.Laden c contentKey codeKey first cargo)
    (holds : b.Holds contentKey content) : ∃ cargo' : Nat → Content,
    (∀ n, n < b.state.flights.all.length → cargo' n = cargo n) ∧
    (b.withFlights fun f => (f.join codeKey).2).Laden c contentKey codeKey first cargo' ∧
    first ≤ (b.state.flights.join codeKey).1.1 ∧
    cargo' (b.state.flights.join codeKey).1.1 = content := by
  have landed {n record} (own : ((b.state.flights.join codeKey).2.flight n).key = codeKey)
      (lands : ((b.state.flights.join codeKey).2.flight n).result = some record) :
      n < b.state.flights.all.length ∧ (b.state.flights.flight n).key = codeKey ∧
        (b.state.flights.flight n).result = some record := by
    rw [Flights.result_join] at lands
    have bound := Flights.bound_of_result lands
    rw [Flights.key_join bound] at own
    exact ⟨bound, own, lands⟩
  have begun : first ≤ (b.state.flights.join codeKey).2.all.length :=
    Nat.le_trans laden.begun Flights.length_join
  cases leads : b.state.flights.current.get? codeKey with
  | some n =>
      obtain ⟨later, carries⟩ := laden.current leads
      have own : cargo n = content := carries.unique holds
      rw [Flights.join_boarded leads]
      refine ⟨cargo, fun _ _ => rfl, ⟨laden.keyed.join, begun, ?_, ?_, laden.cached⟩, later, own⟩
      · intro m leads'
        replace leads' : (b.state.flights.join codeKey).2.current.get? codeKey = some m := leads'
        rw [Flights.current_join, if_pos rfl, Flights.join_boarded leads] at leads'
        cases leads'
        exact ⟨later, carries⟩
      · intro m record later own lands
        obtain ⟨-, own, lands⟩ := landed own lands
        exact laden.landed later own lands
  | none =>
      rw [Flights.join_new leads]
      have before (n : Nat) (bound : n < b.state.flights.all.length) :
          Function.update cargo b.state.flights.all.length content n = cargo n :=
        Function.update_of_ne (Nat.ne_of_lt bound) _ _
      refine ⟨Function.update cargo b.state.flights.all.length content, before,
        ⟨laden.keyed.join, begun, ?_, ?_, laden.cached⟩, laden.begun, Function.update_self ..⟩
      · intro m leads'
        replace leads' : (b.state.flights.join codeKey).2.current.get? codeKey = some m := leads'
        rw [Flights.current_join, if_pos rfl, Flights.join_new leads] at leads'
        cases leads'
        rw [Function.update_self]
        exact ⟨laden.begun, holds⟩
      · intro m record later own lands
        obtain ⟨bound, own, lands⟩ := landed own lands
        rw [before m bound]
        exact laden.landed later own lands

theorem board_other (laden : b.Laden c contentKey codeKey first cargo) (other : key ≠ codeKey) :
    (b.withFlights fun f => (f.join key).2).Laden c contentKey codeKey first cargo := by
  refine laden.of_flights laden.keyed.join
    (Nat.le_trans laden.begun Flights.length_join) ?_ ?_
  · intro n leads
    rw [Flights.current_join, if_neg (Ne.symm other)] at leads
    exact leads
  · intro n record later own lands
    rw [Flights.result_join] at lands
    rw [Flights.key_join (Flights.bound_of_result lands)] at own
    exact laden.landed later own lands

theorem land (laden : b.Laden c contentKey codeKey first cargo) {number : Nat}
    {record : CodeRecord} (fine : first ≤ number →
      (b.state.flights.flight number).key = codeKey → c.MadeFrom (cargo number) record) :
    (b.withFlights (·.land number record)).Laden c contentKey codeKey first cargo := by
  have keys (n : Nat) : ((b.state.flights.land number record).flight n).key =
      (b.state.flights.flight n).key := Flights.key_update fun _ => rfl
  refine laden.of_flights (laden.keyed.update fun _ => rfl) ?_ id ?_
  · unfold Flights.land
    rw [Flights.length_update]
    exact laden.begun
  · intro n made later own lands
    rw [keys] at own
    by_cases same : n = number
    · subst same
      have bound : n < b.state.flights.all.length := by
        have bound := Flights.bound_of_result lands
        unfold Flights.land at bound
        rwa [Flights.length_update] at bound
      rw [Flights.result_land_own record bound] at lands
      cases lands
      exact fine later own
    · rw [Flights.result_land_other record same] at lands
      exact laden.landed later own lands

theorem handOver (laden : b.Laden c contentKey codeKey first cargo) (number : Nat) :
    (b.withFlights (·.handOver number)).Laden c contentKey codeKey first cargo := by
  have keys (n : Nat) : ((b.state.flights.handOver number).flight n).key =
      (b.state.flights.flight n).key := Flights.key_update fun _ => rfl
  refine laden.of_flights (laden.keyed.update fun _ => rfl) ?_ id ?_
  · unfold Flights.handOver
    rw [Flights.length_update]
    exact laden.begun
  · intro n made later own lands
    rw [keys] at own
    rw [Flights.result_handOver] at lands
    exact laden.landed later own lands

theorem leave (laden : b.Laden c contentKey codeKey first cargo) (number : Nat) :
    (b.withFlights (·.leave key number)).Laden c contentKey codeKey first cargo := by
  refine laden.of_flights laden.keyed.leave ?_ Flights.current_leave ?_
  · rw [Flights.sheds_leave.all]
    exact laden.begun
  · intro n made later own lands
    rw [Flights.flight_leave] at own lands
    exact laden.landed later own lands

/-- What an attempt does leaves everything in order if what it caches is. -/
theorem retains (laden : b.Laden c contentKey codeKey first cargo) (retains : b.Retains d)
    (caches : c.settings.caching = true → ∀ record,
      d.state.cache.get? codeKey = some record → b.state.cache.get? codeKey = some record ∨
        ∃ content, d.Holds contentKey content ∧ c.MadeFrom content record) :
    d.Laden c contentKey codeKey first cargo where
  keyed := by
    rw [retains.flights]
    exact laden.keyed
  begun := by
    rw [retains.flights]
    exact laden.begun
  current leads := by
    rw [retains.flights] at leads
    obtain ⟨later, holds⟩ := laden.current leads
    exact ⟨later, holds.retains retains⟩
  landed later own lands := by
    rw [retains.flights] at own lands
    exact laden.landed later own lands
  cached caching record cached := by
    rcases caches caching record cached with before | fine
    · obtain ⟨content, holds, made⟩ := laden.cached caching before
      exact ⟨content, holds.retains retains, made⟩
    · exact fine

end Bench.Laden

variable (c contentKey codeKey key first cargo) in
/-- What a step of a compile under a key leaves, given what it found. -/
structure Carried (input : CompileInput) (b : Bench π) (taken : Nat) (a : Phase) (d : Bench π)
    (cargo' : Nat → Content) : Prop where
  same : ∀ n, n < b.state.flights.all.length → cargo' n = cargo n
  grows : b.state.flights.Grows d.state.flights
  laden : d.Laden c contentKey codeKey first cargo'
  sits : a.Sits key d.state.flights
  bears : key = codeKey → ∃ content, input.content = some content ∧
    a.Bears c contentKey first cargo' content d (taken + 1)

/-- A step of a compile leaves everything in order if what is cached is made from what is
registered. -/
theorem Paces.carried {input : CompileInput} {taken : Nat} {a' : Phase}
    (paces : Paces c input key a b a' d)
    (matched : c.store.resolver.codeKeyOf contentKey = codeKey)
    (named : key = codeKey → input.address.key c.store.resolver .content = .ok contentKey)
    (laden : b.Laden c contentKey codeKey first cargo) (sits : a.Sits key b.state.flights)
    (bears : key = codeKey → ∃ content, input.content = some content ∧
      a.Bears c contentKey first cargo content b taken)
    (caches : c.settings.caching = true → ∀ record,
      d.state.cache.get? codeKey = some record → b.state.cache.get? codeKey = some record ∨
        ∃ content, d.Holds contentKey content ∧ c.MadeFrom content record) :
    ∃ cargo', Carried c contentKey codeKey key first cargo input b taken a' d cargo' := by
  cases paces with
  | @register _ content contentKey' full keyed =>
      refine ⟨cargo, fun _ _ => rfl, (Bench.prepares_register _).flights.grows,
        laden.register matched _, nofun, fun own => ?_⟩
      obtain ⟨content', full', none⟩ := bears own
      cases full.symm.trans full'
      cases keyed.symm.trans (named own)
      refine ⟨content, full, congrArg Nat.succ none, _, rfl, Registry.register_standsFor _ _,
        _, ?_, rfl⟩
      rw [Bench.registry_register]
      exact Registry.register_stored
  | date =>
      refine ⟨cargo, fun _ _ => rfl, .refl _, laden, nofun, fun own => ?_⟩
      obtain ⟨content, full, one, keeps⟩ := bears own
      exact ⟨content, full, congrArg Nat.succ one, keeps⟩
  | @hit _ given since record caching cached =>
      refine ⟨cargo, fun _ _ => rfl, .refl _, laden, nofun, fun own => ?_⟩
      obtain ⟨content, full, -, known, rfl, stands, holds⟩ := bears own
      subst own
      obtain ⟨content', holds', made⟩ := laden.cached caching cached
      obtain rfl := holds.unique holds'
      refine ⟨content, full, ?_⟩
      rintro _ ⟨rfl⟩
      exact ⟨known.content, stands, made⟩
  | miss missed =>
      refine ⟨cargo, fun _ _ => rfl, .refl _, laden, nofun, fun own => ?_⟩
      obtain ⟨content, full, two, keeps⟩ := bears own
      exact ⟨content, full, congrArg Nat.succ two, keeps⟩
  | @board _ given since =>
      have seat : (Phase.waiting ⟨(b.state.flights.join key).1.1, (b.state.flights.join key).1.2,
          since, given⟩).Sits key (b.state.flights.join key).2 := by
        rintro _ ⟨rfl⟩
        exact laden.keyed.seat
      by_cases own : key = codeKey
      · obtain ⟨content, full, -, known, rfl, stands, holds⟩ := bears own
        subst own
        obtain ⟨cargo', same, laden', later, carries⟩ := laden.board holds
        exact ⟨cargo', same, Flights.grows_join, laden', seat, fun _ =>
          ⟨content, full, later, known, rfl, stands, carries⟩⟩
      · exact ⟨cargo, fun _ _ => rfl, Flights.grows_join, laden.board_other own, seat,
          fun same => absurd same own⟩
  | stay => exact ⟨cargo, fun _ _ => rfl, .refl _, laden, sits, bears⟩
  | call due => exact ⟨cargo, fun _ _ => rfl, .refl _, laden, sits, bears⟩
  | @share _ t record landed =>
      refine ⟨cargo, fun _ _ => rfl, .refl _, laden, sits, fun own => ?_⟩
      obtain ⟨content, full, later, known, -, stands, carries⟩ := bears own
      obtain ⟨-, seated⟩ := sits t rfl
      refine ⟨content, full, ?_⟩
      rintro _ ⟨rfl⟩
      exact ⟨known.content, stands, carries ▸ laden.landed later (seated.trans own) landed⟩
  | begin flying => exact ⟨cargo, fun _ _ => rfl, .refl _, laden, sits, bears⟩
  | work retains =>
      refine ⟨cargo, fun _ _ => rfl, ?_, laden.retains retains caches, ?_, bears⟩
      · rw [retains.flights]
        exact .refl _
      · rw [retains.flights]
        exact sits
  | @land _ t record renders =>
      obtain ⟨-, seated⟩ := sits t rfl
      have grows : b.state.flights.Grows (b.state.flights.land t.number record) :=
        Flights.grows_update fun _ => rfl
      refine ⟨cargo, fun _ _ => rfl, grows, laden.land fun _ own => ?_, sits.grows grows,
        fun own => ?_⟩
      · obtain ⟨content, -, -, known, given, -, carries⟩ := bears (seated.symm.trans own)
        rw [carries]
        exact renders known record given rfl
      · obtain ⟨content, full, -, known, given, stands, -⟩ := bears own
        refine ⟨content, full, ?_⟩
        rintro _ ⟨rfl⟩
        exact ⟨known.content, stands, renders known record given rfl⟩
  | @handOver _ t e =>
      have grows : b.state.flights.Grows (b.state.flights.handOver t.number) :=
        Flights.grows_update fun _ => rfl
      refine ⟨cargo, fun _ _ => rfl, grows, laden.handOver _, sits.grows grows, fun own => ?_⟩
      obtain ⟨content, full, -⟩ := bears own
      exact ⟨content, full, fun _ => nofun⟩
  | leave =>
      refine ⟨cargo, fun _ _ => rfl, Flights.grows_leave, laden.leave _, nofun, fun own => ?_⟩
      obtain ⟨content, full, fine⟩ := bears own
      exact ⟨content, full, fine⟩
  | rest => exact ⟨cargo, fun _ _ => rfl, .refl _, laden, sits, bears⟩

end

end TemplateCache
