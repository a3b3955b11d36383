import TemplateCache.Proofs.Compiler.Backing
import TemplateCache.Proofs.Compiler.Transparency
import TemplateCache.Proofs.Registry.History

/-!
# What a name gives after a registration

A registration files its record by key, and a look-up by name goes through the keys of the name in
their order. The record is what the name gives if its key is among those and no other record stands
in front of it; otherwise the name gives what it gave before.
-/

namespace TemplateCache

namespace Registry

variable {r : Registry} {name key : String} {record front : ContentRecord}

/-- The record that a name gives: of the records without parameters the one with the first key, and
of all records of the name if each of them has parameters. -/
structure Fronts (r : Registry) (name key : String) (record : ContentRecord) : Prop where
  listed : key ∈ r.keysOf name
  there : r.byKey.get? key = some record
  bare : record.params.isNone = true → ∀ k ∈ r.keysOf name, k < key → r.bareAt k = none
  others : record.params.isNone = false →
    ∀ k ∈ r.keysOf name, r.bareAt k = none ∧ (k < key → r.byKey.get? k = none)

theorem ascending_keysOf (r : Registry) (name : String) :
    (r.keysOf name).Pairwise (· < ·) := by
  unfold keysOf KeyMap.keys
  rw [List.pairwise_map]
  exact KeyMap.ascending _

/-- A search through ascending keys ends at the first one that has something. -/
theorem findSome?_of_first {α : Type} {f : String → Option α} {keys : List String} {value : α}
    (ascending : keys.Pairwise (· < ·)) (listed : key ∈ keys) (there : f key = some value)
    (first : ∀ k ∈ keys, k < key → f k = none) : keys.findSome? f = some value := by
  obtain ⟨before, after, rfl⟩ := List.append_of_mem listed
  rw [List.findSome?_eq_some_iff]
  refine ⟨before, key, after, rfl, there, fun k earlier => ?_⟩
  have below : k < key :=
    (List.pairwise_append.1 ascending).2.2 k earlier key List.mem_cons_self
  exact first k (List.mem_append_left _ earlier) below

theorem Fronts.get? (fronts : r.Fronts name key record) : r.get? name = some record := by
  have ascending := r.ascending_keysOf name
  obtain ⟨listed, there, bare, others⟩ := fronts
  rw [get?_eq]
  cases kind : record.params.isNone with
  | true =>
      have own : r.bareAt key = some record := by
        unfold bareAt
        rw [there]
        simp [Option.filter, kind]
      rw [findSome?_of_first ascending listed own (bare kind)]
      rfl
  | false =>
      have none : (r.keysOf name).findSome? r.bareAt = none := by
        rw [List.findSome?_eq_none_iff]
        exact fun k listed => (others kind k listed).1
      rw [none, findSome?_of_first ascending listed there fun k listed => (others kind k listed).2]
      rfl

/-- A name that gives a record without parameters goes on to give it when another record without
parameters is filed behind it. -/
theorem get?_insert_behind {k : String} (listed : k ∈ r.keysOf name)
    (there : r.bareAt k = some front) (below : k < record.key) :
    (r.insert record).get? name = r.get? name := by
  -- The first key with such a record is not behind this one, and stays the first.
  obtain ⟨found, first⟩ : ∃ found, (r.keysOf name).findSome? r.bareAt = some found := by
    rw [← Option.isSome_iff_exists, List.findSome?_isSome_iff]
    exact ⟨k, listed, by rw [there]; rfl⟩
  obtain ⟨before, least, after, split, own, none⟩ := List.findSome?_eq_some_iff.1 first
  have behind : ∀ other ∈ r.keysOf name, other ∈ before ∨ least ≤ other := by
    intro other listed
    have ascending := r.ascending_keysOf name
    rw [split] at listed ascending
    rcases List.mem_append.1 listed with earlier | rest
    · exact .inl earlier
    · rcases List.mem_cons.1 rest with rfl | later
      · exact .inr (Std.le_refl _)
      · have tail := (List.pairwise_append.1 ascending).2.1
        exact .inr (Std.le_of_lt ((List.pairwise_cons.1 tail).1 other later))
  have apart : least < record.key := by
    rcases behind k listed with earlier | least_le
    · rw [none k earlier] at there
      exact nomatch there
    · exact Std.lt_of_le_of_lt least_le below
  have inserted : ((r.insert record).keysOf name).findSome? (r.insert record).bareAt =
      some found := by
    have remains : least ∈ (r.insert record).keysOf name :=
      mem_keysOf_insert.2 (.inr (by rw [split]; simp))
    refine findSome?_of_first (ascending_keysOf _ _) remains ?_ ?_
    · rw [bareAt_insert, if_neg (Std.ne_of_lt apart)]
      exact own
    · intro other listed' lower
      have unlike : other ≠ record.key := Std.ne_of_lt (Std.lt_trans lower apart)
      rw [bareAt_insert, if_neg unlike]
      rcases mem_keysOf_insert.1 listed' with ⟨-, same⟩ | known
      · exact absurd same unlike
      · rcases behind other known with earlier | least_le
        · exact none other earlier
        · exact absurd (Std.lt_of_lt_of_le lower least_le) Std.lt_irrefl
  rw [get?_eq, get?_eq, inserted, first]
  rfl

/-- A record without parameters that is filed under the name stands in front unless one without
parameters has a smaller key. -/
theorem fronts_insert (bare : record.params.isNone = true) (own : record.name = name) :
    (r.insert record).Fronts name record.key record ↔
      ∀ k ∈ r.keysOf name, k < record.key → r.bareAt k = none := by
  constructor
  · intro fronts k listed below
    have missing := fronts.bare bare k (mem_keysOf_insert.2 (.inr listed)) below
    rwa [bareAt_insert, if_neg (Std.ne_of_lt below)] at missing
  · intro first
    refine ⟨mem_keysOf_insert.2 (.inl ⟨own.symm, rfl⟩), ?_, fun _ k listed below => ?_, ?_⟩
    · exact (KeyMap.get?_insert _ _ _ _).trans (if_pos rfl)
    · have unlike := Std.ne_of_lt below
      rw [bareAt_insert, if_neg unlike]
      rcases mem_keysOf_insert.1 listed with ⟨-, same⟩ | known
      · exact absurd same unlike
      · exact first k known below
    · intro clothed
      rw [bare] at clothed
      exact nomatch clothed

end Registry

section

variable {π : Type} {c : Compiler π} {b d : Bench π} {name contentKey : String} {content : Content}
  {answer : Except CompileError Answer}

/-- What is registered has a key. -/
theorem Compiler.Does.register_named {answer : Answer}
    (does : c.Does (.register name content) b (.ok answer) d) :
    ∃ contentKey, c.store.resolver.resolve name .content none none = .ok contentKey := by
  cases named : c.store.resolver.resolve name .content none none with
  | ok contentKey => exact ⟨contentKey, rfl⟩
  | error e =>
      simp only [Compiler.Does, Command.work, Compiler.register, named] at does
      cases does

theorem Compiler.Does.answered
    (does : c.Does (.register name content) b answer d)
    (named : c.store.resolver.resolve name .content none none = .ok contentKey) :
    answer = .ok (.content (b.state.registry.register
      (.make name contentKey content .explicit none none)).1.1) := by
  simp only [Compiler.Does, Command.work, Compiler.register, named] at does
  cases does with
  | act rest =>
      cases rest
      rfl

/-- A registration answers the record that is under its key then, with the content that was given.
The name gives this record if it stands in front, which a new record does unless one without
parameters has a smaller key; otherwise the name gives what it gave before. -/
theorem registered_record_is_given {answer : Answer}
    (does : c.Does (.register name content) b (.ok answer) d) :
    ∃ contentKey record, c.store.resolver.resolve name .content none none = .ok contentKey ∧
      answer = .content record ∧ record.content.same content = true ∧
      d.state.registry.byKey.get? contentKey = some record ∧
      (d.state.registry.Fronts name contentKey record →
        d.state.registry.get? name = some record) ∧
      (¬d.state.registry.Fronts name contentKey record →
        d.state.registry.get? name = b.state.registry.get? name) ∧
      (d.state.registry ≠ b.state.registry → (d.state.registry.Fronts name contentKey record ↔
        ∀ k ∈ b.state.registry.keysOf name, k < contentKey →
          b.state.registry.bareAt k = none)) := by
  obtain ⟨contentKey, named⟩ := does.register_named
  have registry : d.state.registry = (b.state.registry.register
      (.make name contentKey content .explicit none none)).2 := by
    rw [does.registered named, Bench.registry_register]
  have answered : answer = _ := Except.ok.inj (does.answered named)
  refine ⟨contentKey, _, named, answered, Registry.register_content _ _, ?_,
    Registry.Fronts.get?, ?_⟩
  · rw [registry]
    exact Registry.register_stored
  cases changed : (b.state.registry.register
      (.make name contentKey content .explicit none none)).1.2.changed with
  | false =>
      rw [Registry.register_unchanged changed] at registry
      constructor
      · intro _
        rw [registry]
      · intro different
        exact absurd registry different
  | true =>
      obtain ⟨overridden, stored, entered⟩ := Registry.register_changed changed
      let entry := { ContentRecord.make name contentKey content .explicit none none with
        overridden := overridden }
      have fronts : (b.state.registry.insert entry).Fronts name contentKey entry ↔ _ :=
        Registry.fronts_insert rfl rfl
      rw [registry, stored, entered]
      constructor
      · intro behind
        have passed : ∃ k ∈ b.state.registry.keysOf name, k < contentKey ∧
            b.state.registry.bareAt k ≠ none := by
          by_contra nowhere
          refine behind (fronts.2 fun k listed below => ?_)
          by_contra there
          exact nowhere ⟨k, listed, below, there⟩
        obtain ⟨k, listed, below, there⟩ := passed
        obtain ⟨front, there⟩ := Option.ne_none_iff_exists'.1 there
        exact Registry.get?_insert_behind listed there below
      · intro _
        exact fronts

end

namespace Sample

/-- A text for French, and one with an extension behind the default one. -/
def variants : List Command := [
  .compile ⟨⟨"a", none, some (KeyMap.empty.insert "lang" "fr")⟩, some (.text "salut")⟩,
  .compile ⟨⟨"a", some "txt", none⟩, some (.text "hello")⟩]

/-- A text with an extension before the default one. -/
def stylesheet : List Command := [
  .compile ⟨⟨"a", some "css", none⟩, some (.text "old")⟩]

/-- The bench after some calls. -/
def following (calls : List Command) : Bench Unit :=
  let b := Compiler.start { own := () }
  (((Compiler.inMemory {} generator resolver).serve calls b).map (·.2)).getD b

/-- The text that a name gives. -/
def givenText (b : Bench Unit) (name : String) : Option String :=
  match b.state.registry.get? name with
  | some ⟨_, _, .text text, _, _, _, _⟩ => some text
  | _ => none

end Sample

open Sample

/-- The record of the plain name stands in front of its variants. -/
theorem plain_record_is_given :
    ∃ answer d, (Compiler.inMemory {} generator resolver).Does (.register "a" (.text "new"))
        (following variants) (.ok answer) d ∧
      (following variants).state.registry.keysOf "a" =
        ["partials/a.html?lang=fr", "partials/a.txt"] ∧
      ∃ record, d.state.registry.get? "a" = some record ∧
        record.content.same (.text "new") = true := by
  have keyed : resolver.resolve "a" .content none none = .ok "partials/a.html" := rfl
  have does : (Compiler.inMemory {} generator resolver).Does (.register "a" (.text "new"))
      (following variants) _ _ := Compiler.does_of_finish (finish_register keyed (.text "new"))
  have listed : (following variants).state.registry.keysOf "a" =
      ["partials/a.html?lang=fr", "partials/a.txt"] := by decide +kernel
  refine ⟨_, _, does, listed, ?_⟩
  obtain ⟨contentKey, record, named, -, content, there, given, -, fronts⟩ :=
    registered_record_is_given does
  obtain rfl : contentKey = "partials/a.html" := Except.ok.inj (named.symm.trans keyed)
  refine ⟨record, given ((fronts ?_).2 ?_), content⟩
  · intro same
    have missing : (following variants).state.registry.byKey.get? "partials/a.html" = none := by
      decide +kernel
    rw [same, missing] at there
    exact nomatch there
  · rw [listed]
    intro k known below
    have behind : ∀ k ∈ ["partials/a.html?lang=fr", "partials/a.txt"],
        ¬k < "partials/a.html" := by decide +kernel
    exact absurd below (behind k known)

/-- A record without parameters under a smaller key stays in front of what is registered later. -/
theorem smaller_key_is_given :
    ∃ answer d, (Compiler.inMemory {} generator resolver).Does (.register "a" (.text "new"))
        (following stylesheet) (.ok answer) d ∧
      givenText d "a" = some "old" := by
  have keyed : resolver.resolve "a" .content none none = .ok "partials/a.html" := rfl
  have does : (Compiler.inMemory {} generator resolver).Does (.register "a" (.text "new"))
      (following stylesheet) _ _ := Compiler.does_of_finish (finish_register keyed (.text "new"))
  refine ⟨_, _, does, ?_⟩
  decide

end TemplateCache
