import TemplateCache.Proofs.Registry.History

/-!
# The names of a registry

A name lists a key from the time when a record of the name is put under it until the name is
removed, whatever takes the place of the record in between. So the index is exact at a key as long
as no record there gives way to one of another name, and no longer: the old name then goes on
listing the key, and takes the other name's record along when it is removed.
-/

namespace TemplateCache.Registry

variable {r : Registry} {calls : List Call} {call : Call} {record : ContentRecord}
  {key name gone : String}

/-- The name that the record under a key carries. -/
def nameAt (r : Registry) (key : String) : Option String :=
  (r.byKey.get? key).map (·.name)

/-- A name lists the key exactly if the record under the key carries it. -/
def ExactAt (r : Registry) (key : String) : Prop :=
  ∀ name, key ∈ r.keysOf name ↔ r.nameAt key = some name

/-- Whether a call takes a name out of the index. -/
def Call.Drops (call : Call) (name : String) : Prop := call = .remove name ∨ call = .clear

/-! ## What a call does with names -/

theorem nameAt_insert : (r.insert record).nameAt key =
    if key = record.key then some record.name else r.nameAt key := by
  have there : (r.insert record).byKey.get? key =
      if key = record.key then some record else r.byKey.get? key := KeyMap.get?_insert ..
  unfold nameAt
  rw [there]
  split
  · rfl
  · rfl

theorem nameAt_remove : (r.remove gone).2.nameAt key =
    if key ∈ r.keysOf gone then none else r.nameAt key := by
  unfold nameAt
  rw [byKey_remove]
  split
  · rfl
  · rfl

/-- A call that brings a record puts it under its key or changes nothing. -/
theorem Call.apply_given {given : ContentRecord} (brings : call.given? = some given) :
    call.apply r = r ∨
      ∃ overridden, call.apply r = r.insert { given with overridden := overridden } := by
  cases call with
  | register record =>
      cases brings
      cases changed : (r.register given).1.2.changed with
      | false => exact Or.inl (register_unchanged changed)
      | true =>
          obtain ⟨overridden, -, registry⟩ := register_changed changed
          exact Or.inr ⟨overridden, registry⟩
  | registerNew record =>
      cases brings
      simp only [apply, Registry.registerNew]
      split
      · exact Or.inl rfl
      · exact Or.inr ⟨given.overridden, rfl⟩
  | remove name => cases brings
  | clear => cases brings

theorem Call.cases_given (call : Call) :
    (∃ given, call.given? = some given) ∨ (∃ gone, call = .remove gone) ∨ call = .clear := by
  cases call with
  | register given => exact Or.inl ⟨given, rfl⟩
  | registerNew given => exact Or.inl ⟨given, rfl⟩
  | remove gone => exact Or.inr (Or.inl ⟨gone, rfl⟩)
  | clear => exact Or.inr (Or.inr rfl)

theorem Call.not_drops {given : ContentRecord} (brings : call.given? = some given) :
    ¬ call.Drops name := by
  rintro (rfl | rfl)
  · cases brings
  · cases brings

/-- After a call a name lists a key if it did so before and has not been dropped, or if the call has
left a record of the name there. -/
theorem mem_keysOf_apply (listed : r.nameAt key = some name → key ∈ r.keysOf name) :
    key ∈ (call.apply r).keysOf name ↔
      key ∈ r.keysOf name ∧ ¬ call.Drops name ∨ (call.apply r).nameAt key = some name := by
  rcases call.cases_given with ⟨given, brings⟩ | ⟨gone, rfl⟩ | rfl
  · have kept : ¬ call.Drops name := Call.not_drops brings
    rcases Call.apply_given brings with idle | ⟨overridden, puts⟩
    · rw [idle]
      simpa [kept] using listed
    · rw [puts, mem_keysOf_insert, nameAt_insert]
      by_cases own : key = given.key
      · simp [own, kept, or_comm, eq_comm]
      · simpa [own, kept] using listed
  · show key ∈ (r.remove gone).2.keysOf name ↔ _ ∨ (r.remove gone).2.nameAt key = some name
    rw [keysOf_remove, nameAt_remove]
    by_cases own : name = gone
    · subst own
      have dropped : Call.Drops (.remove name) name := Or.inl rfl
      by_cases there : key ∈ r.keysOf name
      · simp [dropped, there]
      · have unlike : r.nameAt key ≠ some name := fun same => there (listed same)
        simp [dropped, there, unlike]
    · have kept : ¬ Call.Drops (.remove gone) name := by
        rintro (same | same)
        · exact own (Call.remove.inj same).symm
        · cases same
      rw [if_neg own]
      split
      · simp [kept]
      · simpa [kept] using listed
  · have dropped : Call.Drops .clear name := Or.inr rfl
    have unlisted : key ∉ (Call.clear.apply r).keysOf name := List.not_mem_nil
    have unnamed : (Call.clear.apply r).nameAt key = none := rfl
    simp [dropped, unlisted, unnamed]

/-! ## Runs -/

/-- No record is missing from the index. -/
theorem mem_keysOf_of_nameAt (there : (run calls).nameAt key = some name) :
    key ∈ (run calls).keysOf name := by
  induction calls using List.reverseRecOn generalizing key name with
  | nil => cases there
  | append_singleton calls call ih =>
      rw [run_append_single] at there ⊢
      exact (mem_keysOf_apply ih).2 (Or.inr there)

/-- A name lists a key exactly if the key had a record of the name at some time since the name was
last removed. -/
theorem mem_keysOf_run : key ∈ (run calls).keysOf name ↔
    ∃ n, (run (calls.take n)).nameAt key = some name ∧ ∀ call ∈ calls.drop n, ¬ call.Drops name := by
  induction calls using List.reverseRecOn with
  | nil =>
      constructor
      · exact fun there => absurd there List.not_mem_nil
      · rintro ⟨n, there, -⟩
        rw [List.take_nil] at there
        cases there
  | append_singleton calls call ih =>
      rw [run_append_single, mem_keysOf_apply mem_keysOf_of_nameAt, ← run_append_single, ih]
      constructor
      · rintro (⟨⟨n, there, kept⟩, keeps⟩ | there)
        · by_cases inside : n ≤ calls.length
          · refine ⟨n, ?_, ?_⟩
            · rwa [List.take_append_of_le_length inside]
            · rw [List.drop_append_of_le_length inside, List.forall_mem_append]
              exact ⟨kept, by simpa using keeps⟩
          · have outside := Nat.le_of_not_le inside
            rw [List.take_of_length_le outside] at there
            refine ⟨calls.length, ?_, ?_⟩
            · rwa [List.take_left]
            · rw [List.drop_left]
              simpa using keeps
        · refine ⟨(calls ++ [call]).length, ?_, ?_⟩
          · rwa [List.take_length]
          · rw [List.drop_length]
            exact nofun
      · rintro ⟨n, there, kept⟩
        by_cases inside : n ≤ calls.length
        · rw [List.take_append_of_le_length inside] at there
          rw [List.drop_append_of_le_length inside, List.forall_mem_append] at kept
          exact Or.inl ⟨⟨n, there, kept.1⟩, by simpa using kept.2⟩
        · rw [List.take_of_length_le (by simp; omega)] at there
          exact Or.inr there

theorem mem_names_insert : name ∈ (r.insert record).names ↔ name = record.name ∨ name ∈ r.names :=
  KeyMap.mem_keys_insert

theorem mem_names_remove : name ∈ (r.remove gone).2.names ↔ name ≠ gone ∧ name ∈ r.names := by
  show name ∈ (r.byName.erase gone).keys ↔ _ ∧ name ∈ r.byName.keys
  simp only [KeyMap.mem_keys, KeyMap.get?_erase]
  by_cases own : name = gone
  · simp [own]
  · simp [own]

/-- The index has no names without keys. -/
theorem mem_names_run : name ∈ (run calls).names ↔ ∃ key, key ∈ (run calls).keysOf name := by
  induction calls using List.reverseRecOn with
  | nil =>
      constructor
      · exact fun there => absurd there List.not_mem_nil
      · rintro ⟨key, there⟩
        exact absurd there List.not_mem_nil
  | append_singleton calls call ih =>
      rw [run_append_single]
      rcases call.cases_given with ⟨given, brings⟩ | ⟨gone, rfl⟩ | rfl
      · rcases Call.apply_given (r := run calls) brings with idle | ⟨overridden, puts⟩
        · rwa [idle]
        · rw [puts, mem_names_insert, ih]
          simp [mem_keysOf_insert, exists_or]
      · show name ∈ ((run calls).remove gone).2.names ↔
          ∃ key, key ∈ ((run calls).remove gone).2.keysOf name
        rw [mem_names_remove, ih, keysOf_remove]
        by_cases own : name = gone
        · simp [own]
        · simp [own]
      · constructor
        · exact fun there => absurd there List.not_mem_nil
        · rintro ⟨key, there⟩
          exact absurd there List.not_mem_nil

/-! ## Where the index is exact -/

/-- The record under a key goes with its name, and otherwise there is still one. -/
theorem nameAt_apply_eq_none (index : r.ExactAt key) (there : r.nameAt key = some name) :
    (call.apply r).nameAt key = none ↔ call.Drops name := by
  rcases call.cases_given with ⟨given, brings⟩ | ⟨gone, rfl⟩ | rfl
  · have stays : (call.apply r).nameAt key ≠ none := by
      rcases Call.apply_given (r := r) brings with idle | ⟨overridden, puts⟩
      · rw [idle, there]
        exact Option.some_ne_none name
      · rw [puts, nameAt_insert, there]
        split
        · exact Option.some_ne_none _
        · exact Option.some_ne_none _
    exact ⟨fun goes => absurd goes stays, fun drops => absurd drops (Call.not_drops brings)⟩
  · show (r.remove gone).2.nameAt key = none ↔ _
    have listed := index gone
    rw [there, Option.some.injEq] at listed
    rw [nameAt_remove, there]
    by_cases own : name = gone
    · simp [listed.2 own, own, Call.Drops]
    · simp [mt listed.1 own, Ne.symm own, Call.Drops]
  · exact ⟨fun _ => Or.inr rfl, fun _ => rfl⟩

/-- A call leaves the index exact at a key unless it gives the key a record of another name. -/
theorem exactAt_apply (index : r.ExactAt key) :
    (call.apply r).ExactAt key ↔ ∀ old new, r.nameAt key = some old →
      (call.apply r).nameAt key = some new → new = old := by
  have listed {name : String} : key ∈ (call.apply r).keysOf name ↔
      r.nameAt key = some name ∧ ¬ call.Drops name ∨ (call.apply r).nameAt key = some name := by
    rw [mem_keysOf_apply (index name).2, index]
  constructor
  · intro still old new before after
    have kept : ¬ call.Drops old := by
      rw [← nameAt_apply_eq_none index before, after]
      exact Option.some_ne_none new
    have same := (still old).1 (listed.2 (Or.inl ⟨before, kept⟩))
    exact Option.some.inj (after.symm.trans same)
  · intro same name
    rw [listed, or_iff_right_iff_imp]
    rintro ⟨before, kept⟩
    rw [← nameAt_apply_eq_none index before, ← ne_eq, Option.ne_none_iff_exists'] at kept
    obtain ⟨new, after⟩ := kept
    rw [after, same name new before after]

/-- The index is exact at a key throughout if and only if the record there never gives way to one
of another name. -/
theorem exactAt_run : (∀ n, (run (calls.take n)).ExactAt key) ↔
    ∀ n old new, (run (calls.take n)).nameAt key = some old →
      (run (calls.take (n + 1))).nameAt key = some new → new = old := by
  have next (n : Nat) : (∃ call : Call, run (calls.take (n + 1)) = call.apply (run (calls.take n))) ∨
      run (calls.take (n + 1)) = run (calls.take n) := by
    by_cases inside : n < calls.length
    · left
      refine ⟨calls[n], ?_⟩
      rw [← run_append_single, List.take_append_getElem]
    · right
      rw [List.take_of_length_le (by omega), List.take_of_length_le (by omega)]
  constructor
  · intro all n old new before after
    rcases next n with ⟨call, goes⟩ | idle
    · have still := all (n + 1)
      rw [goes] at still after
      exact (exactAt_apply (all n)).1 still old new before after
    · rw [idle, before] at after
      exact (Option.some.inj after).symm
  · intro same n
    induction n with
    | zero =>
        intro name
        exact ⟨fun there => absurd there List.not_mem_nil, nofun⟩
    | succ n ih =>
        rcases next n with ⟨call, goes⟩ | idle
        · have kept := same n
          rw [goes] at kept ⊢
          exact (exactAt_apply ih).2 kept
        · rwa [idle]

/-- Records come from calls. -/
theorem nameAt_run (there : (run calls).nameAt key = some name) :
    ∃ given ∈ calls.filterMap Call.given?, given.key = key ∧ given.name = name := by
  induction calls using List.reverseRecOn with
  | nil => cases there
  | append_singleton calls call ih =>
      have earlier (there : (run calls).nameAt key = some name) :
          ∃ given ∈ (calls ++ [call]).filterMap Call.given?,
            given.key = key ∧ given.name = name := by
        obtain ⟨given, listed, own⟩ := ih there
        refine ⟨given, ?_, own⟩
        rw [List.filterMap_append]
        exact List.mem_append_left _ listed
      rw [run_append_single] at there
      rcases call.cases_given with ⟨given, brings⟩ | ⟨gone, rfl⟩ | rfl
      · rcases Call.apply_given (r := run calls) brings with idle | ⟨overridden, puts⟩
        · rw [idle] at there
          exact earlier there
        · rw [puts, nameAt_insert] at there
          split at there
          · rename_i own
            refine ⟨given, ?_, own.symm, Option.some.inj there⟩
            rw [List.filterMap_append]
            apply List.mem_append_right
            simp [brings]
          · exact earlier there
      · replace there : ((run calls).remove gone).2.nameAt key = some name := there
        rw [nameAt_remove] at there
        split at there
        · cases there
        · exact earlier there
      · cases there

/-- The index is exact where all records that are given under a key carry one name. -/
theorem exactAt_of_given (own : ∀ given ∈ calls.filterMap Call.given?, given.key = key →
    given.name = name) : (run calls).ExactAt key := by
  have named {n : Nat} {other : String} (there : (run (calls.take n)).nameAt key = some other) :
      other = name := by
    obtain ⟨given, listed, here, rfl⟩ := nameAt_run there
    exact own given (((List.take_sublist n calls).filterMap _).subset listed) here
  have all := exactAt_run.2 fun n old new before after => (named after).trans (named before).symm
  have last := all calls.length
  rwa [List.take_length] at last

/-- A name lists the keys that have had a record of the name since it was last removed, and the
names of the registry are those that list one. A removal takes the records under the keys that its
name lists, all of the name among them. The index is exact at a key as long as no record there gives
way to one of another name. Where it is exact at all keys, the names are those that records carry,
and a removal takes the records that carry its name and no other. -/
theorem names_of_run (calls : List Call) :
    (∀ name key, key ∈ (run calls).keysOf name ↔ ∃ n, (run (calls.take n)).nameAt key = some name ∧
      ∀ call ∈ calls.drop n, call ≠ .remove name ∧ call ≠ .clear) ∧
    (∀ name, name ∈ (run calls).names ↔ ∃ key, key ∈ (run calls).keysOf name) ∧
    (∀ gone key, ((run calls).remove gone).2.byKey.get? key =
      if key ∈ (run calls).keysOf gone then none else (run calls).byKey.get? key) ∧
    (∀ key name, (run calls).nameAt key = some name → key ∈ (run calls).keysOf name) ∧
    (∀ key, (∀ n, (run (calls.take n)).ExactAt key) ↔
      ∀ n old new, (run (calls.take n)).nameAt key = some old →
        (run (calls.take (n + 1))).nameAt key = some new → new = old) ∧
    ((∀ key, (run calls).ExactAt key) →
      (∀ name, name ∈ (run calls).names ↔ ∃ key, (run calls).nameAt key = some name) ∧
      ∀ gone key, ((run calls).remove gone).2.byKey.get? key =
        ((run calls).byKey.get? key).filter fun record => record.name ≠ gone) := by
  refine ⟨?_, ?_, ?_, ?_, ?_, ?_⟩
  · intro name key
    rw [mem_keysOf_run]
    simp only [Call.Drops, not_or, ne_eq]
  · intro name
    exact mem_names_run
  · intro gone key
    exact byKey_remove
  · intro key name there
    exact mem_keysOf_of_nameAt there
  · intro key
    exact exactAt_run
  · intro index
    constructor
    · intro name
      rw [mem_names_run]
      exact exists_congr fun key => index key name
    · intro gone key
      have listed := index key gone
      rw [byKey_remove]
      unfold nameAt at listed
      cases there : (run calls).byKey.get? key with
      | none => simp
      | some record =>
          rw [there] at listed
          simp [listed, Option.filter]

end TemplateCache.Registry

namespace TemplateCache

namespace Sample

/-- A record that shares its key with those of other names. -/
def aliased (name text : String) : ContentRecord :=
  .make name "partials/a.html" (.text text) .explicit none none

/-- A record of a name of its own, with parameters or without. -/
def owned (name query : String) : ContentRecord :=
  .make name ("partials/" ++ name ++ ".html" ++ query) (.text "x") .explicit none none

/-- Two variants of a name are registered, and one of them twice, beside another name. -/
def ownedCalls : List Registry.Call :=
  [.register (owned "b" ""), .register (owned "b" "?lang=fr"), .registerNew (owned "c" ""),
    .register (owned "b" "")]

end Sample

open Sample

/-- With the name `b`, its two records go, and that of `c` stays. -/
theorem owned_names_are_exact :
    (∀ key, (Registry.run ownedCalls).ExactAt key) ∧
      (∀ name, name ∈ ["b", "c"] ↔ ∃ key, (Registry.run ownedCalls).nameAt key = some name) ∧
      ∀ key, ((Registry.run ownedCalls).remove "b").2.byKey.get? key =
        ((Registry.run ownedCalls).byKey.get? key).filter fun record => record.name ≠ "b" := by
  have own : ∀ given ∈ ownedCalls.filterMap Registry.Call.given?,
      ∀ other ∈ ownedCalls.filterMap Registry.Call.given?, given.key = other.key →
        given.name = other.name := by
    decide +kernel
  have index (key : String) : (Registry.run ownedCalls).ExactAt key := by
    by_cases used : ∃ other ∈ ownedCalls.filterMap Registry.Call.given?, other.key = key
    · obtain ⟨other, listed, rfl⟩ := used
      exact Registry.exactAt_of_given fun given there => own given there other listed
    · exact @Registry.exactAt_of_given ownedCalls key "" fun given there here =>
        absurd ⟨given, there, here⟩ used
  obtain ⟨-, -, -, -, -, names⟩ := Registry.names_of_run ownedCalls
  exact ⟨index, (names index).1, (names index).2 "b"⟩

/-- A record of the name `b` takes the place of one of the name `a`, and is removed with `a`: then
there is no record, and `b` is listed. -/
theorem replaced_name_takes_record_along :
    let r := Registry.run [.register (aliased "a" "x"), .register (aliased "b" "y")]
    ¬ r.ExactAt "partials/a.html" ∧ r.nameAt "partials/a.html" = some "b" ∧
      r.names = ["a", "b"] ∧ (r.remove "a").1.map (·.name) = ["b"] ∧
      (r.remove "a").2.nameAt "partials/a.html" = none ∧ (r.remove "a").2.size = 0 ∧
      (r.remove "a").2.names = ["b"] := by
  intro r
  have named : r.nameAt "partials/a.html" = some "b" := by decide +kernel
  refine ⟨?_, named, ?_⟩
  · intro index
    have listed : "partials/a.html" ∈ r.keysOf "a" := by decide +kernel
    have other := (index "a").1 listed
    rw [named] at other
    exact absurd other (by decide)
  · decide +kernel

end TemplateCache
