import TemplateCache.Proofs.KeyMap
import TemplateCache.Registry

/-!
# What a registry has after a change

A registration that changes something leaves the given record under its key, but for the mark of
overriding. One that changes nothing leaves the registry as it was. What serves a key depends on the
record under it; where there is none, a plain request is served by the first record of its name that
has no parameters.
-/

namespace TemplateCache.Registry

variable {r : Registry} {known given : ContentRecord}

theorem merge_changed (changed : (merge known given).2.changed = true) :
    ∃ overridden, (merge known given).1 = { given with overridden := overridden } := by
  unfold merge at *
  split at changed
  · exact ⟨true, rfl⟩
  · exact ⟨given.overridden, rfl⟩
  · dsimp only at *
    split at changed
    · exact nomatch changed
    · rename_i different
      rw [if_neg different]
      exact ⟨_, rfl⟩

theorem register_changed (changed : (r.register given).1.2.changed = true) :
    ∃ overridden, (r.register given).1.1 = { given with overridden := overridden } ∧
      (r.register given).2 = r.insert { given with overridden := overridden } := by
  unfold register at *
  cases before : r.byKey.get? given.key with
  | none => exact ⟨given.overridden, rfl, rfl⟩
  | some known =>
      simp only [before] at changed ⊢
      have merged (changed : (merge known given).2.changed = true) := merge_changed changed
      rcases outcome : merge known given with ⟨record, change⟩
      simp only [outcome] at changed merged ⊢
      cases change with
      | unchanged => exact nomatch changed
      | inserted =>
          obtain ⟨overridden, rfl⟩ := merged changed
          exact ⟨overridden, rfl, rfl⟩
      | replaced =>
          obtain ⟨overridden, rfl⟩ := merged changed
          exact ⟨overridden, rfl, rfl⟩
      | overrode =>
          obtain ⟨overridden, rfl⟩ := merged changed
          exact ⟨overridden, rfl, rfl⟩

theorem merge_unchanged (same : (merge known given).2 = .unchanged) :
    (merge known given).1 = known := by
  unfold merge at *
  split at same
  · exact nomatch same
  · exact nomatch same
  · dsimp only at *
    split at same
    · rw [if_pos ‹_›]
    · exact nomatch same

/-- What a registration returns is what is under the key then. -/
theorem register_stored :
    (r.register given).2.byKey.get? given.key = some (r.register given).1.1 := by
  cases changed : (r.register given).1.2.changed with
  | true =>
      obtain ⟨overridden, stored, registry⟩ := register_changed changed
      rw [stored, registry]
      exact (KeyMap.get?_insert _ _ _ _).trans (if_pos rfl)
  | false =>
      unfold register at *
      cases before : r.byKey.get? given.key with
      | none =>
          simp only [before] at changed
          exact nomatch changed
      | some known =>
          simp only [before] at changed ⊢
          have kept (same : (merge known given).2 = .unchanged) := merge_unchanged same
          rcases outcome : merge known given with ⟨record, change⟩
          simp only [outcome] at changed kept ⊢
          cases change with
          | unchanged =>
              rw [kept rfl]
              exact before
          | _ => exact nomatch changed

theorem register_unchanged (same : (r.register given).1.2.changed = false) :
    (r.register given).2 = r := by
  unfold register at *
  cases before : r.byKey.get? given.key with
  | none =>
      simp only [before] at same
      exact nomatch same
  | some known =>
      simp only [before] at same ⊢
      rcases outcome : merge known given with ⟨record, change⟩
      simp only [outcome] at same ⊢
      cases change with
      | unchanged => rfl
      | _ => exact nomatch same

/-! ## What serves -/

section

variable {record : ContentRecord} {name key k gone : String} {plain : Bool}

/-- The record under a key, if it has no parameters. -/
def bareAt (r : Registry) (key : String) : Option ContentRecord :=
  (r.byKey.get? key).filter fun record => record.params.isNone

theorem bareAt_ne (there : r.bareAt k = some record) (unknown : r.byKey.get? key = none) :
    k ≠ key := by
  rintro rfl
  rw [bareAt, unknown] at there
  cases there

/-- The first record of a name that has no parameters. -/
theorem find?_variants (r : Registry) (name : String) :
    (r.variants name).find? (fun record => record.params.isNone) =
      (r.keysOf name).findSome? r.bareAt := by
  unfold variants
  induction r.keysOf name with
  | nil => rfl
  | cons key rest ih =>
      rw [List.findSome?_cons, List.filterMap_cons]
      cases known : r.byKey.get? key with
      | none =>
          have missing : r.bareAt key = none := by simp [bareAt, known]
          rw [missing]
          exact ih
      | some record =>
          cases bare : record.params.isNone with
          | true =>
              have there : r.bareAt key = some record := by
                simp [bareAt, known, Option.filter, bare]
              rw [there]
              simp [bare]
          | false =>
              have missing : r.bareAt key = none := by
                simp [bareAt, known, Option.filter, bare]
              rw [missing]
              simp only [List.find?_cons, bare]
              exact ih

theorem get?_eq (r : Registry) (name : String) : r.get? name =
    ((r.keysOf name).findSome? r.bareAt).or ((r.keysOf name).findSome? r.byKey.get?) := by
  rw [← find?_variants, ← List.head?_filterMap]
  rfl

theorem get?_bare (r : Registry) (name : String) :
    (r.get? name).filter (fun record => record.params.isNone) =
      (r.keysOf name).findSome? r.bareAt := by
  rw [← find?_variants]
  unfold get?
  dsimp only
  cases found : (r.variants name).find? (fun record => record.params.isNone) with
  | some record => simpa using List.find?_some found
  | none =>
      cases head : (r.variants name).head? with
      | none => rfl
      | some record =>
          simpa using List.find?_eq_none.1 found record (List.mem_of_head? head)

theorem serving_known (known : r.byKey.get? key = some record) :
    r.serving name key plain = some record := by
  unfold serving
  rw [known]

theorem serving_unknown (unknown : r.byKey.get? key = none) :
    r.serving name key plain = if plain then (r.keysOf name).findSome? r.bareAt else none := by
  unfold serving
  rw [unknown]
  dsimp only
  rw [get?_bare]

theorem keysOf_insert : (r.insert record).keysOf name =
    if name = record.name then
      (((r.byName.get? record.name).getD ∅).insert record.key ()).keys
    else r.keysOf name := by
  unfold keysOf insert
  rw [KeyMap.get?_insert]
  split
  · rfl
  · rfl

theorem bareAt_insert : (r.insert record).bareAt k =
    if k = record.key then (some record).filter (·.params.isNone) else r.bareAt k := by
  unfold bareAt
  show ((r.byKey.insert record.key record).get? k).filter _ = _
  rw [KeyMap.get?_insert]
  split
  · rfl
  · rfl

/-- A registration changes what serves a key only if it is made under this key, or if a plain
request may be served by the record that is given or by the one that it replaces. -/
theorem serving_insert (other : key ≠ record.key)
    (apart : plain = true → r.byKey.get? key = none →
      name = record.name ∨ record.key ∈ r.keysOf name →
        record.params.isNone = false ∧ r.bareAt record.key = none) :
    (r.insert record).serving name key plain = r.serving name key plain := by
  have same : (r.insert record).byKey.get? key = r.byKey.get? key :=
    (KeyMap.get?_insert _ _ _ _).trans (if_neg other)
  cases known : r.byKey.get? key with
  | some found => rw [serving_known (same.trans known), serving_known known]
  | none =>
      rw [serving_unknown (same.trans known), serving_unknown known]
      cases plain with
      | false => rfl
      | true =>
          replace apart := apart rfl known
          -- Where the record is looked at, it cannot serve and replaces none that could.
          have bare (touched : name = record.name ∨ record.key ∈ r.keysOf name) (k : String) :
              (r.insert record).bareAt k = r.bareAt k := by
            obtain ⟨given, before⟩ := apart touched
            rw [bareAt_insert]
            split
            · rename_i own
              rw [own, before]
              simp [Option.filter, given]
            · rfl
          rw [if_pos rfl, if_pos rfl, keysOf_insert]
          split
          · rename_i own
            rw [findSome?_eq_of_forall fun k _ => bare (.inl own) k,
              KeyMap.findSome?_keys_insert (apart (.inl own)).2, own]
            rfl
          · refine findSome?_eq_of_forall fun k there => ?_
            by_cases own : k = record.key
            · exact bare (.inr (own ▸ there)) k
            · rw [bareAt_insert, if_neg own]

/-- The records under the keys of a name are gone with it. -/
theorem byKey_remove : (r.remove gone).2.byKey.get? k =
    if k ∈ r.keysOf gone then none else r.byKey.get? k := by
  unfold remove
  rw [KeyMap.get?_filter]
  by_cases listed : k ∈ r.keysOf gone
  · cases r.byKey.get? k <;> simp [listed]
  · cases r.byKey.get? k <;> simp [listed]

/-- The removal of a name changes what serves a key only if the key was the name's, or if a plain
request may be served by a record of the name. -/
theorem serving_remove
    (other : key ∈ r.keysOf gone → r.byKey.get? key = none)
    (apart : plain = true → r.byKey.get? key = none →
      name ≠ gone ∧ ∀ k ∈ r.keysOf name, k ∈ r.keysOf gone → r.bareAt k = none) :
    (r.remove gone).2.serving name key plain = r.serving name key plain := by
  have same : (r.remove gone).2.byKey.get? key = r.byKey.get? key := by
    rw [byKey_remove]
    split
    · rw [other ‹_›]
    · rfl
  cases known : r.byKey.get? key with
  | some found => rw [serving_known (same.trans known), serving_known known]
  | none =>
      rw [serving_unknown (same.trans known), serving_unknown known]
      cases plain with
      | false => rfl
      | true =>
          obtain ⟨others, kept⟩ := apart rfl known
          have keys : (r.remove gone).2.keysOf name = r.keysOf name := by
            show (((r.byName.erase gone).get? name).getD ∅).keys = _
            rw [KeyMap.get?_erase, if_neg others]
            rfl
          rw [if_pos rfl, if_pos rfl, keys]
          refine findSome?_eq_of_forall fun k there => ?_
          have bare := kept k there
          unfold bareAt at *
          rw [byKey_remove]
          split
          · rw [bare ‹_›]
            rfl
          · rfl

theorem mem_keysOf_insert : k ∈ (r.insert record).keysOf name ↔
    name = record.name ∧ k = record.key ∨ k ∈ r.keysOf name := by
  rw [keysOf_insert]
  by_cases own : name = record.name
  · rw [if_pos own, KeyMap.mem_keys_insert, own]
    unfold keysOf
    simp
  · simp [own]

theorem keysOf_remove : (r.remove gone).2.keysOf name =
    if name = gone then [] else r.keysOf name := by
  show (((r.byName.erase gone).get? name).getD ∅).keys = _
  rw [KeyMap.get?_erase]
  split
  · rfl
  · rfl

theorem mem_keysOf_remove (there : k ∈ (r.remove gone).2.keysOf name) : k ∈ r.keysOf name := by
  rw [keysOf_remove] at there
  split at there
  · exact absurd there List.not_mem_nil
  · exact there

end

end TemplateCache.Registry
