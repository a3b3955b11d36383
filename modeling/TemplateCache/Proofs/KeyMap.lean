import Mathlib.Data.List.Basic
import TemplateCache.KeyMap

/-!
# Keys of maps, and lists of keys
-/

namespace TemplateCache

namespace KeyMap

variable {α : Type} {m : KeyMap α} {k : String}

theorem lookup_eq_none {l : List (String × α)} : l.lookup k = none ↔ k ∉ l.map (·.1) := by
  induction l with
  | nil => simp
  | cons e rest ih =>
      rcases e with ⟨key, value⟩
      by_cases own : k = key
      · simp [own]
      · rw [lookup_cons_of_ne value rest own, ih]
        simp [own]

theorem mem_keys : k ∈ m.keys ↔ ∃ value, m.get? k = some value := by
  rw [← Option.ne_none_iff_exists']
  exact (not_iff_comm.1 (lookup_eq_none (l := m.entries)).symm).symm

/-- The entries of a map are what it has under its keys. -/
theorem mem_entries {value : α} : (k, value) ∈ m.entries ↔ m.get? k = some value := by
  refine Iff.trans ?_ List.lookup_eq_some_iff.symm
  constructor
  · intro there
    obtain ⟨before, after, split⟩ := List.append_of_mem there
    refine ⟨before, after, split, fun e earlier => ?_⟩
    have ascending := m.ascending
    rw [split] at ascending
    have below := (List.pairwise_append.1 ascending).2.2 e earlier _ List.mem_cons_self
    exact bne_iff_ne.2 fun same => String.lt_irrefl _ (same ▸ below)
  · rintro ⟨before, after, split, -⟩
    rw [split]
    simp

theorem mem_keys_filter {keep : String → α → Bool} :
    k ∈ (m.filter keep).keys ↔ ∃ value, m.get? k = some value ∧ keep k value = true := by
  rw [mem_keys]
  simp only [get?_filter, Option.filter_eq_some_iff]

theorem findSome?_insertEntry {β : Type} {g : String → Option β} {key : String} {value : α}
    (missed : g key = none) (l : List (String × α)) :
    ((insertEntry key value l).map (·.1)).findSome? g = (l.map (·.1)).findSome? g := by
  induction l with
  | nil => simp [insertEntry, missed]
  | cons e rest ih =>
      unfold insertEntry
      split
      · simp [missed]
      · split
        · rename_i same
          simp [same ▸ missed, missed]
        · simp only [List.map_cons, List.findSome?_cons, ih]

/-- A search through the keys passes over a new one that it does not look for. -/
theorem findSome?_keys_insert {β : Type} {g : String → Option β} {key : String} {value : α}
    (missed : g key = none) : (m.insert key value).keys.findSome? g = m.keys.findSome? g :=
  findSome?_insertEntry missed m.entries

theorem mem_keys_insert {key : String} {value : α} :
    k ∈ (m.insert key value).keys ↔ k = key ∨ k ∈ m.keys := by
  simp only [mem_keys, get?_insert]
  by_cases own : k = key
  · simp [own]
  · simp [own]

end KeyMap

theorem findSome?_eq_of_forall {α β : Type} {f g : α → Option β} {l : List α}
    (same : ∀ x ∈ l, f x = g x) : l.findSome? f = l.findSome? g := by
  induction l with
  | nil => rfl
  | cons x rest ih =>
      obtain ⟨first, later⟩ := List.forall_mem_cons.1 same
      rw [List.findSome?_cons, List.findSome?_cons, first, ih later]

theorem mem_eraseReps_loop {k : String} (keys : List String) (key : String)
    (kept : List String) :
    k ∈ List.eraseRepsBy.loop (· == ·) key keys kept ↔ k = key ∨ k ∈ keys ∨ k ∈ kept := by
  induction keys generalizing key kept with
  | nil => simp [List.eraseRepsBy.loop, or_comm]
  | cons next rest ih =>
      unfold List.eraseRepsBy.loop
      split
      · rename_i same
        rw [ih, List.mem_cons, ← eq_of_beq same]
        tauto
      · rw [ih, List.mem_cons, List.mem_cons]
        tauto

theorem mem_eraseReps {k : String} {keys : List String} : k ∈ keys.eraseReps ↔ k ∈ keys := by
  unfold List.eraseReps List.eraseRepsBy
  split
  · rfl
  · rw [mem_eraseReps_loop, List.mem_cons]
    simp

/-- Sorting keys and dropping repetitions keeps each of them. -/
theorem mem_sorted {k : String} {keys : List String} :
    k ∈ (keys.mergeSort (· ≤ ·)).eraseReps ↔ k ∈ keys :=
  mem_eraseReps.trans List.mem_mergeSort

end TemplateCache
