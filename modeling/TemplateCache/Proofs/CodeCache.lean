import TemplateCache.CodeCache
import TemplateCache.Proofs.KeyMap

/-!
# What the operations of the code cache do

Each operation by what it makes of the renderer and of the stale mark of a key. A mark is younger
than the last clearing and not younger than the cache, so what began after a mark is never refused
for it.
-/

namespace TemplateCache.CodeCache

variable {r : CodeCache} {keys : List String} {k name : String} {record : CodeRecord}
  {since e : Nat}

/-! ## Invalidating -/

theorem invalidate_fold (stamp : Nat) (keys : List String) (n : Nat) (r : CodeCache) (k : String) :
    let s := (keys.foldl (fun (dropped, r) key =>
      (dropped + (r.entries.contains key).toNat,
        { r with stale := r.stale.insert key stamp, entries := r.entries.erase key })) (n, r)).2
    s.entries.get? k = (if k ∈ keys then none else r.entries.get? k) ∧
      s.stale.get? k = (if k ∈ keys then some stamp else r.stale.get? k) ∧
      s.epoch = r.epoch ∧ s.lastClear = r.lastClear := by
  induction keys generalizing n r with
  | nil => simp
  | cons key rest ih =>
      obtain ⟨entries, stale, epoch, cleared⟩ :=
        ih (n + (r.entries.contains key).toNat)
          { r with stale := r.stale.insert key stamp, entries := r.entries.erase key }
      refine ⟨entries.trans ?_, stale.trans ?_, epoch, cleared⟩
      · by_cases own : k = key
        · simp [own]
        · simp [own]
      · by_cases own : k = key
        · simp [own]
        · simp [own]

@[simp] theorem get?_invalidate :
    (r.invalidate keys).2.get? k = if k ∈ keys then none else r.get? k :=
  (invalidate_fold (r.epoch + 1) keys 0 { r with epoch := r.epoch + 1 } k).1

@[simp] theorem stale_invalidate :
    (r.invalidate keys).2.stale.get? k =
      if k ∈ keys then some (r.epoch + 1) else r.stale.get? k :=
  (invalidate_fold (r.epoch + 1) keys 0 { r with epoch := r.epoch + 1 } k).2.1

@[simp] theorem epoch_invalidate : (r.invalidate keys).2.epoch = r.epoch + 1 :=
  (invalidate_fold (r.epoch + 1) keys 0 { r with epoch := r.epoch + 1 } "").2.2.1

@[simp] theorem lastClear_invalidate : (r.invalidate keys).2.lastClear = r.lastClear :=
  (invalidate_fold (r.epoch + 1) keys 0 { r with epoch := r.epoch + 1 } "").2.2.2

theorem cached_invalidate (found : (r.invalidate keys).2.get? k = some record) :
    r.get? k = some record := by
  rw [get?_invalidate] at found
  split at found
  · exact nomatch found
  · exact found

/-! ## Outdated work -/

theorem isOutdated_of_le (older : e ≤ since) (h : r.isOutdated k since = true) :
    r.isOutdated k e = true := by
  unfold isOutdated at *
  cases marked : r.stale.get? k with
  | none =>
      simp only [marked, Option.any_none, Bool.or_false, decide_eq_true_eq] at *
      omega
  | some mark =>
      simp only [marked, Option.any_some, Bool.or_eq_true, decide_eq_true_eq] at *
      omega

/-- Invalidating bars what began before from the given keys, and from no other one. -/
theorem isOutdated_invalidate (begun : e ≤ r.epoch) :
    (r.invalidate keys).2.isOutdated k e = true ↔ k ∈ keys ∨ r.isOutdated k e = true := by
  unfold isOutdated
  rw [lastClear_invalidate, stale_invalidate]
  by_cases named : k ∈ keys
  · simp only [named, if_pos, Option.any_some, true_or, iff_true, Bool.or_eq_true,
      decide_eq_true_eq]
    omega
  · simp only [named, if_false, false_or]

theorem isOutdated_dropName (begun : e ≤ r.epoch) :
    (r.dropName name).isOutdated k e = true ↔ k ∈ r.keysOf name ∨ r.isOutdated k e = true :=
  isOutdated_invalidate begun

theorem isOutdated_clear (begun : e ≤ r.epoch) : r.clear.isOutdated k e = true :=
  Bool.or_eq_true_iff.2 (.inl (decide_eq_true (Nat.lt_succ_of_le begun)))

/-! ## Inserting -/

theorem insert_outdated (h : r.isOutdated record.key since = true) :
    (r.insert record since).2 = r := by
  unfold insert
  rw [if_pos h]

theorem insert_fresh (h : r.isOutdated record.key since = false) :
    (r.insert record since).2 = { r with
      entries := r.entries.insert record.key record, stale := r.stale.erase record.key } := by
  unfold insert
  rw [if_neg (by simp [h])]

/-- Inserting concerns one key. -/
theorem insert_other (other : k ≠ record.key) :
    (r.insert record since).2.get? k = r.get? k ∧
      (r.insert record since).2.stale.get? k = r.stale.get? k := by
  cases outdated : r.isOutdated record.key since with
  | true =>
      rw [insert_outdated outdated]
      exact ⟨rfl, rfl⟩
  | false =>
      rw [insert_fresh outdated]
      exact ⟨by simp [get?, other], by simp [other]⟩

theorem refresh_other {key : String} (other : k ≠ key) :
    (r.refresh key since).stale.get? k = r.stale.get? k ∧
      (r.refresh key since).get? k = r.get? k := by
  unfold refresh
  split
  · exact ⟨by simp [other], rfl⟩
  · exact ⟨rfl, rfl⟩

/-! ## Sound caches -/

/-- A mark was made after the last clearing, in an epoch that has begun, and stands for a renderer
that is gone. -/
structure Sound (r : CodeCache) : Prop where
  marks : ∀ {k mark}, r.stale.get? k = some mark → r.lastClear < mark ∧ mark ≤ r.epoch
  apart : ∀ {k mark}, r.stale.get? k = some mark → r.get? k = none
  cleared : r.lastClear ≤ r.epoch

theorem Sound.fresh (sound : r.Sound) : r.isOutdated k r.epoch = false := by
  have := sound.cleared
  unfold isOutdated
  cases marked : r.stale.get? k with
  | none =>
      simp only [Option.any_none, Bool.or_false, decide_eq_false_iff_not]
      omega
  | some mark =>
      have := (sound.marks marked).2
      simp only [Option.any_some, Bool.or_eq_false_iff, decide_eq_false_iff_not]
      omega

theorem Sound.cached (sound : r.Sound) (found : r.get? k = some record) :
    r.isStale k = false := by
  unfold isStale KeyMap.contains
  cases marked : r.stale.get? k with
  | none => rfl
  | some mark =>
      rw [sound.apart marked] at found
      exact nomatch found

theorem sound_empty : Sound ∅ where
  marks := nofun
  apart := nofun
  cleared := Nat.le_refl 0

theorem sound_clear : r.clear.Sound where
  marks := nofun
  apart := nofun
  cleared := Nat.le_refl _

theorem Sound.invalidate (sound : r.Sound) : (r.invalidate keys).2.Sound where
  marks := by
    intro k mark marked
    have := sound.cleared
    rw [stale_invalidate] at marked
    rw [lastClear_invalidate, epoch_invalidate]
    split at marked
    · cases marked
      omega
    · have := sound.marks marked
      omega
  apart := by
    intro k mark marked
    rw [stale_invalidate] at marked
    rw [get?_invalidate]
    split
    · rfl
    · rename_i other
      rw [if_neg other] at marked
      exact sound.apart marked
  cleared := by
    have := sound.cleared
    rw [lastClear_invalidate, epoch_invalidate]
    omega

theorem erase_stale {mark : Nat} {key : String} (h : (r.stale.erase key).get? k = some mark) :
    k ≠ key ∧ r.stale.get? k = some mark := by
  rw [KeyMap.get?_erase] at h
  split at h
  · exact nomatch h
  · rename_i other
    exact ⟨other, h⟩

theorem Sound.insert (sound : r.Sound) : (r.insert record since).2.Sound := by
  cases outdated : r.isOutdated record.key since with
  | true =>
      rw [insert_outdated outdated]
      exact sound
  | false =>
      rw [insert_fresh outdated]
      refine ⟨fun marked => sound.marks (erase_stale marked).2, ?_, sound.cleared⟩
      intro k mark marked
      obtain ⟨other, before⟩ := erase_stale marked
      show (r.entries.insert record.key record).get? k = none
      rw [KeyMap.get?_insert, if_neg other]
      exact sound.apart before

theorem Sound.refresh {key : String} (sound : r.Sound) : (r.refresh key since).Sound := by
  unfold CodeCache.refresh
  split
  · exact ⟨fun marked => sound.marks (erase_stale marked).2,
      fun marked => sound.apart (erase_stale marked).2, sound.cleared⟩
  · exact sound

/-- A compile that the cache would refuse does not end the staleness of its key either. -/
theorem Sound.refresh_outdated (sound : r.Sound) (h : r.isOutdated k since = true) :
    r.refresh k since = r := by
  unfold CodeCache.refresh
  refine if_neg fun present => ?_
  unfold isOutdated at h
  cases marked : r.stale.get? k with
  | none => simp [marked] at present
  | some mark =>
      have := sound.marks marked
      simp only [marked, Option.any_some, Bool.or_eq_true, decide_eq_true_eq] at h present
      omega

/-! ## Growing older -/

/-- What happens to a cache in the course of time. -/
structure Ages (r s : CodeCache) : Prop where
  epoch : r.epoch ≤ s.epoch
  cleared : ∀ {e}, e ≤ r.epoch → e < r.lastClear → e < s.lastClear

theorem Ages.trans {s t : CodeCache} (h : r.Ages s) (h' : s.Ages t) : r.Ages t where
  epoch := Nat.le_trans h.epoch h'.epoch
  cleared begun barred := h'.cleared (Nat.le_trans begun h.epoch) (h.cleared begun barred)

theorem ages_of_eq {s : CodeCache} (epoch : s.epoch = r.epoch)
    (cleared : s.lastClear = r.lastClear) : r.Ages s where
  epoch := Nat.le_of_eq epoch.symm
  cleared _ barred := by rwa [cleared]

theorem ages_invalidate : r.Ages (r.invalidate keys).2 where
  epoch := by
    rw [epoch_invalidate]
    exact Nat.le_succ _
  cleared _ barred := by rwa [lastClear_invalidate]

theorem ages_clear : r.Ages r.clear where
  epoch := Nat.le_succ _
  cleared begun _ := Nat.lt_succ_of_le begun

theorem ages_insert : r.Ages (r.insert record since).2 := by
  unfold insert
  split
  · exact ages_of_eq rfl rfl
  · exact ages_of_eq rfl rfl

theorem ages_refresh {key : String} : r.Ages (r.refresh key since) := by
  unfold refresh
  split
  · exact ages_of_eq rfl rfl
  · exact ages_of_eq rfl rfl

/-- As long as a key has no renderer, what began up to an epoch is refused under it. -/
def Shut (r : CodeCache) (k : String) (e : Nat) : Prop :=
  r.get? k = none → r.isOutdated k e = true

theorem Shut.invalidate (shut : r.Shut k e) (begun : e ≤ r.epoch) :
    (r.invalidate keys).2.Shut k e := by
  intro missing
  rw [isOutdated_invalidate begun]
  rw [get?_invalidate] at missing
  split at missing
  · rename_i named
    exact .inl named
  · exact .inr (shut missing)

theorem shut_clear (begun : e ≤ r.epoch) : r.clear.Shut k e :=
  fun _ => isOutdated_clear begun

theorem Shut.insert (shut : r.Shut k e) : (r.insert record since).2.Shut k e := by
  by_cases own : k = record.key
  · subst own
    cases outdated : r.isOutdated record.key since with
    | true =>
        rw [insert_outdated outdated]
        exact shut
    | false =>
        rw [insert_fresh outdated]
        intro missing
        simp [get?] at missing
  · obtain ⟨entry, mark⟩ := insert_other own
    intro missing
    rw [entry] at missing
    have cleared : (r.insert record since).2.lastClear = r.lastClear := by
      unfold CodeCache.insert
      split
      · rfl
      · rfl
    have before := shut missing
    unfold isOutdated at *
    rwa [mark, cleared]

/-! ## Waning -/

/-- Under a key a cache is as it was, or the key is stale. -/
def Wanes (k : String) (r s : CodeCache) : Prop :=
  s.isStale k = true ∨ s.get? k = r.get? k ∧ s.isStale k = r.isStale k

theorem Wanes.trans {s t : CodeCache} (h : Wanes k r s) (h' : Wanes k s t) : Wanes k r t := by
  rcases h' with stale | ⟨entry, mark⟩
  · exact .inl stale
  · unfold Wanes
    rw [entry, mark]
    exact h

theorem Wanes.stale {s : CodeCache} (h : Wanes k r s) (stale : r.isStale k = true) :
    s.isStale k = true := by
  rcases h with now | ⟨-, mark⟩
  · exact now
  · exact mark.trans stale

theorem wanes_refl (k : String) (r : CodeCache) : Wanes k r r := .inr ⟨rfl, rfl⟩

theorem isStale_invalidate (named : k ∈ keys) : (r.invalidate keys).2.isStale k = true := by
  unfold isStale KeyMap.contains
  rw [stale_invalidate, if_pos named]
  rfl

theorem wanes_invalidate : Wanes k r (r.invalidate keys).2 := by
  by_cases named : k ∈ keys
  · exact .inl (isStale_invalidate named)
  · refine .inr ⟨?_, ?_⟩
    · rw [get?_invalidate, if_neg named]
    · unfold isStale KeyMap.contains
      rw [stale_invalidate, if_neg named]

theorem wanes_insert (other : k ≠ record.key) : Wanes k r (r.insert record since).2 := by
  obtain ⟨entry, mark⟩ := insert_other other
  refine .inr ⟨entry, ?_⟩
  unfold isStale KeyMap.contains
  rw [mark]

theorem wanes_refresh {key : String} (other : k ≠ key) : Wanes k r (r.refresh key since) := by
  obtain ⟨mark, entry⟩ := refresh_other other
  refine .inr ⟨entry, ?_⟩
  unfold isStale KeyMap.contains
  rw [mark]

theorem mem_keysOf : k ∈ r.keysOf name ↔ ∃ record, r.get? k = some record ∧ record.name = name := by
  unfold keysOf
  rw [KeyMap.mem_keys_filter]
  simp only [beq_iff_eq]
  rfl

theorem get?_dropName {name : String} :
    (r.dropName name).get? k = (r.get? k).filter fun record => record.name != name := by
  unfold dropName
  rw [get?_invalidate]
  split
  · rename_i listed
    obtain ⟨record, found, rfl⟩ := mem_keysOf.1 listed
    rw [found]
    simp [Option.filter]
  · rename_i unlisted
    cases found : r.get? k with
    | none => rfl
    | some record =>
        have other : record.name ≠ name := fun named =>
          unlisted (mem_keysOf.2 ⟨record, found, named⟩)
        simp [Option.filter, other]

end TemplateCache.CodeCache
