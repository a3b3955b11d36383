import Mathlib.Logic.Basic
import TemplateCache.Proofs.Compiler.Stage

/-!
# How flights go on

Flights are numbered as they come, and each keeps its key. A key leads to a flight until it is
detached from it, and after that only to later ones.
-/

namespace TemplateCache.Flights

variable {f f' f'' : Flights} {number n : Nat} {key k : String}

/-! ## Single flights -/

@[simp] theorem length_update (change : Flight → Flight) :
    (f.update number change).all.length = f.all.length := by simp [update]

theorem flight_update (change : Flight → Flight) :
    (f.update number change).flight n =
      if n = number ∧ n < f.all.length then change (f.flight n) else f.flight n := by
  unfold flight update
  simp only [List.getD_eq_getElem?_getD, List.getElem?_modify]
  by_cases there : n < f.all.length
  · by_cases own : number = n
    · simp [there, own]
    · simp [own, Ne.symm own]
  · simp [there]

theorem key_update {change : Flight → Flight} (same : ∀ x, (change x).key = x.key) :
    ((f.update number change).flight n).key = (f.flight n).key := by
  rw [flight_update]
  split
  · exact same _
  · rfl

theorem result_update {change : Flight → Flight} (same : ∀ x, (change x).result = x.result) :
    ((f.update number change).flight n).result = (f.flight n).result := by
  rw [flight_update]
  split
  · exact same _
  · rfl

theorem flight_beyond (beyond : f.all.length ≤ n) : f.flight n = {} := by
  unfold flight
  rw [List.getD_eq_getElem?_getD, List.getElem?_eq_none beyond]
  rfl

theorem result_land_own (record : CodeRecord) (there : n < f.all.length) :
    ((f.land n record).flight n).result = some record := by
  unfold land
  rw [flight_update, if_pos ⟨rfl, there⟩]

theorem result_land_other (record : CodeRecord) (other : n ≠ number) :
    ((f.land number record).flight n).result = (f.flight n).result := by
  unfold land
  rw [flight_update, if_neg fun h => other h.1]

theorem result_handOver : ((f.handOver number).flight n).result = (f.flight n).result :=
  result_update fun _ => rfl

/-! ## Boarding -/

theorem join_boarded (leads : f.current.get? key = some n) : (f.join key).1.1 = n := by
  unfold join board
  rw [leads]

theorem join_new (free : f.current.get? key = none) : (f.join key).1.1 = f.all.length := by
  unfold join board
  rw [free]

theorem current_join : (f.join key).2.current.get? k =
    if k = key then some (f.join key).1.1 else f.current.get? k := by
  cases leads : f.current.get? key with
  | some n =>
      rw [join_boarded leads]
      unfold join board
      rw [leads]
      show f.current.get? k = _
      split
      · rename_i own
        rw [own, leads]
      · rfl
  | none =>
      rw [join_new leads]
      unfold join board
      rw [leads]
      exact KeyMap.get?_insert _ _ _ _

theorem length_join : f.all.length ≤ (f.join key).2.all.length := by
  unfold join board enter
  cases f.current.get? key with
  | some n => simp
  | none => simp

theorem flight_join_new (free : f.current.get? key = none) :
    (f.join key).2.flight f.all.length = { key := key, holder := some (f.join key).1.2 } := by
  unfold join board enter
  rw [free]
  dsimp only
  rw [flight_update]
  simp [flight]

theorem flight_join_held {holder : Nat}
    (leads : f.current.get? key = some number) (there : number < f.all.length)
    (held : (f.flight number).holder = some holder) :
    (f.join key).2.flight number =
      { f.flight number with waiting := (f.flight number).waiting ++ [f.callers] } := by
  unfold join board enter
  rw [leads]
  dsimp only
  rw [flight_update, if_pos ⟨rfl, there⟩]
  refine (if_neg ?_).trans rfl
  show ¬ (f.flight number).holder.isNone = true
  rw [held]
  exact nofun

theorem length_join_new (free : f.current.get? key = none) :
    (f.join key).2.all.length = f.all.length + 1 := by
  unfold join board enter
  rw [free]
  simp

theorem key_join (there : n < f.all.length) :
    ((f.join key).2.flight n).key = (f.flight n).key := by
  unfold join board enter
  cases leads : f.current.get? key with
  | some m =>
      refine key_update fun x => ?_
      split
      · rfl
      · rfl
  | none =>
      refine (key_update fun x => ?_).trans ?_
      · split
        · rfl
        · rfl
      · simp [flight, List.getElem?_append_left there]

theorem result_join : ((f.join key).2.flight n).result = (f.flight n).result := by
  unfold join board enter
  cases leads : f.current.get? key with
  | some m =>
      refine result_update fun x => ?_
      split
      · rfl
      · rfl
  | none =>
      refine (result_update fun x => ?_).trans ?_
      · split
        · rfl
        · rfl
      · unfold flight
        rcases Nat.lt_trichotomy n f.all.length with there | there | there
        · simp [List.getElem?_append_left there]
        · simp [there]
        · rw [List.getD_eq_getElem?_getD, List.getD_eq_getElem?_getD,
            List.getElem?_eq_none (Nat.le_of_lt there), List.getElem?_eq_none (by simp; omega)]

/-! ## Leaving -/

theorem current_detach (leads : (f.detach key).current.get? k = some n) :
    f.current.get? k = some n := by
  replace leads : (f.current.erase key).get? k = some n := leads
  rw [KeyMap.get?_erase] at leads
  split at leads
  · exact nomatch leads
  · exact leads

theorem current_leave (leads : (f.leave key number).current.get? k = some n) :
    f.current.get? k = some n := by
  unfold leave at leads
  split at leads
  · exact current_detach leads
  · exact leads

theorem flight_leave : (f.leave key number).flight n = f.flight n := by
  unfold leave
  split
  · rfl
  · rfl

/-- Who leaves takes the key along. -/
theorem current_leave_own (leads : f.current.get? key = some number) :
    (f.leave key number).current.get? key = none := by
  unfold leave
  rw [if_pos leads]
  show (f.current.erase key).get? key = none
  rw [KeyMap.get?_erase, if_pos rfl]

/-! ## Growing -/

/-- What happens to flights in the course of time. -/
structure Grows (f f' : Flights) : Prop where
  length : f.all.length ≤ f'.all.length
  key : ∀ {n}, n < f.all.length → (f'.flight n).key = (f.flight n).key
  current : ∀ {k n}, f'.current.get? k = some n →
    f.current.get? k = some n ∨ f.all.length ≤ n

theorem Grows.refl (f : Flights) : f.Grows f := ⟨Nat.le_refl _, fun _ => rfl, .inl⟩

theorem Grows.trans (h : f.Grows f') (h' : f'.Grows f'') : f.Grows f'' where
  length := Nat.le_trans h.length h'.length
  key there := (h'.key (Nat.lt_of_lt_of_le there h.length)).trans (h.key there)
  current leads := by
    rcases h'.current leads with before | later
    · exact h.current before
    · exact .inr (Nat.le_trans h.length later)

theorem grows_update {change : Flight → Flight} (same : ∀ x, (change x).key = x.key) :
    f.Grows (f.update number change) where
  length := Nat.le_of_eq (length_update change).symm
  key _ := key_update same
  current := .inl

theorem grows_detach : f.Grows (f.detach key) where
  length := Nat.le_refl _
  key _ := rfl
  current leads := .inl (current_detach leads)

theorem grows_leave : f.Grows (f.leave key number) := by
  unfold leave
  split
  · exact grows_detach
  · exact .refl f

theorem grows_join : f.Grows (f.join key).2 where
  length := length_join
  key := key_join
  current := by
    intro k n leads
    rw [current_join] at leads
    split at leads
    · rename_i own
      cases before : f.current.get? key with
      | some m =>
          rw [join_boarded before] at leads
          rw [own, before]
          exact .inl leads
      | none =>
          rw [join_new before] at leads
          cases leads
          exact .inr (Nat.le_refl _)
    · exact .inl leads

/-! ## Where keys lead to -/

/-- Keys lead to flights of their own. -/
def Keyed (f : Flights) : Prop :=
  ∀ k n, f.current.get? k = some n → n < f.all.length ∧ (f.flight n).key = k

theorem keyed_empty : Keyed {} := nofun

/-- Where no key leads to a new flight, the flights stay keyed. -/
theorem Keyed.grows (keyed : f.Keyed) (grows : f.Grows f')
    (current : ∀ {k n}, f'.current.get? k = some n → f.current.get? k = some n) : f'.Keyed := by
  intro k n leads
  obtain ⟨there, own⟩ := keyed k n (current leads)
  exact ⟨Nat.lt_of_lt_of_le there grows.length, (grows.key there).trans own⟩

theorem Keyed.update {change : Flight → Flight} (keyed : f.Keyed)
    (same : ∀ x, (change x).key = x.key) : (f.update number change).Keyed :=
  keyed.grows (grows_update same) id

theorem Keyed.leave (keyed : f.Keyed) : (f.leave key number).Keyed :=
  keyed.grows grows_leave current_leave

/-- A caller has a seat in a flight of its key. -/
theorem Keyed.seat (keyed : f.Keyed) : (f.join key).1.1 < (f.join key).2.all.length ∧
    ((f.join key).2.flight (f.join key).1.1).key = key := by
  cases leads : f.current.get? key with
  | some n =>
      obtain ⟨there, own⟩ := keyed _ _ leads
      rw [join_boarded leads]
      exact ⟨Nat.lt_of_lt_of_le there length_join, (key_join there).trans own⟩
  | none =>
      rw [join_new leads, flight_join_new leads, length_join_new leads]
      exact ⟨Nat.lt_succ_self _, rfl⟩

theorem Keyed.join (keyed : f.Keyed) : (f.join key).2.Keyed := by
  intro k n leads
  rw [current_join] at leads
  split at leads
  · rename_i own
    cases leads
    rw [own]
    exact keyed.seat
  · obtain ⟨there, own⟩ := keyed _ _ leads
    exact ⟨Nat.lt_of_lt_of_le there length_join, (key_join there).trans own⟩

end TemplateCache.Flights
