import Mathlib.Data.List.Induction
import Mathlib.Data.List.Nodup
import Mathlib.Data.List.Perm.Basic
import TemplateCache.Batch

/-!
# What becomes of a batch

A batch succeeds with all values if no operation failed, and otherwise keeps what became of each
operation. It does not matter in which order the operations finish, and there is no outcome before
the last of them has.
-/

namespace TemplateCache

variable {α β ε : Type}

namespace Batch

/-! ## Failures -/

/-- The errors of the operations that failed, in the order of submission. -/
def errorsOf (outcomes : List (Except ε α)) : List ε :=
  outcomes.filterMap fun outcome =>
    match outcome with
    | .ok _ => none
    | .error e => some e

theorem failuresOf_cons (outcome : Except ε α) (rest : List (Except ε α)) :
    failuresOf (outcome :: rest) = (errorsOf [outcome]).map (fun e => (0, e)) ++
      (failuresOf rest).map fun f => (f.1 + 1, f.2) := by
  have later {f : Except ε α × Nat → Option (Nat × ε)} (shifts : ∀ outcome index,
      f (outcome, index + 1) = (f (outcome, index)).map fun failure => (failure.1 + 1, failure.2)) :
      (rest.zipIdx 1).filterMap f =
        (rest.zipIdx.filterMap f).map fun failure => (failure.1 + 1, failure.2) := by
    rw [List.zipIdx_succ, List.filterMap_map, List.map_filterMap]
    apply List.filterMap_congr
    rintro ⟨outcome, index⟩ -
    exact shifts outcome index
  have tail : (rest.zipIdx 1).filterMap _ = (failuresOf rest).map _ := later fun outcome index => by
    cases outcome with
    | ok value => rfl
    | error e => rfl
  cases outcome with
  | ok value => exact tail
  | error e => exact congrArg ((0, e) :: ·) tail

theorem failuresOf_ok (value : α) (rest : List (Except ε α)) :
    failuresOf (.ok value :: rest) = (failuresOf rest).map fun f => (f.1 + 1, f.2) :=
  failuresOf_cons _ _

theorem failuresOf_error (e : ε) (rest : List (Except ε α)) :
    failuresOf (.error e :: rest) = (0, e) :: (failuresOf rest).map fun f => (f.1 + 1, f.2) :=
  failuresOf_cons _ _

theorem failuresOf_snd (outcomes : List (Except ε α)) :
    (failuresOf outcomes).map (·.2) = errorsOf outcomes := by
  induction outcomes with
  | nil => rfl
  | cons outcome rest ih =>
      cases outcome with
      | ok value => rw [failuresOf_ok, List.map_map]; exact ih
      | error e =>
          rw [failuresOf_error, List.map_cons, List.map_map]
          exact congrArg (e :: ·) ih

theorem failuresOf_eq_nil {outcomes : List (Except ε α)} :
    failuresOf outcomes = [] ↔ ∃ values : List α, outcomes = values.map .ok := by
  induction outcomes with
  | nil => exact ⟨fun _ => ⟨[], rfl⟩, fun _ => rfl⟩
  | cons outcome rest ih =>
      cases outcome with
      | ok value =>
          rw [failuresOf_ok, List.map_eq_nil_iff, ih]
          constructor
          · rintro ⟨values, rfl⟩
            exact ⟨value :: values, rfl⟩
          · rintro ⟨values, same⟩
            exact ⟨values.tail, by simpa using congrArg List.tail same⟩
      | error e =>
          rw [failuresOf_error]
          constructor
          · exact nofun
          · rintro ⟨values, same⟩
            cases values with
            | nil => cases same
            | cons value values => cases same

/-- Only one operation has failed if those before it and those after it have not. -/
theorem failuresOf_eq_singleton {outcomes : List (Except ε α)} {index : Nat} {e : ε} :
    failuresOf outcomes = [(index, e)] ↔ ∃ before after : List α,
      outcomes = before.map .ok ++ .error e :: after.map .ok ∧ index = before.length := by
  induction outcomes generalizing index with
  | nil => simp [failuresOf]
  | cons outcome rest ih =>
      cases outcome with
      | ok value =>
          rw [failuresOf_ok, List.map_eq_singleton_iff]
          constructor
          · rintro ⟨⟨earlier, e'⟩, single, same⟩
            obtain ⟨rfl, rfl⟩ := Prod.mk.inj same
            obtain ⟨before, after, rfl, rfl⟩ := ih.1 single
            exact ⟨value :: before, after, rfl, rfl⟩
          · rintro ⟨before, after, same, rfl⟩
            cases before with
            | nil => cases same
            | cons value' before =>
                obtain ⟨-, same⟩ := List.cons.inj same
                exact ⟨(before.length, e), ih.2 ⟨before, after, same, rfl⟩, rfl⟩
      | error e' =>
          rw [failuresOf_error, List.cons_eq_cons, List.map_eq_nil_iff, failuresOf_eq_nil,
            Prod.mk.injEq]
          constructor
          · rintro ⟨⟨rfl, rfl⟩, after, rfl⟩
            exact ⟨[], after, rfl, rfl⟩
          · rintro ⟨before, after, same, rfl⟩
            cases before with
            | nil =>
                cases same
                exact ⟨⟨rfl, rfl⟩, after, rfl⟩
            | cons value before => cases same

theorem valuesOf_ok (values : List α) :
    valuesOf (values.map (Except.ok : α → Except ε α)) = values := by
  unfold valuesOf
  rw [List.filterMap_map]
  exact List.filterMap_some

/-! ## Outcomes -/

theorem collect_eq_ok {outcomes : List (Except ε α)} {values : List α} :
    collect outcomes = .ok values ↔ outcomes = values.map .ok := by
  unfold collect
  constructor
  · intro all
    split at all
    · rename_i none
      obtain ⟨values', rfl⟩ := failuresOf_eq_nil.1 none
      rw [valuesOf_ok] at all
      cases all
      rfl
    · cases all
    · cases all
  · rintro rfl
    rw [failuresOf_eq_nil.2 ⟨values, rfl⟩]
    exact congrArg _ (valuesOf_ok values)

theorem collect_eq_single {outcomes results : List (Except ε α)} {index : Nat} {e : ε} :
    collect outcomes = .error (.single index e results) ↔
      results = outcomes ∧ failuresOf outcomes = [(index, e)] := by
  unfold collect
  constructor
  · intro fails
    split at fails
    · cases fails
    · rename_i one
      cases fails
      exact ⟨rfl, one⟩
    · cases fails
  · rintro ⟨rfl, one⟩
    rw [one]

theorem collect_eq_aggregate {outcomes results : List (Except ε α)} {errors : List ε} :
    collect outcomes = .error (.aggregate errors results) ↔
      results = outcomes ∧ errors = errorsOf outcomes ∧ 2 ≤ errors.length := by
  rw [← failuresOf_snd]
  unfold collect
  constructor
  · intro fails
    split at fails
    · cases fails
    · cases fails
    · rename_i several single
      cases fails
      refine ⟨rfl, rfl, ?_⟩
      rw [List.length_map]
      cases found : failuresOf outcomes with
      | nil => exact absurd found several
      | cons first more =>
          cases more with
          | nil => exact absurd found (single _ _)
          | cons second more => simp
  · rintro ⟨rfl, rfl, several⟩
    split
    · rename_i found
      simp [found] at several
    · rename_i found
      simp [found] at several
    · rfl

/-- A failure keeps all outcomes, and lists their errors. -/
theorem collect_error {outcomes : List (Except ε α)} {failure : BatchFailure α ε}
    (fails : collect outcomes = .error failure) :
    failure.results = outcomes ∧ failure.errors = errorsOf outcomes := by
  cases failure with
  | single index e results =>
      obtain ⟨rfl, one⟩ := collect_eq_single.1 fails
      refine ⟨rfl, ?_⟩
      rw [← failuresOf_snd, one]
      rfl
  | aggregate errors results =>
      obtain ⟨rfl, rfl, -⟩ := collect_eq_aggregate.1 fails
      exact ⟨rfl, rfl⟩

theorem failuresOf_map (f : α → β) (outcomes : List (Except ε α)) :
    failuresOf (outcomes.map (·.map f)) = failuresOf outcomes := by
  induction outcomes with
  | nil => rfl
  | cons outcome rest ih =>
      rw [List.map_cons]
      cases outcome with
      | ok value =>
          rw [failuresOf_ok, ← ih]
          exact failuresOf_ok _ _
      | error e =>
          rw [failuresOf_error, ← ih]
          exact failuresOf_error _ _

theorem valuesOf_map (f : α → β) (outcomes : List (Except ε α)) :
    valuesOf (outcomes.map (·.map f)) = (valuesOf outcomes).map f := by
  unfold valuesOf
  rw [List.filterMap_map, List.map_filterMap]
  apply List.filterMap_congr
  intro outcome _
  cases outcome with
  | ok value => rfl
  | error e => rfl

/-- It makes no difference whether values are changed before or after they are collected. -/
theorem collect_map (f : α → β) (outcomes : List (Except ε α)) :
    collect (outcomes.map (·.map f)) =
      ((collect outcomes).map (·.map f)).mapError (·.mapValues f) := by
  unfold collect
  rw [failuresOf_map, valuesOf_map]
  split
  · rfl
  · rfl
  · rfl

/-! ## Boards -/

/-- The slots after some operations have finished. -/
def board (count : Nat) (finished : List (Nat × Except ε α)) : Board α ε :=
  finished.foldl (fun board f => Board.finish board f.1 f.2) (List.replicate count none)

theorem board_concat (count : Nat) (finished : List (Nat × Except ε α)) (index : Nat)
    (outcome : Except ε α) :
    board count (finished ++ [(index, outcome)]) =
      (board count finished).set index (some outcome) := by
  unfold board
  rw [List.foldl_append]
  rfl

theorem length_board (count : Nat) (finished : List (Nat × Except ε α)) :
    (board count finished).length = count := by
  induction finished using List.reverseRecOn with
  | nil => exact List.length_replicate
  | append_singleton finished f ih => rw [board_concat, List.length_set, ih]

/-- A slot holds what became of its operation, as soon as that has finished. -/
theorem getElem?_board {count : Nat} {finished : List (Nat × Except ε α)}
    (once : (finished.map (·.1)).Nodup) {index : Nat} {outcome : Except ε α}
    (inside : index < count) :
    (board count finished)[index]? = some (some outcome) ↔ (index, outcome) ∈ finished := by
  induction finished using List.reverseRecOn with
  | nil => simp [board, inside]
  | append_singleton finished f ih =>
      rcases f with ⟨last, outcome'⟩
      rw [List.map_append, List.nodup_append] at once
      obtain ⟨once, -, apart⟩ := once
      rw [board_concat, List.getElem?_set, length_board, List.mem_append, List.mem_singleton]
      by_cases here : last = index
      · subst here
        have alone : (last, outcome) ∉ finished := fun there =>
          apart _ (List.mem_map_of_mem there) _ (List.mem_singleton_self _) rfl
        simp [alone, inside, eq_comm]
      · simp [here, Ne.symm here, ih once]

theorem mapM_some (outcomes : List (Except ε α)) :
    (outcomes.map some).mapM id = some outcomes := by
  induction outcomes with
  | nil => rfl
  | cons outcome rest ih => simp [ih]

theorem mapM_eq_none {slots : Board α ε} (empty : none ∈ slots) : slots.mapM id = none := by
  induction slots with
  | nil => cases empty
  | cons slot rest ih =>
      cases slot with
      | none => rfl
      | some outcome => simp [ih (by simpa using empty)]

section

variable {outcomes : List (Except ε α)} {finished : List (Nat × Except ε α)}
  (order : finished.Perm (outcomes.zipIdx.map Prod.swap))
include order

theorem mem_order {index : Nat} {outcome : Except ε α} :
    (index, outcome) ∈ finished ↔ outcomes[index]? = some outcome := by
  rw [order.mem_iff, List.mem_map, ← List.mk_mem_zipIdx_iff_getElem?]
  simp

theorem nodup_order : (finished.map (·.1)).Nodup := by
  rw [(order.map _).nodup_iff, List.map_map]
  show (outcomes.zipIdx.map Prod.snd).Nodup
  rw [List.zipIdx_map_snd]
  exact List.nodup_range'

theorem finishAll_order : finishAll outcomes.length finished = some (collect outcomes) := by
  have full : board outcomes.length finished = outcomes.map some := by
    apply List.ext_getElem?
    intro index
    rw [List.getElem?_map]
    by_cases inside : index < outcomes.length
    · rw [List.getElem?_eq_getElem inside]
      exact (getElem?_board (nodup_order order) inside).2
        ((mem_order order).2 (List.getElem?_eq_getElem inside))
    · have outside := Nat.le_of_not_lt inside
      rw [List.getElem?_eq_none outside, List.getElem?_eq_none (by rwa [length_board])]
      rfl
  show (List.mapM id (board outcomes.length finished)).map collect = _
  rw [full, mapM_some]
  rfl

/-- While an operation has not finished, its slot is empty. -/
theorem finishAll_take {n : Nat} (early : n < outcomes.length) :
    finishAll outcomes.length (finished.take n) = none := by
  have length : finished.length = outcomes.length := by
    rw [order.length_eq, List.length_map, List.length_zipIdx]
  have next : n < finished.length := by rwa [length]
  have once := nodup_order order
  rw [← List.take_append_drop n finished, List.map_append, List.nodup_append] at once
  obtain ⟨once, -, apart⟩ := once
  rw [List.drop_eq_getElem_cons next] at apart
  rcases waiting : finished[n] with ⟨index, outcome⟩
  rw [waiting] at apart
  have inside : index < outcomes.length := by
    have there : (index, outcome) ∈ finished := waiting ▸ List.getElem_mem next
    exact (List.getElem?_eq_some_iff.1 ((mem_order order).1 there)).1
  have empty : none ∈ board outcomes.length (finished.take n) := by
    have slot : index < (board outcomes.length (finished.take n)).length := by
      rwa [length_board]
    cases held : (board outcomes.length (finished.take n))[index] with
    | none => rw [← held]; exact List.getElem_mem slot
    | some outcome' =>
        have there := (getElem?_board once inside).1 ((List.getElem?_eq_getElem slot).trans
          (congrArg some held))
        exact absurd rfl (apart index (List.mem_map.2 ⟨_, there, rfl⟩) index
          (List.mem_cons_self ..))
  show (List.mapM id (board outcomes.length (finished.take n))).map collect = _
  rw [mapM_eq_none empty]
  rfl

end

/-- A batch succeeds with all values in order if no operation failed, names the place and the error
of the only one that failed, and lists all errors if there are several. Either failure keeps every
outcome in its place. The order in which the operations finish does not show, the outcome is there
when the last of them has, and values may as well be changed before they are collected. -/
theorem outcome_of_operations (outcomes : List (Except ε α)) :
    (∀ values, collect outcomes = .ok values ↔ outcomes = values.map .ok) ∧
      (∀ index e results, collect outcomes = .error (.single index e results) ↔
        results = outcomes ∧ ∃ before after : List α,
          outcomes = before.map .ok ++ .error e :: after.map .ok ∧ index = before.length) ∧
      (∀ errors results, collect outcomes = .error (.aggregate errors results) ↔
        results = outcomes ∧ errors = errorsOf outcomes ∧ 2 ≤ errors.length) ∧
      (∀ failure, collect outcomes = .error failure →
        failure.results = outcomes ∧ failure.errors = errorsOf outcomes) ∧
      (∀ finished, finished.Perm (outcomes.zipIdx.map Prod.swap) →
        finishAll outcomes.length finished = some (collect outcomes) ∧
          ∀ n < outcomes.length, finishAll outcomes.length (finished.take n) = none) ∧
      ∀ {β : Type} (f : α → β), collect (outcomes.map (·.map f)) =
        ((collect outcomes).map (·.map f)).mapError (·.mapValues f) := by
  refine ⟨?_, ?_, ?_, ?_, ?_, ?_⟩
  · intro values
    exact collect_eq_ok
  · intro index e results
    rw [collect_eq_single, failuresOf_eq_singleton]
  · intro errors results
    exact collect_eq_aggregate
  · intro failure fails
    exact collect_error fails
  · intro finished order
    exact ⟨finishAll_order order, fun n early => finishAll_take order early⟩
  · intro β f
    exact collect_map f outcomes

/-- The second of two failures comes first. -/
theorem outcome_of_late_operations :
    let outcomes : List (Except String Nat) := [.ok 0, .error "late", .ok 20, .error "early"]
    let finished := [(3, .error "early"), (2, .ok 20), (0, .ok 0), (1, .error "late")]
    finished.Perm (outcomes.zipIdx.map Prod.swap) ∧
      collect outcomes = .error (.aggregate ["late", "early"] outcomes) ∧
      finishAll 4 finished = some (collect outcomes) ∧ finishAll 4 (finished.take 3) = none := by
  intro outcomes finished
  have order : finished.Perm (outcomes.zipIdx.map Prod.swap) := by decide
  obtain ⟨-, -, several, -, orders, -⟩ := outcome_of_operations outcomes
  obtain ⟨all, early⟩ := orders finished order
  exact ⟨order, (several _ _).2 ⟨rfl, rfl, Nat.le_refl 2⟩, all, early 3 (by decide)⟩

end Batch
end TemplateCache
