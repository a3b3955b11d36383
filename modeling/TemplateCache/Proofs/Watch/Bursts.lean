import Mathlib.Data.List.Induction
import Mathlib.Data.List.Nodup
import Mathlib.Data.List.Perm.Basic
import TemplateCache.Watch.Debounce

/-!
# Bursts of events

Events of a path of which each comes within the window after the one before are a burst. A path
settles once for each burst, one window after its last event, and events of other paths have no part
in it: `quietEnds` says so of a sequence of events alone. `Course` is every way in which the timers
can run out, each when it is due and those that are due together in any order.

A path that has settled counts its generations from one again. `Orderly` is the invariant that keeps
a timer of an earlier burst from being taken for one of a later burst: what is left of a path that
has settled is due at this very time.
-/

namespace TemplateCache.Debounce

/-! ## When bursts end -/

/-- The ends of all quiet periods. The events are in the order in which they came. -/
def quietEnds : List (String × Nat) → List (String × Nat)
  | [] => []
  | (path, time) :: later =>
    if ∃ e ∈ later, e.1 = path ∧ e.2 < time + window then quietEnds later
    else (path, time + window) :: quietEnds later

/-- Another event puts off the end of the quiet period that its path is in. -/
theorem quietEnds_concat (events : List (String × Nat)) (path : String) (now : Nat) :
    quietEnds (events ++ [(path, now)]) =
      (quietEnds events).filter (fun e => decide (e.1 = path → e.2 ≤ now)) ++
        [(path, now + window)] := by
  induction events with
  | nil => simp [quietEnds]
  | cons e later ih =>
      rcases e with ⟨other, time⟩
      have last : (∃ e ∈ later ++ [(path, now)], e.1 = other ∧ e.2 < time + window) ↔
          (∃ e ∈ later, e.1 = other ∧ e.2 < time + window) ∨
            (path = other ∧ now < time + window) := by
        simp [or_and_right, exists_or]
      simp only [List.cons_append, quietEnds, last, ih]
      by_cases followed : ∃ e ∈ later, e.1 = other ∧ e.2 < time + window
      · rw [if_pos (Or.inl followed), if_pos followed]
      · rw [if_neg followed]
        by_cases same : path = other ∧ now < time + window
        · rw [if_pos (Or.inr same), List.filter_cons_of_neg]
          simp [same]
        · rw [if_neg (not_or.2 ⟨followed, same⟩), List.filter_cons_of_pos]
          · rfl
          · apply decide_eq_true
            intro own
            exact Nat.le_of_not_lt fun within => same ⟨own.symm, within⟩

theorem mem_quietEnds_concat {events : List (String × Nat)} {path other : String}
    {due now : Nat} : (path, due) ∈ quietEnds (events ++ [(other, now)]) ↔
      ((path, due) ∈ quietEnds events ∧ (path = other → due ≤ now)) ∨
        (path = other ∧ due = now + window) := by
  rw [quietEnds_concat, List.mem_append, List.mem_filter]
  simp only [decide_eq_true_eq, List.mem_singleton, Prod.mk.injEq]

/-- A quiet period is over one window after an event of its path that no other one has followed
within the window. -/
theorem mem_quietEnds {events : List (String × Nat)} {path : String} {due : Nat}
    (ascending : events.Pairwise fun a b => a.2 ≤ b.2) :
    (path, due) ∈ quietEnds events ↔ ∃ time, due = time + window ∧ (path, time) ∈ events ∧
      ∀ later, (path, later) ∈ events → time < later → due ≤ later := by
  induction events using List.reverseRecOn with
  | nil => simp [quietEnds]
  | append_singleton events e ih =>
      rcases e with ⟨other, now⟩
      obtain ⟨before, -, last⟩ := List.pairwise_append.1 ascending
      have past {time : Nat} (there : (path, time) ∈ events) : time ≤ now :=
        last _ there _ (List.mem_singleton_self _)
      rw [mem_quietEnds_concat, ih before]
      simp only [List.mem_append, List.mem_singleton, Prod.mk.injEq]
      constructor
      · rintro (⟨⟨time, same, there, quiet⟩, put⟩ | ⟨rfl, rfl⟩)
        · refine ⟨time, same, Or.inl there, ?_⟩
          rintro later (there' | ⟨rfl, rfl⟩) behind
          · exact quiet later there' behind
          · exact put rfl
        · refine ⟨now, rfl, Or.inr ⟨rfl, rfl⟩, ?_⟩
          rintro later (there' | ⟨-, rfl⟩) behind
          · exact absurd (past there') (Nat.not_le_of_lt behind)
          · exact absurd behind (Nat.lt_irrefl _)
      · rintro ⟨time, rfl, there | ⟨rfl, rfl⟩, quiet⟩
        · by_cases again : path = other ∧ time = now
          · obtain ⟨rfl, rfl⟩ := again
            exact Or.inr ⟨rfl, rfl⟩
          · left
            refine ⟨⟨time, rfl, there, fun later there' => quiet later (Or.inl there')⟩, ?_⟩
            intro own
            apply quiet now (Or.inr ⟨own, rfl⟩)
            exact Nat.lt_of_le_of_ne (past there) fun same => again ⟨own, same⟩
        · exact Or.inr ⟨rfl, rfl⟩

theorem nodup_quietEnds (events : List (String × Nat)) : (quietEnds events).Nodup := by
  induction events using List.reverseRecOn with
  | nil => exact List.nodup_nil
  | append_singleton events e ih =>
      rcases e with ⟨path, now⟩
      rw [quietEnds_concat]
      apply (ih.filter _).append (List.nodup_singleton _)
      intro e there new
      rw [List.mem_singleton.1 new, List.mem_filter] at there
      have put : now + window ≤ now := of_decide_eq_true there.2 rfl
      unfold window at put
      omega

/-- The quiet periods of a path depend on its own events alone. -/
theorem quietEnds_filter (events : List (String × Nat)) (path : String) :
    quietEnds (events.filter fun e => e.1 = path) =
      (quietEnds events).filter fun e => e.1 = path := by
  induction events using List.reverseRecOn with
  | nil => rfl
  | append_singleton events e ih =>
      rcases e with ⟨other, now⟩
      by_cases own : other = path
      · subst own
        simp only [List.filter_append, List.filter_cons_of_pos, decide_true, List.filter_nil,
          quietEnds_concat, ih, List.filter_filter]
        simp only [Bool.and_comm]
      · have unlike : ∀ e ∈ quietEnds events, e.1 = path → e.1 ≠ other := by
          rintro e - rfl same
          exact own same.symm
        rw [List.filter_append, List.filter_cons_of_neg (by simpa using own), List.filter_nil,
          List.append_nil, ih, quietEnds_concat, List.filter_append,
          List.filter_cons_of_neg (by simpa using own), List.filter_nil, List.append_nil,
          List.filter_filter]
        refine List.filter_congr fun e there => ?_
        by_cases here : e.1 = path
        · simp [here, Ne.symm own]
        · simp [here]

/-! ## Courses of events -/

/-- A running timer runs out. -/
def fire (d : Debounce) (timer : Timer) : Bool × Debounce :=
  { d with timers := d.timers.erase timer }.ring timer

/-- The events that have come by some time, and the settles that have been made of them. A timer
runs out when it is due, and time does not pass it by. -/
inductive Course : List (String × Nat) → List (String × Nat) → Nat → Debounce → Prop where
  | start (now : Nat) : Course [] [] now {}
  | wait {events settled : List (String × Nat)} {now time : Nat} {d : Debounce}
      (before : Course events settled now d) (forward : now ≤ time)
      (punctual : ∀ timer ∈ d.timers, time ≤ timer.due) : Course events settled time d
  | arrive {events settled : List (String × Nat)} {now : Nat} {d : Debounce}
      (before : Course events settled now d) (path : String) :
      Course (events ++ [(path, now)]) settled now (d.arrive path now)
  | ring {events settled : List (String × Nat)} {d : Debounce} {timer : Timer}
      (before : Course events settled timer.due d) (running : timer ∈ d.timers) :
      Course events
        (settled ++ if (d.fire timer).1 then [(timer.path, timer.due)] else [])
        timer.due (d.fire timer).2

/-- A running timer is current while no later event of its path has come. -/
abbrev Current (d : Debounce) (timer : Timer) : Prop :=
  d.generations.get? timer.path = some timer.generation

/-- When the paths that have not settled will, if nothing more comes. -/
def pending (d : Debounce) : List (String × Nat) :=
  (d.timers.filter d.Current).map fun timer => (timer.path, timer.due)

/-- What holds of timers and generations throughout. -/
structure Orderly (events settled : List (String × Nat)) (now : Nat) (d : Debounce) : Prop where
  past : ∀ e ∈ events, e.2 ≤ now
  done : ∀ e ∈ settled, e.2 ≤ now
  timed : ∀ timer ∈ d.timers, now ≤ timer.due ∧
    ∃ time, (timer.path, time) ∈ events ∧ timer.due = time + window
  distinct : (d.timers.map fun timer => (timer.path, timer.generation)).Nodup
  /-- The timer of the last event of a burst is current, and the last one to run out. -/
  latest : ∀ {path generation}, d.generations.get? path = some generation →
    ∃ timer ∈ d.timers, timer.path = path ∧ timer.generation = generation ∧
      ∀ other ∈ d.timers, other.path = path →
        other.generation ≤ generation ∧ other.due ≤ timer.due
  /-- Timers of a path that has settled run out at once. -/
  spent : ∀ {path}, d.generations.get? path = none →
    ∀ timer ∈ d.timers, timer.path = path → timer.due = now
  accounts : (settled ++ d.pending).Perm (quietEnds events)

/-- No two events of a path are exactly one window apart. -/
def Apart (events : List (String × Nat)) : Prop :=
  ∀ path time, (path, time) ∈ events → (path, time + window) ∉ events

namespace Orderly

variable {events settled : List (String × Nat)} {now : Nat} {d : Debounce}

theorem start (now : Nat) : Orderly [] [] now {} where
  past _ there := nomatch there
  done _ there := nomatch there
  timed _ there := nomatch there
  distinct := List.nodup_nil
  latest known := nomatch known
  spent _ _ there := nomatch there
  accounts := .refl _

theorem wait {time : Nat} (h : Orderly events settled now d) (forward : now ≤ time)
    (punctual : ∀ timer ∈ d.timers, time ≤ timer.due) : Orderly events settled time d where
  past e there := Nat.le_trans (h.past e there) forward
  done e there := Nat.le_trans (h.done e there) forward
  timed timer there := ⟨punctual timer there, (h.timed timer there).2⟩
  distinct := h.distinct
  latest := h.latest
  spent := by
    intro path none timer there own
    have due := h.spent none timer there own
    have := punctual timer there
    omega
  accounts := h.accounts

/-- Of two timers of a path with one generation, there is only one. -/
theorem unique (h : Orderly events settled now d) {timer other : Timer}
    (there : timer ∈ d.timers) (there' : other ∈ d.timers) (path : other.path = timer.path)
    (generation : other.generation = timer.generation) : other = timer :=
  List.inj_on_of_nodup_map h.distinct there' there (by rw [path, generation])

/-- A path that may yet settle does so later than now, unless an event of it came a window ago. -/
theorem due_of_apart (h : Orderly events settled now d) {path : String}
    (apart : Apart (events ++ [(path, now)])) {timer : Timer} (there : timer ∈ d.timers)
    (own : timer.path = path) : now < timer.due := by
  obtain ⟨ahead, time, came, due⟩ := h.timed timer there
  apply Nat.lt_of_le_of_ne ahead
  intro same
  rw [own] at came
  apply apart path time (List.mem_append_left _ came)
  rw [← due, ← same]
  exact List.mem_append_right _ (List.mem_singleton_self _)

/-- The generation that another event of a path begins is new. -/
theorem generation_lt (h : Orderly events settled now d) {path : String}
    (apart : Apart (events ++ [(path, now)])) {timer : Timer} (there : timer ∈ d.timers)
    (own : timer.path = path) :
    timer.generation < (d.generations.get? path).getD 0 + 1 := by
  cases known : d.generations.get? path with
  | none =>
      have due := h.spent known timer there own
      have later := h.due_of_apart apart there own
      omega
  | some generation =>
      obtain ⟨newest, -, -, -, last⟩ := h.latest known
      exact Nat.lt_succ_of_le (last timer there own).1

/-- Another event of a path takes the place of those that it follows. -/
theorem pending_arrive (h : Orderly events settled now d) {path : String}
    (apart : Apart (events ++ [(path, now)])) :
    (d.arrive path now).pending =
      d.pending.filter (fun e => decide (e.1 = path → e.2 ≤ now)) ++ [(path, now + window)] := by
  unfold pending Debounce.arrive
  dsimp only
  rw [List.filter_append, List.map_append, List.filter_map, List.filter_filter]
  congr 1
  · congr 1
    apply List.filter_congr
    intro timer there
    by_cases own : timer.path = path
    · have old := Nat.ne_of_gt (h.generation_lt apart there own)
      have later := h.due_of_apart apart there own
      simp [Current, own, old, Nat.not_le_of_lt later]
    · simp [Current, own]
  · simp [Current]

theorem arrive (h : Orderly events settled now d) {path : String}
    (apart : Apart (events ++ [(path, now)])) :
    Orderly (events ++ [(path, now)]) settled now (d.arrive path now) := by
  have newer {timer : Timer} (there : timer ∈ d.timers) := h.generation_lt apart there
  have accounts : (settled ++ (d.arrive path now).pending).Perm
      (quietEnds (events ++ [(path, now)])) := by
    rw [quietEnds_concat, h.pending_arrive apart]
    have kept : settled.filter (fun e => decide (e.1 = path → e.2 ≤ now)) = settled := by
      rw [List.filter_eq_self]
      intro e there
      exact decide_eq_true fun _ => h.done e there
    rw [← List.append_assoc]
    apply List.Perm.append_right
    nth_rewrite 1 [← kept]
    rw [← List.filter_append]
    exact h.accounts.filter _
  unfold Debounce.arrive at accounts ⊢
  dsimp only
  generalize (d.generations.get? path).getD 0 + 1 = generation at newer accounts
  have listed {timer : Timer} :
      timer ∈ d.timers ++ [⟨path, generation, now + window⟩] ↔
        timer ∈ d.timers ∨ timer = ⟨path, generation, now + window⟩ := by
    simp
  constructor
  · intro e there
    rcases List.mem_append.1 there with before | new
    · exact h.past e before
    · obtain rfl := List.mem_singleton.1 new
      exact Nat.le_refl _
  · exact h.done
  · intro timer there
    rcases listed.1 there with before | rfl
    · obtain ⟨ahead, time, came, due⟩ := h.timed timer before
      exact ⟨ahead, time, List.mem_append_left _ came, due⟩
    · exact ⟨Nat.le_add_right _ _, now, List.mem_append_right _ (List.mem_singleton_self _), rfl⟩
  · rw [List.map_append]
    apply h.distinct.append (List.nodup_singleton _)
    intro e there new
    obtain ⟨timer, before, rfl⟩ := List.mem_map.1 there
    obtain ⟨own, same⟩ := Prod.mk.inj (List.mem_singleton.1 new)
    exact absurd same (Nat.ne_of_lt (newer before own))
  · intro other generation' known
    rw [KeyMap.get?_insert] at known
    split at known
    · rename_i own
      cases known
      refine ⟨_, listed.2 (Or.inr rfl), own.symm, rfl, ?_⟩
      intro timer there same
      rcases listed.1 there with before | rfl
      · constructor
        · exact Nat.le_of_lt (newer before (same.trans own))
        · obtain ⟨-, time, came, due⟩ := h.timed timer before
          have past : time ≤ now := h.past _ came
          show timer.due ≤ now + window
          omega
      · exact ⟨Nat.le_refl _, Nat.le_refl _⟩
    · rename_i unlike
      obtain ⟨timer, before, own, same, last⟩ := h.latest known
      refine ⟨timer, listed.2 (Or.inl before), own, same, ?_⟩
      intro timer' there own'
      rcases listed.1 there with before' | rfl
      · exact last timer' before' own'
      · exact absurd own'.symm unlike
  · intro other none timer there own
    rw [KeyMap.get?_insert] at none
    split at none
    · exact nomatch none
    · rename_i unlike
      rcases listed.1 there with before | rfl
      · exact h.spent none timer before own
      · exact absurd own.symm unlike
  · exact accounts

theorem mem_erase (h : Orderly events settled now d) {timer other : Timer} :
    other ∈ d.timers.erase timer ↔ other ≠ timer ∧ other ∈ d.timers :=
  List.Nodup.mem_erase_iff (h.distinct.of_map _)

/-- A timer of an earlier event runs out and does nothing. -/
theorem ring_old (h : Orderly events settled now d) {timer : Timer} (running : timer ∈ d.timers)
    (old : ¬d.Current timer) :
    Orderly events settled now { d with timers := d.timers.erase timer } where
  past := h.past
  done := h.done
  timed other there := h.timed other (List.mem_of_mem_erase there)
  distinct := h.distinct.sublist (List.erase_sublist.map _)
  latest := by
    intro path generation known
    obtain ⟨newest, there, own, same, last⟩ := h.latest known
    refine ⟨newest, ?_, own, same, fun other there => last other (List.mem_of_mem_erase there)⟩
    apply h.mem_erase.2 ⟨?_, there⟩
    rintro rfl
    apply old
    show d.generations.get? newest.path = some newest.generation
    rw [own, same]
    exact known
  spent none other there := h.spent none other (List.mem_of_mem_erase there)
  accounts := by
    have parts := (List.perm_cons_erase running).filter d.Current
    rw [List.filter_cons_of_neg (by simpa using old)] at parts
    exact ((parts.symm.map _).append_left settled).trans h.accounts

/-- The timer of the last event of a burst runs out, and the path settles. -/
theorem ring_current {timer : Timer} (h : Orderly events settled timer.due d)
    (running : timer ∈ d.timers) (current : d.Current timer) :
    Orderly events (settled ++ [(timer.path, timer.due)]) timer.due
      ⟨d.generations.erase timer.path, d.timers.erase timer⟩ where
  past := h.past
  done := by
    intro e there
    rcases List.mem_append.1 there with before | new
    · exact h.done e before
    · obtain rfl := List.mem_singleton.1 new
      exact Nat.le_refl _
  timed other there := h.timed other (List.mem_of_mem_erase there)
  distinct := h.distinct.sublist (List.erase_sublist.map _)
  latest := by
    intro path generation known
    rw [KeyMap.get?_erase] at known
    split at known
    · exact nomatch known
    · rename_i unlike
      obtain ⟨newest, there, own, same, last⟩ := h.latest known
      refine ⟨newest, ?_, own, same, fun other there => last other (List.mem_of_mem_erase there)⟩
      apply h.mem_erase.2 ⟨?_, there⟩
      rintro rfl
      exact unlike own.symm
  spent := by
    intro path none other there own
    replace there := List.mem_of_mem_erase there
    rw [KeyMap.get?_erase] at none
    split at none
    · rename_i settles
      obtain ⟨newest, listed, path', generation', last⟩ := h.latest current
      have same := h.unique running listed path' generation'
      subst same
      have ahead := (h.timed other there).1
      have behind := (last other there (own.trans settles)).2
      exact Nat.le_antisymm behind ahead
    · exact h.spent none other there own
  accounts := by
    have parts := (List.perm_cons_erase running).filter d.Current
    rw [List.filter_cons_of_pos (by simpa using current)] at parts
    have others : pending ⟨d.generations.erase timer.path, d.timers.erase timer⟩ =
        ((d.timers.erase timer).filter d.Current).map fun t => (t.path, t.due) := by
      unfold pending
      congr 1
      apply List.filter_congr
      intro other there
      by_cases own : other.path = timer.path
      · -- The only current timer of the path is the one that has run out.
        have old : d.generations.get? timer.path ≠ some other.generation := by
          intro also
          obtain ⟨unlike, there⟩ := h.mem_erase.1 there
          apply unlike
          apply h.unique running there own
          exact Option.some.inj (also.symm.trans current)
        simp [Current, own, old]
      · simp [Current, own]
    rw [others, List.append_assoc]
    exact ((parts.symm.map _).append_left settled).trans h.accounts

end Orderly

variable {events settled : List (String × Nat)} {now : Nat} {d : Debounce}

theorem Course.orderly (course : Course events settled now d) (apart : Apart events) :
    Orderly events settled now d := by
  induction course with
  | start now => exact .start now
  | wait before forward punctual ih => exact (ih apart).wait forward punctual
  | arrive before path ih =>
      apply (ih ?_).arrive apart
      intro path time there there'
      exact apart path time (List.mem_append_left _ there) (List.mem_append_left _ there')
  | @ring events settled d timer before running ih =>
      by_cases current : d.Current timer
      · have settles : d.fire timer =
            (true, ⟨d.generations.erase timer.path, d.timers.erase timer⟩) := if_pos current
        rw [settles]
        exact (ih apart).ring_current running current
      · have passes : d.fire timer = (false, { d with timers := d.timers.erase timer }) :=
          if_neg current
        rw [passes]
        simpa using (ih apart).ring_old running current

theorem Course.ascending (course : Course events settled now d) :
    events.Pairwise (fun a b => a.2 ≤ b.2) ∧ ∀ e ∈ events, e.2 ≤ now := by
  induction course with
  | start now => simp
  | wait before forward punctual ih =>
      exact ⟨ih.1, fun e there => Nat.le_trans (ih.2 e there) forward⟩
  | arrive before path ih =>
      obtain ⟨ascending, past⟩ := ih
      constructor
      · simpa [List.pairwise_append] using ⟨ascending, fun path time => past (path, time)⟩
      · intro e there
        rcases List.mem_append.1 there with before | new
        · exact past e before
        · obtain rfl := List.mem_singleton.1 new
          exact Nat.le_refl _
  | ring before running ih => exact ih

/-- Once all timers have run out, each path has settled once for each of its bursts. -/
theorem Course.settles (course : Course events settled now d) (rung : d.timers = [])
    (apart : Apart events) : settled.Perm (quietEnds events) := by
  have accounts := (course.orderly apart).accounts
  unfold pending at accounts
  rw [rung] at accounts
  simpa using accounts

end TemplateCache.Debounce
