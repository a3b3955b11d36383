import Mathlib.Data.List.Perm.Subperm
import Mathlib.Logic.Relation
import TemplateCache.Proofs.Job.Runs
import TemplateCache.Proofs.Store.Shadow

/-!
# Sweeps

A sweep lists a collection page by page while others put documents there and delete them, and its
own visits may delete documents too. Each page begins behind the last key of the one before, so no
key is visited twice, and a key can only be missed that was not there at some listing.
-/

namespace TemplateCache.Store.KeyValue

open Job Relation

variable {α : Type} {others : Site Written → Site Written → Prop} {s t u v : Site Written}
  {collection : Collection} {token : Token} {cursor : Option String}

/-! ## Visits -/

section

variable {β : Type} {visit : β → Keeping α} {visited more : List (β × Except StoreError α)}

/-- Visits one after the other, each with its outcome. In between others change the site as they
do. -/
inductive Visits (others : Site Written → Site Written → Prop) (visit : β → Keeping α) :
    Site Written → List (β × Except StoreError α) → Site Written → Prop where
  | nil {s t : Site Written} (changed : ReflTransGen others s t) : Visits others visit s [] t
  | cons {s u v t : Site Written} {key : β} {outcome : Except StoreError α}
      {rest : List (β × Except StoreError α)} (changed : ReflTransGen others s u)
      (runs : (visit key).run.Runs others u outcome v) (later : Visits others visit v rest t) :
      Visits others visit s ((key, outcome) :: rest) t

theorem Visits.after (changed : ReflTransGen others s u)
    (visits : Visits others visit u visited t) : Visits others visit s visited t := by
  cases visits with
  | nil later => exact .nil (changed.trans later)
  | cons later runs rest => exact .cons (changed.trans later) runs rest

theorem Visits.append (visits : Visits others visit s visited u)
    (later : Visits others visit u more t) : Visits others visit s (visited ++ more) t := by
  induction visits with
  | nil changed => exact later.after changed
  | cons changed runs rest ih => exact .cons changed runs (ih later)

/-- What others keep, and some visits. -/
structure Persists (others : Site Written → Site Written → Prop) (visit : β → Keeping α)
    (keys : β → Prop) (inv : Site Written → Prop) : Prop where
  other : ∀ {u v}, others u v → inv u → inv v
  own : ∀ {key u outcome v}, keys key → (visit key).run.Runs others u outcome v → inv u → inv v

variable {keys : β → Prop} {inv : Site Written → Prop}

theorem Persists.changed (persists : Persists others visit keys inv)
    (changed : ReflTransGen others s t) (start : inv s) : inv t := by
  induction changed with
  | refl => exact start
  | tail _ last ih => exact persists.other last ih

theorem Visits.keeps (visits : Visits others visit s visited t)
    (persists : Persists others visit keys inv) (among : ∀ v ∈ visited, keys v.1)
    (start : inv s) : inv t := by
  induction visits with
  | nil changed => exact persists.changed changed start
  | cons changed runs rest ih =>
      rw [List.forall_mem_cons] at among
      exact ih among.2 (persists.own among.1 runs (persists.changed changed start))

end

/-! ## Pages -/

theorem runs_delayed {x : Keeping α} {r : Except StoreError α}
    (runs : (do engineDelay; x : Keeping α).run.Runs others s r t) :
    ∃ u, ReflTransGen others s u ∧ x.run.Runs others u r t := by
  replace runs : (Job.act id fun s => Job.act id fun _ => Job.wait _ x : Job (Site Written)
    (Except StoreError α)).Runs others s r t := runs
  cases runs with
  | act runs =>
      cases runs with
      | act runs =>
          cases runs with
          | wait changed due rest => exact ⟨_, .single changed, rest⟩

/-- A call that is due happens at once. -/
theorem runs_attempt {call : EngineCall} {key target : String} {f : Engine → α × Engine}
    {r : Except StoreError α}
    (runs : (attempt call collection key target f).run.Runs others s r t) :
    let made := s.environment.engine.attempt call collection.name key f
    r = made.1.mapError (fun e => .medium backend target (.engine e.message)) ∧
      t = { s with environment := { s.environment with engine := made.2 } } := by
  cases runs with
  | act rest =>
      cases rest
      exact ⟨rfl, rfl⟩

/-- A page has the next keys as they are when it is listed. -/
theorem runs_page {limit : Option Nat} {page : List String × Bool}
    (runs : (KeyValue.page collection limit cursor token).run.Runs others s (.ok page) t) :
    let keys := t.environment.engine.keysBehind collection.name cursor
    ReflTransGen others s t ∧ page = (limit.elim keys keys.take, limit.any (· ≤ keys.length)) := by
  rcases runs.of_bindExcept with ⟨keys, u, listed, rest⟩ | ⟨e, -, failed⟩
  · obtain ⟨v, changed, called⟩ := runs_delayed (listed.of_within.resolve_right nofun)
    obtain ⟨answer, same⟩ := runs_attempt called
    -- A listing leaves the engine as it is, whether it fails or not.
    have made : v.environment.engine.attempt .keys collection.name (cursor.getD "")
        (fun e => (e.keysBehind collection.name cursor, e)) =
        (.ok keys, v.environment.engine) ∧
        keys = v.environment.engine.keysBehind collection.name cursor := by
      unfold Engine.attempt at *
      split at answer
      · cases answer
      · cases answer
        exact ⟨rfl, rfl⟩
    obtain ⟨made, rfl⟩ := made
    rw [made] at same
    subst same
    cases limit with
    | none =>
        cases rest
        exact ⟨changed, rfl⟩
    | some n =>
        cases rest
        exact ⟨changed, rfl⟩
  · cases failed

/-- A failed listing is no failure of a batch. -/
theorem page_not_batch {limit : Option Nat} {e : StoreError}
    (runs : (page collection limit cursor token).run.Runs others s (.error e) t)
    (failure : BatchFailure String StoreError) : e ≠ .batch failure := by
  rintro rfl
  rcases runs.of_bindExcept with ⟨keys, u, -, rest⟩ | ⟨e, failed, same⟩
  · cases limit with
    | none => cases rest
    | some n => cases rest
  · cases same
    rcases failed.of_within with called | early | late
    · obtain ⟨v, -, called⟩ := runs_delayed called
      obtain ⟨answer, -⟩ := runs_attempt called
      cases made : (v.environment.engine.attempt .keys collection.name (cursor.getD "")
          fun e => (e.keysBehind collection.name cursor, e)).1 with
      | ok keys =>
          rw [made] at answer
          cases answer
      | error fault =>
          rw [made] at answer
          cases answer
    · cases early
    · cases late

section

variable {β : Type} {visit : β → Keeping α}

theorem runs_visits {keys : List β} {outcomes : List (Except StoreError α)}
    (runs : (keys.mapM fun key => (visit key).run).Runs others s outcomes t) :
    ∃ visited, visited.map (·.1) = keys ∧ outcomes = visited.map (·.2) ∧
      Visits others visit s visited t := by
  suffices loop : ∀ (made : List (Except StoreError α)) (s : Site Written),
      (List.mapM.loop (fun key => (visit key).run) keys made).Runs others s outcomes t →
        ∃ visited, visited.map (·.1) = keys ∧ outcomes = made.reverse ++ visited.map (·.2) ∧
          Visits others visit s visited t from loop [] s runs
  -- The induction is on the keys that are left; `made` has the outcomes in reverse.
  clear runs
  induction keys with
  | nil =>
      intro made s runs
      cases runs
      exact ⟨[], rfl, by simp, .nil .refl⟩
  | cons key rest ih =>
      intro made s runs
      obtain ⟨outcome, u, first, later⟩ := Runs.of_bind runs
      obtain ⟨visited, rfl, rfl, visits⟩ := ih (outcome :: made) u later
      exact ⟨(key, outcome) :: visited, rfl, by simp, .cons .refl first visits⟩

theorem runs_together {keys : List β} {r : Except StoreError (List (Except StoreError α))}
    (runs : (together visit keys).run.Runs others s r t) :
    ∃ visited, visited.map (·.1) = keys ∧ r = .ok (visited.map (·.2)) ∧
      Visits others visit s visited t := by
  have start {u : Site Written} (changed : ReflTransGen others s u)
      (runs : (Storing.always (keys.mapM fun key => (visit key).run) : Keeping _).run.Runs others u
        r t) :
      ∃ visited, visited.map (·.1) = keys ∧ r = .ok (visited.map (·.2)) ∧
        Visits others visit s visited t := by
    obtain ⟨outcomes, rfl, visiting⟩ := Runs.of_lift runs
    obtain ⟨visited, keyed, rfl, visits⟩ := runs_visits visiting
    exact ⟨visited, keyed, rfl, visits.after changed⟩
  unfold together at runs
  by_cases empty : keys.isEmpty = true
  · rw [empty] at runs
    exact start .refl runs
  · rw [Bool.not_eq_true] at empty
    rw [empty] at runs
    obtain ⟨u, changed, runs⟩ := runs_delayed runs
    exact start changed runs

end

/-! ## What a sweep visits -/

variable {visit : String → Keeping α}

/-- A key is behind a cursor. -/
def Behind (cursor : Option String) (key : String) : Prop := ∀ c, cursor = some c → c < key

/-- What a sweep visits behind its cursor: keys in ascending order, among them every key that is
there until it is visited, and none that is never there. -/
structure Swept (others : Site Written → Site Written → Prop) (visit : String → Keeping α)
    (collection : Collection) (cursor : Option String) (s : Site Written)
    (visited : List (String × Except StoreError α)) (t : Site Written) : Prop where
  visits : Visits others visit s visited t
  ascending : (visited.map (·.1)).Pairwise (· < ·)
  behind : ∀ key ∈ visited.map (·.1), Behind cursor key
  complete : ∀ key, Behind cursor key → document collection key s ≠ none →
    Persists others visit (· ≠ key) (fun u => document collection key u ≠ none) →
    key ∈ visited.map (·.1)
  sound : ∀ key, document collection key s = none →
    Persists others visit (fun _ => True) (fun u => document collection key u = none) →
    key ∉ visited.map (·.1)

section

variable {visited more : List (String × Except StoreError α)} {key : String}

theorem mem_listed : key ∈ u.environment.engine.keysBehind collection.name cursor ↔
    document collection key u ≠ none ∧ Behind cursor key := by
  rw [mem_keysBehind, ← Option.ne_none_iff_exists']
  rfl

/-- A page that has all keys behind its cursor is the last one. -/
theorem swept_last (changed : ReflTransGen others s u) (visits : Visits others visit u visited t)
    (all : visited.map (·.1) = u.environment.engine.keysBehind collection.name cursor) :
    Swept others visit collection cursor s visited t where
  visits := visits.after changed
  ascending := by
    rw [all]
    exact ascending_keysBehind _ _ _
  behind key there := by
    rw [all] at there
    exact (mem_listed.1 there).2
  complete key behind there persists := by
    rw [all]
    exact mem_listed.2 ⟨persists.changed changed there, behind⟩
  sound key missing persists there := by
    rw [all] at there
    exact (mem_listed.1 there).1 (persists.changed changed missing)

/-- No key of a page is behind its last key. -/
theorem eq_or_lt_last {keys : List String} {n : Nat} {last : String}
    (ascending : keys.Pairwise (· < ·)) (isLast : (keys.take n).getLast? = some last)
    (here : key ∈ keys.take n) :
    key = last ∨ key < last := by
  obtain ⟨front, same⟩ := List.getLast?_eq_some_iff.1 isLast
  have sorted := ascending.take (i := n)
  rw [same] at here sorted
  rcases List.mem_append.1 here with first | own
  · exact .inr ((List.pairwise_append.1 sorted).2.2 key first last (List.mem_singleton_self _))
  · exact .inl (List.mem_singleton.1 own)

/-- After a full page the sweep goes on behind its last key. -/
theorem swept_more {n : Nat} {last : String} (changed : ReflTransGen others s u)
    (visits : Visits others visit u visited v)
    (page : visited.map (·.1) = (u.environment.engine.keysBehind collection.name cursor).take n)
    (isLast : (visited.map (·.1)).getLast? = some last)
    (rest : Swept others visit collection (some last) v more t) :
    Swept others visit collection cursor s (visited ++ more) t := by
  have ascending := ascending_keysBehind u.environment.engine collection.name cursor
  have listed {key : String} (there : key ∈ visited.map (·.1)) :
      document collection key u ≠ none ∧ Behind cursor key := by
    rw [page] at there
    exact mem_listed.1 (List.mem_of_mem_take there)
  have later {key : String} (there : key ∈ more.map (·.1)) : last < key :=
    rest.behind key there last rfl
  refine ⟨(visits.after changed).append rest.visits, ?_, ?_, ?_, ?_⟩
  · rw [List.map_append, List.pairwise_append]
    refine ⟨?_, rest.ascending, fun a here b there => ?_⟩
    · rw [page]
      exact ascending.take
    · rw [page] at here isLast
      rcases eq_or_lt_last ascending isLast here with rfl | before
      · exact later there
      · exact String.lt_trans before (later there)
  · intro key there
    rw [List.map_append, List.mem_append] at there
    rcases there with here | there
    · exact (listed here).2
    · have last_behind : Behind cursor last := (listed (List.mem_of_getLast? isLast)).2
      exact fun c same => String.lt_trans (last_behind c same) (later there)
  · intro key behind there persists
    rw [List.map_append, List.mem_append]
    by_cases here : key ∈ visited.map (·.1)
    · exact .inl here
    -- A key that the page leaves is behind its last one, and is still there after its visits.
    · have there' := persists.changed changed there
      have behind' : last < key := by
        rw [page] at here isLast
        exact last_lt ascending isLast (mem_listed.2 ⟨there', behind⟩) here
      refine .inr (rest.complete key (fun _ same => Option.some.inj same ▸ behind') ?_ persists)
      refine visits.keeps persists (fun v visited => ?_) there'
      rintro rfl
      exact here (List.mem_map_of_mem visited)
  · intro key missing persists there
    rw [List.map_append, List.mem_append] at there
    have missing' := persists.changed changed missing
    rcases there with here | there
    · exact (listed here).1 missing'
    · exact rest.sound key (visits.keeps persists (fun _ _ => trivial) missing') persists there

theorem runs_sweepFrom {pageSize : Nat} (size : 0 < pageSize) (pages : Nat)
    {outcomes : List (Except StoreError α)}
    (runs : (sweepFrom collection pageSize token visit pages cursor).run.Runs others s
      (.ok outcomes) t) :
    ∃ visited, outcomes = visited.map (·.2) ∧
      Swept others visit collection cursor s visited t := by
  induction pages generalizing s cursor outcomes with
  | zero =>
      rcases runs.of_bindExcept with ⟨page, u, listed, rest⟩ | ⟨e, -, failed⟩
      · obtain ⟨changed, rfl⟩ := runs_page listed
        obtain ⟨visited, keyed, same, visits⟩ := runs_together rest
        cases same
        exact ⟨visited, rfl, swept_last changed visits keyed⟩
      · cases failed
  | succ pages ih =>
      rcases runs.of_bindExcept with ⟨page, u, listed, rest⟩ | ⟨e, -, failed⟩
      · obtain ⟨changed, rfl⟩ := runs_page listed
        rcases rest.of_bindExcept with ⟨first, v, visiting, rest⟩ | ⟨e, -, failed⟩
        · obtain ⟨visited, keyed, same, visits⟩ := runs_together visiting
          cases same
          dsimp only [Option.elim_some, Option.any_some] at keyed rest
          split at rest
          · rename_i full
            have full := of_decide_eq_true full
            have nonempty : visited.map (·.1) ≠ [] := by
              rw [keyed, ← List.length_pos_iff, List.length_take, Nat.min_eq_left full]
              exact size
            obtain ⟨last, isLast⟩ :=
              Option.ne_none_iff_exists'.1 (mt List.getLast?_eq_none_iff.1 nonempty)
            have next : ((u.environment.engine.keysBehind collection.name cursor).take
                pageSize).getLast?.or cursor = some last := by
              rw [← keyed, isLast, Option.some_or]
            rw [next] at rest
            rcases rest.of_bindExcept with ⟨later, w, sweeping, rest⟩ | ⟨e, -, failed⟩
            · cases rest
              obtain ⟨more, rfl, swept⟩ := ih sweeping
              refine ⟨visited ++ more, by rw [List.map_append], ?_⟩
              exact swept_more changed visits keyed isLast swept
            · cases failed
          · rename_i short
            cases rest
            have short : ¬pageSize ≤ _ := fun le => short (decide_eq_true le)
            rw [List.take_of_length_le (Nat.le_of_not_le short)] at keyed
            exact ⟨visited, rfl, swept_last changed visits keyed⟩
        · cases failed
      · cases failed

end

/-- Only a listing makes a sweep fail. -/
theorem sweepFrom_not_batch {pageSize pages : Nat} {e : StoreError}
    (runs : (sweepFrom collection pageSize token visit pages cursor).run.Runs others s
      (.error e) t) (failure : BatchFailure String StoreError) : e ≠ .batch failure := by
  induction pages generalizing s cursor with
  | zero =>
      rcases runs.of_bindExcept with ⟨page, u, -, rest⟩ | ⟨e, failed, same⟩
      · obtain ⟨visited, -, same, -⟩ := runs_together rest
        cases same
      · cases same
        exact page_not_batch failed failure
  | succ pages ih =>
      rcases runs.of_bindExcept with ⟨page, u, -, rest⟩ | ⟨e, failed, same⟩
      · rcases rest.of_bindExcept with ⟨first, v, -, rest⟩ | ⟨e, failed, -⟩
        · split at rest
          · rcases rest.of_bindExcept with ⟨later, w, -, rest⟩ | ⟨e, failed, same⟩
            · cases rest
            · cases same
              exact ih failed
          · cases rest
        · obtain ⟨visited, -, same, -⟩ := runs_together failed
          cases same
      · cases same
        exact page_not_batch failed failure

/-! ## How many pages there are -/

section

variable {known : List String}

/-- All keys of a collection are among some keys. -/
def Within (collection : Collection) (known : List String) (s : Site Written) : Prop :=
  ∀ key, document collection key s ≠ none → key ∈ known

/-- How many of some keys are behind a cursor. -/
def countBehind (known : List String) (cursor : Option String) : Nat :=
  known.countP fun key => cursor.all (· < key)

theorem all_behind {key : String} : (cursor.all (· < key)) = true ↔ Behind cursor key := by
  unfold Behind
  cases cursor <;> simp

/-- A full page leaves fewer keys for the next ones. -/
theorem countBehind_next {n : Nat} {last : String} (within : Within collection known u)
    (full : n ≤ (u.environment.engine.keysBehind collection.name cursor).length)
    (isLast : ((u.environment.engine.keysBehind collection.name cursor).take n).getLast? =
      some last) :
    n + countBehind known (some last) ≤ countBehind known cursor := by
  have ascending := ascending_keysBehind u.environment.engine collection.name cursor
  have last_behind : Behind cursor last :=
    (mem_listed.1 (List.mem_of_mem_take (List.mem_of_getLast? isLast))).2
  -- The page is among the keys behind the cursor that are not behind its last key.
  have page : ((u.environment.engine.keysBehind collection.name cursor).take n).length ≤
      (known.filter fun key => cursor.all (· < key) && !decide (last < key)).length := by
    refine (List.subperm_of_subset (ascending.take.imp fun {a b} below => Std.ne_of_lt below)
      fun key here => ?_).length_le
    obtain ⟨there, behind⟩ := mem_listed.1 (List.mem_of_mem_take here)
    have upTo : ¬last < key := by
      rcases eq_or_lt_last ascending isLast here with rfl | before
      · exact String.lt_irrefl key
      · exact String.lt_asymm before
    exact List.mem_filter.2 ⟨within key there, Bool.and_eq_true_iff.2
      ⟨all_behind.2 behind, congrArg not (decide_eq_false upTo)⟩⟩
  rw [List.length_take, Nat.min_eq_left full, ← List.countP_eq_length_filter] at page
  have next : countBehind known (some last) ≤
      known.countP fun key => cursor.all (· < key) && decide (last < key) := by
    refine List.countP_mono_left fun key _ beyond => ?_
    replace beyond := all_behind.1 beyond last rfl
    refine Bool.and_eq_true_iff.2 ⟨all_behind.2 fun c same => ?_, decide_eq_true beyond⟩
    exact String.lt_trans (last_behind c same) beyond
  have total := List.countP_eq_countP_filter_add known (fun key => cursor.all (· < key))
    fun key => decide (last < key)
  rw [List.countP_filter, List.countP_filter] at total
  exact (Nat.add_comm _ _).trans_le ((Nat.add_le_add next page).trans total.ge)

/-- If no more keys come up than the pages of a sweep have room for, the sweep ends by itself. -/
theorem sweepFrom_ends {pageSize : Nat} (size : 0 < pageSize) {pages : Nat}
    {r : Except StoreError (List (Except StoreError α))}
    (persists : Persists others visit (fun _ => True) (Within collection known))
    (within : Within collection known s) (enough : countBehind known cursor < pageSize * pages)
    (spare : Nat) :
    (sweepFrom collection pageSize token visit (pages + spare) cursor).run.Runs others s r t ↔
      (sweepFrom collection pageSize token visit pages cursor).run.Runs others s r t := by
  induction pages generalizing s t cursor r with
  | zero => exact absurd enough (Nat.not_lt_zero _)
  | succ pages ih =>
      rw [Nat.succ_add]
      refine Runs.bindExcept_congr fun {page u} listed => ?_
      obtain ⟨changed, rfl⟩ := runs_page listed
      have within' := persists.changed changed within
      refine Runs.bindExcept_congr fun {first v} visiting => ?_
      obtain ⟨visited, -, -, visits⟩ := runs_together visiting
      have within'' := visits.keeps persists (fun _ _ => trivial) within'
      dsimp only [Option.elim_some, Option.any_some]
      split
      · rename_i full
        have full := of_decide_eq_true full
        have nonempty : (u.environment.engine.keysBehind collection.name cursor).take pageSize ≠
            [] := by
          rw [← List.length_pos_iff, List.length_take, Nat.min_eq_left full]
          exact size
        obtain ⟨last, isLast⟩ :=
          Option.ne_none_iff_exists'.1 (mt List.getLast?_eq_none_iff.1 nonempty)
        have fewer := countBehind_next within' full isLast
        have enough' : countBehind known (some last) < pageSize * pages := by
          rw [Nat.mul_succ] at enough
          omega
        rw [isLast, Option.some_or]
        exact Runs.congr_bindExcept (ih within'' enough')
      · exact Iff.rfl

end

/-! ## Whole sweeps -/

theorem runs_sweep {pageSize : Nat} (size : 0 < pageSize) {outcomes : List (Except StoreError α)}
    (runs : (sweep collection pageSize token visit).run.Runs others s (.ok outcomes) t) :
    ∃ visited, outcomes = visited.map (·.2) ∧
      Swept others visit collection none s visited t := by
  rcases runs.of_bindExcept with ⟨count, u, counted, sweeping⟩ | ⟨e, -, failed⟩
  · cases counted with
    | act rest =>
        cases rest
        exact runs_sweepFrom size _ sweeping
  · cases failed

theorem sweep_not_batch {pageSize : Nat} {e : StoreError}
    (runs : (sweep collection pageSize token visit).run.Runs others s (.error e) t)
    (failure : BatchFailure String StoreError) : e ≠ .batch failure := by
  rcases runs.of_bindExcept with ⟨count, u, -, sweeping⟩ | ⟨e, counted, -⟩
  · exact sweepFrom_not_batch sweeping failure
  · cases counted with
    | act rest => cases rest

end TemplateCache.Store.KeyValue
