import Mathlib.Data.List.Induction
import TemplateCache.Proofs.CodeCache

/-!
# Histories of a code cache

A cache remembers the invalidation of a key by one mark, and what it does not refuse under the key
erases that mark. So work from before an invalidation is refused until the key is renewed, and from
then on it is let in like any other. Only a clearing is remembered for good. A step lemma says so of
one call (`isOutdated_apply`), and by induction on the calls it holds of every run.

Whatever calls are made, a cache stays in order: its renderers are under their own keys, no key is
both cached and stale, and the marks are bounded by the last clearing and by the epoch. So what is
compiled since the current epoch is always let in, and what was compiled since an earlier one is
refused only because of a call that was made meanwhile and barred the key.
-/

namespace TemplateCache.CodeCache

variable {r : CodeCache} {key k : String} {e : Nat}

/-! ## Runs -/

/-- What changes a cache. -/
inductive Call where
  | insert (record : CodeRecord) (since : Nat)
  | invalidate (keys : List String)
  | dropName (name : String)
  | refresh (key : String) (since : Nat)
  | clear

namespace Call

def apply (r : CodeCache) : Call → CodeCache
  | insert record since => (r.insert record since).2
  | invalidate keys => (r.invalidate keys).2
  | dropName name => r.dropName name
  | refresh key since => r.refresh key since
  | clear => r.clear

/-- The call invalidates the key: it names the key, or drops the renderer that is there, or clears
the cache. -/
def Bars (r : CodeCache) (key : String) : Call → Prop
  | invalidate keys => key ∈ keys
  | dropName name => key ∈ r.keysOf name
  | clear => True
  | _ => False

/-- The call ends a compile of the key that the cache does not refuse. -/
def Renews (r : CodeCache) (key : String) : Call → Prop
  | insert record since => record.key = key ∧ r.isOutdated key since = false
  | refresh other since => other = key ∧ r.isOutdated key since = false
  | _ => False

end Call

/-- The cache that calls leave, made one after the other. -/
def run (r : CodeCache) (calls : List Call) : CodeCache := calls.foldl Call.apply r

variable {call : Call} {calls : List Call}

theorem run_append (r : CodeCache) (calls later : List Call) :
    r.run (calls ++ later) = (r.run calls).run later :=
  List.foldl_append

theorem run_concat (r : CodeCache) (calls : List Call) (call : Call) :
    r.run (calls ++ [call]) = call.apply (r.run calls) :=
  run_append r calls [call]

theorem Sound.apply (sound : r.Sound) (call : Call) : (call.apply r).Sound := by
  cases call with
  | insert record since => exact sound.insert
  | invalidate keys => exact sound.invalidate
  | dropName name => exact sound.invalidate
  | refresh key since => exact sound.refresh
  | clear => exact sound_clear

theorem ages_apply (r : CodeCache) (call : Call) : r.Ages (call.apply r) := by
  cases call with
  | insert record since => exact ages_insert
  | invalidate keys => exact ages_invalidate
  | dropName name => exact ages_invalidate
  | refresh key since => exact ages_refresh
  | clear => exact ages_clear

theorem Sound.run (sound : r.Sound) (calls : List Call) : (r.run calls).Sound := by
  induction calls using List.reverseRecOn with
  | nil => exact sound
  | append_singleton calls call ih =>
      rw [run_concat]
      exact ih.apply call

theorem epoch_le_run (r : CodeCache) (calls : List Call) : r.epoch ≤ (r.run calls).epoch := by
  induction calls using List.reverseRecOn with
  | nil => exact Nat.le_refl _
  | append_singleton calls call ih =>
      rw [run_concat]
      exact Nat.le_trans ih (ages_apply _ call).epoch

/-! ## What a call does to the memory of a key -/

theorem isOutdated_of_clear (h : e < r.lastClear) : r.isOutdated k e = true := by
  unfold isOutdated
  rw [decide_eq_true h, Bool.true_or]

/-- Without its mark a key is only outdated by a clearing. -/
theorem isOutdated_erase : CodeCache.isOutdated { r with stale := r.stale.erase key } k e = true ↔
    r.isOutdated k e = true ∧ (key = k → e < r.lastClear) := by
  by_cases own : k = key
  · subst own
    have unmarked : CodeCache.isOutdated { r with stale := r.stale.erase k } k e = true ↔
        e < r.lastClear := by
      unfold isOutdated
      simp
    rw [unmarked]
    exact ⟨fun cleared => ⟨isOutdated_of_clear cleared, fun _ => cleared⟩, fun h => h.2 rfl⟩
  · have kept : CodeCache.isOutdated { r with stale := r.stale.erase key } k e =
        r.isOutdated k e := by
      unfold isOutdated
      rw [KeyMap.get?_erase, if_neg own]
    rw [kept]
    exact ⟨fun outdated => ⟨outdated, fun same => absurd same.symm own⟩, And.left⟩

/-- A compile that erases the mark of its key is not refused: it is younger than the mark, which is
younger than the last clearing. -/
theorem Sound.fresh_of_mark (sound : r.Sound) {since : Nat}
    (marked : (r.stale.get? key).any (· ≤ since) = true) : r.isOutdated key since = false := by
  unfold isOutdated
  cases mark : r.stale.get? key with
  | none => simp [mark] at marked
  | some n =>
      have younger := (sound.marks mark).1
      simp only [mark, Option.any_some, decide_eq_true_eq] at marked
      simp only [Option.any_some, Bool.or_eq_false_iff, decide_eq_false_iff_not]
      omega

/-- A call is remembered if it invalidates the key. What was remembered stays, unless the call
renews the key; then only a clearing does. -/
theorem isOutdated_apply (sound : r.Sound) (begun : e ≤ r.epoch) (call : Call) :
    (call.apply r).isOutdated k e = true ↔
      call.Bars r k ∨ r.isOutdated k e = true ∧ (call.Renews r k → e < r.lastClear) := by
  cases call with
  | invalidate keys =>
      simp only [Call.apply, Call.Bars, Call.Renews, false_implies, and_true]
      exact isOutdated_invalidate begun
  | dropName name =>
      simp only [Call.apply, Call.Bars, Call.Renews, false_implies, and_true]
      exact isOutdated_dropName begun
  | clear =>
      simp only [Call.apply, Call.Bars, true_or, iff_true]
      exact isOutdated_clear begun
  | insert record since =>
      simp only [Call.apply, Call.Bars, Call.Renews, false_or]
      cases outdated : r.isOutdated record.key since with
      | true =>
          have refused : ¬(record.key = k ∧ r.isOutdated k since = false) := by
            rintro ⟨rfl, fresh⟩
            rw [outdated] at fresh
            cases fresh
          rw [insert_outdated outdated]
          simp only [refused, false_implies, and_true]
      | false =>
          have fresh : record.key = k → r.isOutdated k since = false := by
            rintro rfl
            exact outdated
          rw [insert_fresh outdated, and_iff_left_of_imp fresh]
          exact isOutdated_erase
  | refresh key since =>
      simp only [Call.apply, Call.Bars, Call.Renews, false_or]
      by_cases marked : (r.stale.get? key).any (· ≤ since) = true
      · have erased : r.refresh key since = { r with stale := r.stale.erase key } := if_pos marked
        have fresh : key = k → r.isOutdated k since = false := by
          rintro rfl
          exact sound.fresh_of_mark marked
        rw [erased, and_iff_left_of_imp fresh]
        exact isOutdated_erase
      · have kept : r.refresh key since = r := if_neg marked
        rw [kept]
        refine ⟨fun outdated => ⟨outdated, ?_⟩, And.left⟩
        rintro ⟨rfl, fresh⟩
        -- There is no mark, or the compile would be refused for it.
        unfold isOutdated at outdated fresh
        cases mark : r.stale.get? key with
        | none =>
            rw [mark] at outdated
            simpa using outdated
        | some n =>
            simp only [mark, Option.any_some, decide_eq_true_eq, Bool.or_eq_false_iff,
              decide_eq_false_iff_not] at marked fresh
            omega

theorem lastClear_apply (begun : e ≤ r.epoch) (call : Call) :
    e < (call.apply r).lastClear ↔ call = .clear ∨ e < r.lastClear := by
  cases call with
  | insert record since =>
      have same : (r.insert record since).2.lastClear = r.lastClear := by
        unfold CodeCache.insert
        split
        · rfl
        · rfl
      simp only [Call.apply, same, reduceCtorEq, false_or]
  | invalidate keys => simp only [Call.apply, lastClear_invalidate, reduceCtorEq, false_or]
  | dropName name =>
      simp only [Call.apply, dropName, lastClear_invalidate, reduceCtorEq, false_or]
  | refresh key since =>
      have same : (r.refresh key since).lastClear = r.lastClear := by
        unfold CodeCache.refresh
        split
        · rfl
        · rfl
      simp only [Call.apply, same, reduceCtorEq, false_or]
  | clear =>
      simp only [Call.apply, true_or, iff_true]
      exact Nat.lt_succ_of_le begun

theorem lastClear_run (sound : r.Sound) (calls : List Call) :
    r.epoch < (r.run calls).lastClear ↔ .clear ∈ calls := by
  induction calls using List.reverseRecOn with
  | nil => simpa [run] using sound.cleared
  | append_singleton calls call ih =>
      rw [run_concat, lastClear_apply (epoch_le_run r calls), ih, List.mem_append,
        List.mem_singleton, or_comm, eq_comm]

/-! ## Barred keys -/

/-- A call invalidates the key, and none of the calls after it renews the key. -/
def Barred (r : CodeCache) (key : String) (calls : List Call) : Prop :=
  ∃ earlier call later, calls = earlier ++ call :: later ∧ call.Bars (r.run earlier) key ∧
    ∀ between renewal rest, later = between ++ renewal :: rest →
      ¬renewal.Renews (r.run (earlier ++ call :: between)) key

theorem barred_concat : r.Barred key (calls ++ [call]) ↔
    call.Bars (r.run calls) key ∨ r.Barred key calls ∧ ¬call.Renews (r.run calls) key := by
  constructor
  · rintro ⟨earlier, barring, later, split, bars, kept⟩
    rcases later.eq_nil_or_concat with rfl | ⟨later, last, rfl⟩
    · obtain ⟨rfl, same⟩ := List.append_inj' split rfl
      cases same
      exact .inl bars
    · have regrouped : earlier ++ barring :: (later ++ [last]) =
          (earlier ++ barring :: later) ++ [last] := by
        rw [List.append_assoc, List.cons_append]
      rw [List.concat_eq_append, regrouped] at split
      obtain ⟨rfl, same⟩ := List.append_inj' split rfl
      cases same
      refine .inr ⟨⟨earlier, barring, later, rfl, bars, ?_⟩, kept later call [] (by simp)⟩
      intro between renewal rest there
      exact kept between renewal (rest ++ [call]) (by simp [there])
  · rintro (bars | ⟨⟨earlier, barring, later, rfl, bars, kept⟩, keeps⟩)
    · refine ⟨calls, call, [], rfl, bars, ?_⟩
      intro between renewal rest there
      simp at there
    · refine ⟨earlier, barring, later ++ [call], by simp, bars, ?_⟩
      intro between renewal rest there
      rcases rest.eq_nil_or_concat with rfl | ⟨rest, last, rfl⟩
      · obtain ⟨rfl, same⟩ := List.append_inj' there rfl
        cases same
        exact keeps
      · rw [List.concat_eq_append, ← List.cons_append, ← List.append_assoc] at there
        exact kept between renewal rest (List.append_inj' there rfl).1

theorem not_barred_nil : ¬r.Barred key [] := by
  rintro ⟨earlier, barring, later, split, -⟩
  simp at split

theorem isOutdated_run (sound : r.Sound) (key : String) (calls : List Call) :
    (r.run calls).isOutdated key r.epoch = true ↔ .clear ∈ calls ∨ r.Barred key calls := by
  induction calls using List.reverseRecOn with
  | nil =>
      have fresh : (r.run []).isOutdated key r.epoch = false := sound.fresh
      simp [fresh, not_barred_nil]
  | append_singleton calls call ih =>
      have clearing : Call.clear = call → call.Bars (r.run calls) key := by
        rintro rfl
        trivial
      rw [run_concat, isOutdated_apply (sound.run calls) (epoch_le_run r calls), ih,
        lastClear_run sound, barred_concat, List.mem_append, List.mem_singleton]
      tauto

/-- The invalidation of a key after some point is remembered against work from then as long as
nothing renews the key: the work counts as outdated and is refused. A clearing is remembered for
good. Whatever is not remembered does not count, and the work is let in. -/
theorem invalidation_is_remembered_until_renewal (before later : List Call) :
    let past := run ∅ before
    let now := run ∅ (before ++ later)
    let remembered key := .clear ∈ later ∨ past.Barred key later
    (∀ key, now.isOutdated key past.epoch = true ↔ remembered key) ∧
      ∀ record : CodeRecord,
        (remembered record.key → now.insert record past.epoch = (false, now)) ∧
        (¬remembered record.key → (now.insert record past.epoch).1 = true ∧
          (now.insert record past.epoch).2.get? record.key = some record) := by
  intro past now remembered
  have outdated (key : String) : now.isOutdated key past.epoch = true ↔ remembered key := by
    have same : now = past.run later := run_append ∅ before later
    rw [same]
    exact isOutdated_run (sound_empty.run before) key later
  refine ⟨outdated, fun record => ⟨fun holds => ?_, fun forgotten => ?_⟩⟩
  · exact if_pos ((outdated record.key).2 holds)
  · have fresh : ¬now.isOutdated record.key past.epoch = true :=
      mt (outdated record.key).1 forgotten
    unfold CodeCache.insert
    rw [if_neg fresh]
    refine ⟨rfl, ?_⟩
    simp [get?]

/-- Once a younger compile of the key is cached, the older one is no longer refused. -/
theorem renewal_forgets_invalidation :
    ¬∀ (before later : List Call) (record : CodeRecord),
      (∃ earlier call rest, later = earlier ++ call :: rest ∧
        call.Bars (run ∅ (before ++ earlier)) record.key) →
      (run ∅ (before ++ later)).isOutdated record.key (run ∅ before).epoch = true ∧
        (run ∅ (before ++ later)).insert record (run ∅ before).epoch =
          (false, run ∅ (before ++ later)) := by
  intro remembers
  let made : CodeRecord := ⟨"a", "a", { source := none, render := fun _ _ => .ok "" }⟩
  have outdated := (remembers [] [.invalidate ["a"], .insert made 1] made
    ⟨[], .invalidate ["a"], [.insert made 1], rfl, List.mem_singleton_self "a"⟩).1
  exact absurd outdated (by decide)

/-! ## Order -/

variable {name : String} {record : CodeRecord} {since : Nat}

/-- A sound cache whose renderers are under their own keys. -/
structure InOrder (r : CodeCache) : Prop extends r.Sound where
  filed : ∀ {k record}, r.get? k = some record → record.key = k

theorem inOrder_empty : InOrder ∅ := ⟨sound_empty, nofun⟩

/-- A call that makes no renderer keeps the order as far as it keeps the cache sound. -/
theorem InOrder.fewer {s : CodeCache} (order : r.InOrder) (sound : s.Sound)
    (fewer : ∀ {k record}, s.get? k = some record → r.get? k = some record) : s.InOrder :=
  ⟨sound, fun found => order.filed (fewer found)⟩

theorem InOrder.insert (order : r.InOrder) : (r.insert record since).2.InOrder where
  toSound := order.toSound.insert
  filed := by
    intro k found there
    cases outdated : r.isOutdated record.key since with
    | true =>
        rw [insert_outdated outdated] at there
        exact order.filed there
    | false =>
        rw [insert_fresh outdated] at there
        replace there : (r.entries.insert record.key record).get? k = some found := there
        rw [KeyMap.get?_insert] at there
        split at there
        · rename_i own
          cases there
          exact own.symm
        · exact order.filed there

theorem InOrder.apply (order : r.InOrder) (call : Call) : (call.apply r).InOrder := by
  have sound := order.toSound.apply call
  cases call with
  | insert record since => exact order.insert
  | invalidate keys => exact order.fewer sound cached_invalidate
  | dropName name => exact order.fewer sound cached_invalidate
  | refresh key since =>
      refine order.fewer sound fun {k record} found => ?_
      have same : (r.refresh key since).get? k = r.get? k := by
        unfold CodeCache.refresh
        split
        · rfl
        · rfl
      exact same ▸ found
  | clear => exact order.fewer sound nofun

theorem InOrder.run (order : r.InOrder) (calls : List Call) : (r.run calls).InOrder := by
  induction calls using List.reverseRecOn with
  | nil => exact order
  | append_singleton calls call ih =>
      rw [run_concat]
      exact ih.apply call

/-! ## Epochs -/

/-- The call begins a new epoch. -/
def Call.beginsEpoch : Call → Bool
  | invalidate _ => true
  | dropName _ => true
  | clear => true
  | insert _ _ => false
  | refresh _ _ => false

theorem epoch_apply (r : CodeCache) (call : Call) :
    (call.apply r).epoch = r.epoch + call.beginsEpoch.toNat := by
  cases call with
  | insert record since =>
      simp only [Call.apply, Call.beginsEpoch, CodeCache.insert]
      split
      · rfl
      · rfl
  | invalidate keys => exact epoch_invalidate
  | dropName name => exact epoch_invalidate
  | refresh key since =>
      simp only [Call.apply, Call.beginsEpoch, CodeCache.refresh]
      split
      · rfl
      · rfl
  | clear => rfl

/-- The epoch is the number of calls that have begun one. -/
theorem epoch_run (r : CodeCache) (calls : List Call) :
    (r.run calls).epoch = r.epoch + calls.countP Call.beginsEpoch := by
  induction calls using List.reverseRecOn with
  | nil => rfl
  | append_singleton calls call ih =>
      rw [run_concat, epoch_apply, ih, List.countP_append, List.countP_singleton, Nat.add_assoc]
      cases call.beginsEpoch with
      | true => rfl
      | false => rfl

/-! ## Inserting -/

/-- What is compiled since the current epoch is let in, and ends the staleness of its key. -/
theorem Sound.insert_now (sound : r.Sound) (record : CodeRecord) (current : r.epoch ≤ since) :
    (r.insert record since).1 = true ∧
      (r.insert record since).2.get? record.key = some record ∧
      (r.insert record since).2.isStale record.key = false := by
  have fresh : r.isOutdated record.key since = false := by
    refine Bool.eq_false_iff.2 fun outdated => ?_
    exact Bool.eq_false_iff.1 sound.fresh (isOutdated_of_le current outdated)
  have accepted : (r.insert record since).1 = true := by
    unfold CodeCache.insert
    rw [if_neg (by simp [fresh])]
  refine ⟨accepted, ?_⟩
  rw [insert_fresh fresh]
  exact ⟨by simp [get?], by simp [isStale, KeyMap.contains]⟩

theorem insert_refused (refused : (r.insert record since).1 = false) :
    r.isOutdated record.key since = true := by
  unfold CodeCache.insert at refused
  split at refused
  · assumption
  · exact nomatch refused

/-- A key is outdated only because of a call that barred it. -/
theorem Sound.barred_of_outdated (sound : r.Sound)
    (outdated : (r.run calls).isOutdated key r.epoch = true) :
    ∃ earlier call rest, calls = earlier ++ call :: rest ∧ call.Bars (r.run earlier) key := by
  rcases (isOutdated_run sound key calls).1 outdated with cleared | barred
  · obtain ⟨earlier, rest, split⟩ := List.append_of_mem cleared
    exact ⟨earlier, .clear, rest, split, trivial⟩
  · obtain ⟨earlier, call, rest, split, bars, -⟩ := barred
    exact ⟨earlier, call, rest, split, bars⟩

/-- After any calls a cache is in order, and its epoch, which never goes back, counts the calls that
began one. What is compiled since the current epoch is let in and ends the staleness of its key.
What was compiled since the epoch of some earlier point is refused only if a call after that point
invalidated the key, dropped its renderer with a name, or cleared the cache. -/
theorem calls_keep_order (before later : List Call) :
    let past := run ∅ before
    let now := run ∅ (before ++ later)
    (now.InOrder ∧ past.epoch ≤ now.epoch ∧
      now.epoch = (before ++ later).countP Call.beginsEpoch) ∧
    (∀ record : CodeRecord, (now.insert record now.epoch).1 = true ∧
      (now.insert record now.epoch).2.get? record.key = some record ∧
      (now.insert record now.epoch).2.isStale record.key = false) ∧
    ∀ record : CodeRecord, (now.insert record past.epoch).1 = false →
      ∃ earlier call rest, later = earlier ++ call :: rest ∧
        call.Bars (run ∅ (before ++ earlier)) record.key := by
  intro past now
  have split (calls : List Call) : run ∅ (before ++ calls) = past.run calls :=
    run_append ∅ before calls
  have same : now = past.run later := split later
  have order : now.InOrder := inOrder_empty.run _
  refine ⟨⟨order, ?_, ?_⟩, fun record => order.toSound.insert_now record (Nat.le_refl _), ?_⟩
  · rw [same]
    exact epoch_le_run past later
  · exact (epoch_run ∅ _).trans (Nat.zero_add _)
  · intro record refused
    have outdated := insert_refused refused
    rw [same] at outdated
    obtain ⟨earlier, call, rest, there, bars⟩ :=
      (sound_empty.run before).barred_of_outdated outdated
    exact ⟨earlier, call, rest, there, by rwa [split]⟩

end TemplateCache.CodeCache
