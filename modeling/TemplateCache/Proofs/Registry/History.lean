import Mathlib.Data.List.Induction
import TemplateCache.Proofs.Registry

/-!
# Histories of a registry

What is under a key depends on the registrations that were made there since the key was last absent:
the last of them gives content and origin, and the mark of overriding tells that a discovered record
stands where an explicit one stood before. A step lemma says so of one registration
(`Mirrors.merge`), and by induction on the calls it holds of every run.
-/

namespace TemplateCache

/-! ## Equal content -/

theorem Binary64.same_refl (x : Binary64) : x.same x = true := by
  simp [Binary64.same]

theorem Json.Number.same_refl (n : Json.Number) : n.same n = true := by
  cases n with
  | int value => simp [Json.Number.same]
  | real value => exact Binary64.same_refl value

namespace Json.Value

mutual

theorem same_refl : ∀ v : Value, v.same v = true
  | .null => rfl
  | .bool b => by simp [same]
  | .number n => Number.same_refl n
  | .string s => by simp [same]
  | .array items => sameItems_refl items
  | .object members => sameMembers_refl members

theorem sameItems_refl : ∀ items : List Value, sameItems items items = true
  | [] => rfl
  | item :: rest => by simp [sameItems, same_refl item, sameItems_refl rest]

theorem sameMembers_refl : ∀ members : List (String × Value), sameMembers members members = true
  | [] => rfl
  | (name, value) :: rest => by simp [sameMembers, same_refl value, sameMembers_refl rest]

end

end Json.Value

theorem Content.same_refl (content : Content) : content.same content = true := by
  cases content with
  | text s => simp [Content.same]
  | json v => exact Json.Value.same_refl v

namespace Registry

/-! ## Runs -/

/-- What changes a registry. -/
inductive Call where
  | register (given : ContentRecord)
  | registerNew (given : ContentRecord)
  | remove (name : String)
  | clear

namespace Call

def apply (r : Registry) : Call → Registry
  | register given => (r.register given).2
  | registerNew given => (r.registerNew given).2
  | remove name => (r.remove name).2
  | clear => ∅

/-- The record that a call brings. -/
def given? : Call → Option ContentRecord
  | register given => some given
  | registerNew given => some given
  | _ => none

/-- The record that a call registers under a key that has one already. -/
def renews? (key : String) : Call → Option ContentRecord
  | register given => if given.key = key then some given else none
  | _ => none

theorem given_of_renews {key : String} {given : ContentRecord} {call : Call}
    (renews : call.renews? key = some given) : call.given? = some given := by
  cases call with
  | register record =>
      simp only [renews?] at renews
      split at renews
      · exact renews
      · exact nomatch renews
  | _ => exact nomatch renews

end Call

/-- The registry that calls leave, made one after the other of an empty one. -/
def run (calls : List Call) : Registry := calls.foldl Call.apply ∅

theorem run_append_single (calls : List Call) (call : Call) :
    run (calls ++ [call]) = call.apply (run calls) := by
  unfold run
  rw [List.foldl_append]
  rfl

/-- The calls from the one with which a key that was absent has become known, through all of which
it has stayed so. -/
structure Lifetime (key : String) (calls : List Call) where
  before : List Call
  entering : Call
  since : List Call
  /-- The record with which the key has become known. -/
  first : ContentRecord
  split : calls = before ++ entering :: since
  absent : (run before).byKey.get? key = none
  enters : entering.given? = some first
  own : first.key = key
  present : ∀ n, (run (before ++ entering :: since.take n)).byKey.get? key ≠ none

namespace Lifetime

variable {key : String} {calls : List Call}

/-- The records that were registered under the key in that time. -/
def history (life : Lifetime key calls) : List ContentRecord :=
  life.first :: life.since.filterMap (Call.renews? key)

end Lifetime

/-! ## What a call does under a key -/

section

variable {r : Registry} {known given stored : ContentRecord} {key : String}
  {history : List ContentRecord}

/-- What becomes of a record and of one that is given under its key. -/
inductive Merged (known given : ContentRecord) : ContentRecord × RegistryChange → Prop where
  | overrides (explicit : known.origin = .explicit) (discovered : given.origin = .discovered) :
      Merged known given ({ given with overridden := true }, .overrode)
  | restores (discovered : known.origin = .discovered) (explicit : given.origin = .explicit) :
      Merged known given (given, .replaced)
  | repeats (alike : known.origin = given.origin)
      (content : known.content.same given.content = true)
      (kept : known.overridden = (known.overridden && known.origin == .discovered)) :
      Merged known given (known, .unchanged)
  | replaces (alike : known.origin = given.origin)
      (different : ¬(known.content.same given.content = true ∧
        known.overridden = (known.overridden && known.origin == .discovered))) :
      Merged known given
        ({ given with overridden := known.overridden && known.origin == .discovered }, .replaced)

theorem merge_spec (known given : ContentRecord) : Merged known given (merge known given) := by
  unfold merge
  split
  · exact .overrides ‹_› ‹_›
  · exact .restores ‹_› ‹_›
  · rename_i unlike unlike'
    have alike : known.origin = given.origin := by
      cases before : known.origin with
      | explicit =>
          cases now : given.origin with
          | explicit => rfl
          | discovered => exact (unlike before now).elim
      | discovered =>
          cases now : given.origin with
          | explicit => exact (unlike' before now).elim
          | discovered => rfl
    dsimp only
    split
    · rename_i same
      rw [Bool.and_eq_true, beq_iff_eq] at same
      exact .repeats alike same.1 same.2
    · rename_i different
      rw [Bool.and_eq_true, beq_iff_eq] at different
      exact .replaces alike different

theorem register_known (there : r.byKey.get? given.key = some known) :
    (r.register given).1 = merge known given := by
  unfold register
  rw [there]
  dsimp only
  split
  · exact Eq.symm ‹_›
  · exact Eq.symm ‹_›

/-- A registration returns a record with the content that was given. -/
theorem register_content (r : Registry) (given : ContentRecord) :
    (r.register given).1.1.content.same given.content = true := by
  cases before : r.byKey.get? given.key with
  | none =>
      unfold register
      rw [before]
      exact Content.same_refl _
  | some known =>
      rw [register_known before]
      rcases merged : merge known given with ⟨record, change⟩
      have outcome := merge_spec known given
      rw [merged] at outcome
      cases outcome with
      | repeats alike content kept => exact content
      | _ => exact Content.same_refl _

/-- A registration leaves the records under other keys. -/
theorem byKey_register_of_ne (other : key ≠ given.key) :
    (r.register given).2.byKey.get? key = r.byKey.get? key := by
  cases changed : (r.register given).1.2.changed with
  | false => rw [register_unchanged changed]
  | true =>
      obtain ⟨overridden, -, registry⟩ := register_changed changed
      rw [registry]
      exact (KeyMap.get?_insert _ _ _ _).trans (if_neg other)

/-- Under a key that is absent, a call leaves a record only by bringing it. -/
theorem Call.enters {call : Call} (absent : r.byKey.get? key = none)
    (there : (call.apply r).byKey.get? key = some stored) :
    call.given? = some stored ∧ stored.key = key := by
  have entered {given : ContentRecord} (there : (r.insert given).byKey.get? key = some stored) :
      given = stored ∧ stored.key = key := by
    replace there := (KeyMap.get?_insert _ _ _ _).symm.trans there
    split at there
    · rename_i own
      cases there
      exact ⟨rfl, own.symm⟩
    · exact nomatch absent.symm.trans there
  cases call with
  | register given =>
      have own : key = given.key := by
        by_contra other
        exact nomatch (absent.symm.trans (byKey_register_of_ne other).symm).trans there
      subst own
      simp only [Call.apply, Registry.register, absent] at there
      obtain ⟨rfl, own⟩ := entered there
      exact ⟨rfl, own⟩
  | registerNew given =>
      simp only [Call.apply, Registry.registerNew] at there
      split at there
      · exact nomatch absent.symm.trans there
      · obtain ⟨rfl, own⟩ := entered there
        exact ⟨rfl, own⟩
  | remove name =>
      simp only [Call.apply, Registry.remove, KeyMap.get?_filter, absent] at there
      exact nomatch there
  | clear => exact nomatch there

/-- Under a key that has a record, a call that leaves one leaves it alone or registers anew. -/
theorem Call.renews {call : Call} (before : r.byKey.get? key = some known)
    (there : (call.apply r).byKey.get? key = some stored) :
    stored = (call.renews? key).elim known fun given => (merge known given).1 := by
  have kept (there : r.byKey.get? key = some stored) : stored = known :=
    Option.some.inj (there.symm.trans before)
  cases call with
  | register given =>
      by_cases own : given.key = key
      · subst own
        have merged : (r.register given).2.byKey.get? given.key = some (r.register given).1.1 :=
          register_stored
        rw [register_known before] at merged
        rw [Call.renews?, if_pos rfl]
        exact Option.some.inj (there.symm.trans merged)
      · rw [Call.renews?, if_neg own]
        exact kept ((byKey_register_of_ne (Ne.symm own)).symm.trans there)
  | registerNew given =>
      refine kept ?_
      simp only [Call.apply, Registry.registerNew] at there
      split at there
      · exact there
      · rename_i unknown
        replace there := (KeyMap.get?_insert _ _ _ _).symm.trans there
        split at there
        · rename_i own
          simp [KeyMap.contains, ← own, before] at unknown
        · exact there
  | remove name =>
      refine kept ?_
      simp only [Call.apply, Registry.remove, KeyMap.get?_filter,
        Option.filter_eq_some_iff] at there
      exact there.1
  | clear => exact nomatch there

/-! ## Content, origin and mark -/

/-- What a record shows of the registrations that led to it. -/
structure Mirrors (stored : ContentRecord) (earlier : List ContentRecord) (last : ContentRecord) :
    Prop where
  content : stored.content.same last.content = true
  origin : stored.origin = last.origin
  overridden : stored.overridden = true ↔
    stored.origin = .discovered ∧ ∃ record ∈ earlier, record.origin = .explicit

/-- A first registration. -/
theorem Mirrors.single (fresh : given.overridden = false) : Mirrors given [] given where
  content := given.content.same_refl
  origin := rfl
  overridden := by simp [fresh]

/-- One more registration under a key that has a record. -/
theorem Mirrors.merge {earlier : List ContentRecord} {last : ContentRecord}
    (mirrors : Mirrors known earlier last) (fresh : given.overridden = false) :
    Mirrors (merge known given).1 (earlier ++ [last]) given := by
  obtain ⟨-, origin, overridden⟩ := mirrors
  -- Where both records have one origin, the mark stays if they are discovered ones.
  have marked (alike : known.origin = given.origin) :
      (known.overridden && known.origin == .discovered) = true ↔
        given.origin = .discovered ∧ ∃ record ∈ earlier ++ [last], record.origin = .explicit := by
    rw [Bool.and_eq_true, beq_iff_eq, overridden, ← alike]
    constructor
    · rintro ⟨⟨-, record, there, explicit⟩, discovered⟩
      exact ⟨discovered, record, List.mem_append_left _ there, explicit⟩
    · rintro ⟨discovered, record, there, explicit⟩
      refine ⟨⟨discovered, record, ?_, explicit⟩, discovered⟩
      rcases List.mem_append.1 there with before | same
      · exact before
      · rw [List.mem_singleton.1 same, ← origin, discovered] at explicit
        exact nomatch explicit
  rcases merged : Registry.merge known given with ⟨record, change⟩
  have outcome := merge_spec known given
  rw [merged] at outcome
  cases outcome with
  | overrides explicit discovered =>
      refine ⟨Content.same_refl _, rfl, ?_⟩
      constructor
      · intro _
        exact ⟨discovered, last, by simp, origin.symm.trans explicit⟩
      · intro _
        rfl
  | restores discovered explicit =>
      refine ⟨Content.same_refl _, rfl, ?_⟩
      simp [fresh, explicit]
  | repeats alike content kept =>
      refine ⟨content, alike, ?_⟩
      rw [kept, marked alike, alike]
  | replaces alike different => exact ⟨Content.same_refl _, rfl, marked alike⟩

end

/-! ## Runs -/

section

variable {calls : List Call} {call : Call} {key : String} {stored : ContentRecord}

/-- A call that leaves a record where none was begins a lifetime. -/
def Lifetime.begin (absent : (run calls).byKey.get? key = none)
    (there : (run (calls ++ [call])).byKey.get? key = some stored) :
    Lifetime key (calls ++ [call]) where
  before := calls
  entering := call
  since := []
  first := stored
  split := rfl
  absent := absent
  enters := (Call.enters absent (by rwa [run_append_single] at there)).1
  own := (Call.enters absent (by rwa [run_append_single] at there)).2
  present n := by
    rw [List.take_nil, there]
    exact Option.some_ne_none stored

/-- A call that leaves a record where one was goes on with its lifetime. -/
def Lifetime.extend (life : Lifetime key calls)
    (there : (run (calls ++ [call])).byKey.get? key = some stored) :
    Lifetime key (calls ++ [call]) where
  before := life.before
  entering := life.entering
  since := life.since ++ [call]
  first := life.first
  split := (congrArg (· ++ [call]) life.split).trans (List.append_assoc _ _ _)
  absent := life.absent
  enters := life.enters
  own := life.own
  present n := by
    by_cases inside : n ≤ life.since.length
    · rw [List.take_append_of_le_length inside]
      exact life.present n
    · have whole : (life.since ++ [call]).take n = life.since ++ [call] := by
        apply List.take_of_length_le
        simp only [List.length_append, List.length_singleton]
        omega
      have all : life.before ++ life.entering :: (life.since ++ [call]) = calls ++ [call] :=
        (List.append_assoc _ _ _).symm.trans (congrArg (· ++ [call]) life.split.symm)
      rw [whole, all, there]
      exact Option.some_ne_none stored

theorem Lifetime.history_extend (life : Lifetime key calls)
    (there : (run (calls ++ [call])).byKey.get? key = some stored) :
    (life.extend there).history = life.history ++ (call.renews? key).toList := by
  unfold history
  show life.first :: (life.since ++ [call]).filterMap (Call.renews? key) = _
  rw [List.filterMap_append, List.cons_append]
  cases renewed : call.renews? key with
  | none => simp [renewed]
  | some given => simp [renewed]

/-- Every record in a registry mirrors the registrations of its key since the key was last
absent. -/
theorem exists_lifetime
    (fresh : ∀ call ∈ calls, ∀ given, call.given? = some given → given.overridden = false)
    (there : (run calls).byKey.get? key = some stored) :
    ∃ (life : Lifetime key calls) (earlier : List ContentRecord) (last : ContentRecord),
      life.history = earlier ++ [last] ∧ Mirrors stored earlier last := by
  induction calls using List.reverseRecOn generalizing stored with
  | nil => exact nomatch there
  | append_singleton calls call ih =>
      have freshBefore : ∀ call ∈ calls, ∀ given, call.given? = some given →
          given.overridden = false :=
        fun call listed => fresh call (List.mem_append_left _ listed)
      have freshNow : ∀ given, call.given? = some given → given.overridden = false :=
        fresh call (List.mem_append_right _ (List.mem_singleton_self _))
      have left := there
      rw [run_append_single] at left
      cases before : (run calls).byKey.get? key with
      | none =>
          have brought := (Call.enters before left).1
          exact ⟨.begin before there, [], stored, rfl, .single (freshNow stored brought)⟩
      | some known =>
          obtain ⟨life, earlier, last, history, mirrors⟩ := ih freshBefore before
          have longer := life.history_extend there
          replace left := Call.renews before left
          cases renewed : call.renews? key with
          | none =>
              rw [renewed] at left longer
              subst left
              refine ⟨life.extend there, earlier, last, ?_, mirrors⟩
              rw [longer, history]
              exact List.append_nil _
          | some given =>
              rw [renewed] at left longer
              subst left
              refine ⟨life.extend there, earlier ++ [last], given, ?_, ?_⟩
              · rw [longer, history]
                rfl
              · exact mirrors.merge (freshNow given (Call.given_of_renews renewed))

/-- A registration says that nothing changed exactly when it leaves content, origin and mark of the
record under its key. -/
theorem unchanged_iff {r : Registry} {given : ContentRecord} :
    (r.register given).1.2.changed = false ↔ ∃ known stored, r.byKey.get? given.key = some known ∧
      (r.register given).2.byKey.get? given.key = some stored ∧
      known.content.same stored.content = true ∧ stored.origin = known.origin ∧
      stored.overridden = known.overridden := by
  constructor
  · intro same
    cases before : r.byKey.get? given.key with
    | none =>
        unfold Registry.register at same
        rw [before] at same
        exact nomatch same
    | some known =>
        refine ⟨known, known, rfl, ?_, Content.same_refl _, rfl, rfl⟩
        rw [register_unchanged same, before]
  · rintro ⟨known, stored, before, there, content, origin, overridden⟩
    rw [register_stored, register_known before, Option.some.injEq] at there
    rw [register_known before]
    rcases merged : merge known given with ⟨record, change⟩
    have outcome := merge_spec known given
    rw [merged] at outcome there
    subst there
    cases outcome with
    | overrides explicit discovered => exact nomatch (discovered.symm.trans origin).trans explicit
    | restores discovered explicit => exact nomatch (explicit.symm.trans origin).trans discovered
    | repeats => rfl
    | replaces alike different => exact absurd ⟨content, overridden.symm⟩ different

/-- Let records be registered, also only where none is, and be removed. Each that is there in the
end has content and origin of the last registration since its key was last absent, and is marked
exactly if it is a discovered one and one of the registrations before it was explicit. One more
registration says that nothing changed exactly when it leaves all this as it was. -/
theorem records_follow_registrations
    (fresh : ∀ call ∈ calls, ∀ given, call.given? = some given → given.overridden = false) :
    (∀ {key stored}, (run calls).byKey.get? key = some stored →
      ∃ (life : Lifetime key calls) (earlier : List ContentRecord) (last : ContentRecord),
        life.history = earlier ++ [last] ∧ stored.content.same last.content = true ∧
        stored.origin = last.origin ∧ (stored.overridden = true ↔
          stored.origin = .discovered ∧ ∃ record ∈ earlier, record.origin = .explicit)) ∧
    ∀ given : ContentRecord, ((run calls).register given).1.2.changed = false ↔
      ∃ known stored, (run calls).byKey.get? given.key = some known ∧
        ((run calls).register given).2.byKey.get? given.key = some stored ∧
        known.content.same stored.content = true ∧ stored.origin = known.origin ∧
        stored.overridden = known.overridden := by
  constructor
  · intro key stored there
    obtain ⟨life, earlier, last, history, mirrors⟩ := exists_lifetime fresh there
    exact ⟨life, earlier, last, history, mirrors.content, mirrors.origin, mirrors.overridden⟩
  · intro given
    exact unchanged_iff

end

end Registry

namespace Sample

/-- A record of the name `a`. -/
def draft (text : String) (origin : Origin) : ContentRecord :=
  .make "a" "partials/a.html" (.text text) origin none none

/-- A record that was registered is removed, registered again, discovered, and found once more. -/
def discoveries : List Registry.Call :=
  [.register (draft "old" .discovered), .remove "a", .register (draft "A" .explicit),
    .register (draft "B" .discovered), .registerNew (draft "C" .explicit),
    .register (draft "D" .discovered)]

end Sample

open Sample

theorem discovered_again_is_marked :
    ∃ stored, (Registry.run discoveries).byKey.get? "partials/a.html" = some stored ∧
      stored.content.asText = "D" ∧ stored.overridden = true ∧
      ∃ (life : Registry.Lifetime "partials/a.html" discoveries) (earlier : List ContentRecord)
        (last : ContentRecord), life.history = earlier ++ [last] ∧
        stored.content.same last.content = true ∧
        ∃ record ∈ earlier, record.origin = .explicit := by
  have fresh : ∀ call ∈ discoveries, ∀ given, call.given? = some given →
      given.overridden = false := by
    intro call listed given brings
    simp only [discoveries, List.mem_cons, List.not_mem_nil, or_false] at listed
    rcases listed with rfl | rfl | rfl | rfl | rfl | rfl
    all_goals cases brings
    all_goals rfl
  have there : (Registry.run discoveries).byKey.get? "partials/a.html" =
      some { draft "D" .discovered with overridden := true } := by rfl
  obtain ⟨life, earlier, last, history, content, -, marked⟩ :=
    (Registry.records_follow_registrations fresh).1 there
  exact ⟨_, there, rfl, rfl, life, earlier, last, history, content, (marked.1 rfl).2⟩

end TemplateCache
