import Mathlib.Data.List.Induction
import TemplateCache.Proofs.KeyMap
import TemplateCache.Proofs.Naming.CodeKey
import TemplateCache.Proofs.Text.Form

/-!
# Parameters in keys

The query of a key is a form, so the parameters can be read from it. Parameters of one canonical
form are one map, in whatever order and how often their pairs were given, and names that are looked
up with different parameters have different keys.
-/

namespace TemplateCache

namespace KeyMap

variable {α : Type} {m n : KeyMap α}

/-- Of pairs with one key the last one counts. -/
theorem get?_ofPairs (pairs : List (String × α)) (k : String) :
    (ofPairs pairs).get? k = pairs.reverse.lookup k := by
  induction pairs using List.reverseRecOn with
  | nil => rfl
  | append_singleton pairs pair ih =>
      have last : ofPairs (pairs ++ [pair]) = (ofPairs pairs).insert pair.1 pair.2 :=
        List.foldl_concat ..
      rw [last, get?_insert, List.reverse_concat, ih]
      split
      · rename_i same
        rw [same, List.lookup_cons_self]
      · rename_i other
        exact (lookup_cons_of_ne pair.2 _ other).symm

/-- Maps that answer every key alike are the same. -/
theorem ext_get? (same : ∀ k, m.get? k = n.get? k) : m = n := by
  have distinct (m : KeyMap α) : m.entries.Nodup := by
    refine m.ascending.imp fun {a b} below => ?_
    rintro rfl
    exact String.lt_irrefl _ below
  have perm : m.entries.Perm n.entries := by
    refine (List.perm_ext_iff_of_nodup (distinct m) (distinct n)).2 fun (k, value) => ?_
    rw [mem_entries, mem_entries, same]
  have entries : m.entries = n.entries :=
    perm.eq_of_pairwise (fun a b _ _ below above => absurd (String.lt_trans below above)
      (String.lt_irrefl _)) m.ascending n.ascending
  cases m
  cases n
  cases entries
  rfl

end KeyMap

namespace Params

variable {p q : Params}

/-- Parameters can be read from their canonical form. -/
theorem readForm_canonical (p : Params) : Text.readForm p.canonical.toList = p.entries := by
  rw [canonical, String.toList_ofList, Text.readForm_formPairs]

theorem canonical_eq_iff : p.canonical = q.canonical ↔ ∀ k, p.get? k = q.get? k := by
  constructor
  · intro same k
    have entries : p.entries = q.entries := by
      rw [← readForm_canonical, same, readForm_canonical]
    unfold KeyMap.get?
    rw [entries]
  · intro same
    rw [KeyMap.ext_get? same]

end Params

namespace Resolver

variable {p q : Option Params}

/-- The query of given parameters is that of a map; none are an empty one. -/
theorem query_getD (p : Option Params) : query p = query (some (p.getD ∅)) := by
  cases p <;> rfl

theorem query_eq_iff : query p = query q ↔ ∀ k, (p.getD ∅).get? k = (q.getD ∅).get? k := by
  rw [query_getD p, query_getD q]
  generalize p.getD ∅ = m
  generalize q.getD ∅ = n
  constructor
  · intro same
    have marked (text : String) : "?" ++ text ≠ "" := by
      intro empty
      have chars := congrArg String.toList empty
      rw [String.toList_append] at chars
      cases chars
    unfold query at same
    dsimp only at same
    -- The mark tells whether there are any parameters at all.
    split at same <;> split at same <;> rename_i first second
    · have none {m : Params} (empty : m.isEmpty = true) (k : String) : m.get? k = none := by
        unfold KeyMap.get?
        rw [List.isEmpty_iff.1 empty]
        rfl
      intro k
      rw [none first, none second]
    · exact absurd same.symm (marked _)
    · exact absurd same (marked _)
    · exact Params.canonical_eq_iff.1 (String.append_right_inj "?" |>.1 same)
  · intro same
    rw [KeyMap.ext_get? same]

end Resolver

/-- The canonical form of parameters tells their maps apart. So names that are looked up with
parameters have one key exactly if the parameters are one map, where none are an empty one. -/
theorem Resolver.parameters_tell_keys_apart :
    (∀ pairs pairs' : List (String × String),
      Params.canonical (.ofPairs pairs) = Params.canonical (.ofPairs pairs') ↔
        ∀ name, pairs.reverse.lookup name = pairs'.reverse.lookup name) ∧
    ∀ (r : Resolver) (name : String) (space : KeySpace) (extension : Option String)
      (p q : Option Params) (key : String), r.resolve name space extension p = .ok key →
        ∃ key', r.resolve name space extension q = .ok key' ∧
          (key = key' ↔ ∀ k, (p.getD ∅).get? k = (q.getD ∅).get? k) := by
  constructor
  · intro pairs pairs'
    rw [Params.canonical_eq_iff]
    simp only [KeyMap.get?_ofPairs]
  · intro r name space extension p q key named
    have real : ¬Text.isBlankOnly name = true := Bool.eq_false_iff.1 (not_blank named)
    unfold resolve assemble at named ⊢
    rw [if_neg real] at named ⊢
    cases named
    exact ⟨_, rfl, (String.append_right_inj _).trans query_eq_iff⟩

namespace Sample

/-- One parameter, whose value has separators in it. -/
def separators : Params := .ofPairs [("a", "1&b=2")]

end Sample

open Sample in
/-- A value with separators in it is no other parameter. -/
theorem separators_are_told_apart :
    ruled.resolve "nav/menu" .content none (some separators) =
      .ok "partials/nav/menu.html?a=1%26b%3D2" ∧
    ∃ key, ruled.resolve "nav/menu" .content none (some (.ofPairs [("b", "2"), ("a", "1")])) =
        .ok key ∧ "partials/nav/menu.html?a=1%26b%3D2" ≠ key := by
  have named : ruled.resolve "nav/menu" .content none (some separators) =
      .ok "partials/nav/menu.html?a=1%26b%3D2" := by decide +kernel
  obtain ⟨key, other, same_iff⟩ := Resolver.parameters_tell_keys_apart.2 ruled "nav/menu" .content
    none (some separators) (some (.ofPairs [("b", "2"), ("a", "1")])) _ named
  refine ⟨named, key, other, fun same => ?_⟩
  have alike := same_iff.1 same "b"
  revert alike
  decide +kernel

end TemplateCache
