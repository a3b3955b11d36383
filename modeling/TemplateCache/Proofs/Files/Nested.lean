import Mathlib.Data.List.Sort
import TemplateCache.Proofs.Files.Walk

/-!
# What a walk depends on

A walk enters the directories below its root that no hidden name and no link leads to, and finds
what is in them. So in a tree where more directories have been made it finds the same, unless one of
those that it enters is new.
-/

namespace TemplateCache

namespace FileTree

variable {t u : FileTree} {place : Place} {name : String} {names : List String} {e : Entry}

/-! ## The order of entries -/

theorem append_lt_iff {above before after : List Char} :
    above ++ before < above ++ after ↔ before < after := by
  induction above with
  | nil => rfl
  | cons c rest ih =>
      rw [List.cons_append, List.cons_append, List.cons_lt_cons_iff, ih]
      simp

/-- The entries in a directory are in order, as those of the tree are. -/
theorem pairwise_children (t : FileTree) (place : Place) :
    (t.entries.entries.filterMap fun (text, entry) =>
      (childName? place text).map fun name => (name, entry)).Pairwise fun a b => a.1 < b.1 := by
  refine List.Pairwise.filterMap _ ?_ t.entries.ascending
  rintro ⟨text, e⟩ ⟨text', e'⟩ before a child b child'
  obtain ⟨name, named, rfl⟩ := Option.map_eq_some_iff.1 child
  obtain ⟨name', named', rfl⟩ := Option.map_eq_some_iff.1 child'
  obtain ⟨-, -, rfl⟩ := childName?_eq_some.1 named
  obtain ⟨-, -, rfl⟩ := childName?_eq_some.1 named'
  dsimp only at before ⊢
  rw [String.lt_iff, text_append, text_append, append_lt_iff] at before
  exact String.lt_iff.2 before

theorem children_eq (t : FileTree) (place : Place) :
    t.children place = t.entries.entries.filterMap fun (text, entry) =>
      (childName? place text).map fun name => (name, entry) := by
  unfold children
  refine List.mergeSort_of_pairwise ((pairwise_children t place).imp fun before => ?_)
  exact decide_eq_true (Std.le_of_lt before)

/-! ## Directories that are entered -/

/-- A directory lies below a place by some names, none of them hidden, and what is on the way are
real directories. -/
inductive Nests (t : FileTree) : Place → List String → Prop where
  | here {place : Place} : Nests t place []
  | inside {place : Place} {name : String} {names : List String} (proper : ProperName name)
      (visible : isHidden name = false) (directory : t.entry? (place ++ [name]) = some .directory)
      (rest : Nests t (place ++ [name]) names) : Nests t place (name :: names)

namespace Nests

theorem proper (nests : t.Nests place names) : Place.Proper names := by
  induction nests with
  | here => exact fun _ there => absurd there List.not_mem_nil
  | inside own _ _ _ ih => exact List.forall_mem_cons.2 ⟨own, ih⟩

theorem entry_take (nests : t.Nests place names) {count : Nat} (some : 0 < count)
    (within : count ≤ names.length) : t.entry? (place ++ names.take count) = .some .directory := by
  induction nests generalizing count with
  | here => exact absurd (some.trans_le within) (Nat.lt_irrefl 0)
  | @inside place name names _ _ directory rest ih =>
      obtain ⟨more, rfl⟩ := Nat.exists_eq_succ_of_ne_zero some.ne'
      rw [List.take_succ_cons, List.append_cons]
      cases more with
      | zero => simpa using directory
      | succ more => exact ih (Nat.succ_pos _) (Nat.le_of_succ_le_succ within)

/-- No directory is deeper than the tree has entries. -/
theorem length_le (nests : t.Nests place names) (proper : place.Proper) :
    names.length ≤ t.entries.size := by
  by_cases none : names = []
  · rw [none]
    exact Nat.zero_le _
  refine length_le_of_entries proper nests.proper fun {count} some => ⟨.directory, ?_⟩
  by_cases within : count ≤ names.length
  · exact nests.entry_take some within
  · have whole := nests.entry_take (List.length_pos_iff.2 none) (Nat.le_refl _)
    rwa [List.take_length, ← List.take_of_length_le (Nat.le_of_not_le within)] at whole

/-- Where directories are directories in another tree too, they lie below the same place there. -/
theorem transfer (nests : u.Nests place names)
    (kept : ∀ below, below ≠ [] → Place.Proper below →
      u.entry? (place ++ below) = some .directory → t.entry? (place ++ below) = some .directory) :
    t.Nests place names := by
  induction nests with
  | here => exact .here
  | @inside place name names own visible directory _ ih =>
      have first := kept [name] (List.cons_ne_nil _ _) (List.forall_mem_singleton.2 own) directory
      refine .inside own visible first (ih fun below _ proper there => ?_)
      rw [← List.append_cons] at there ⊢
      exact kept (name :: below) (List.cons_ne_nil _ _) (List.forall_mem_cons.2 ⟨own, proper⟩) there

theorem of_extends (nests : t.Nests place names) (h : t.Extends u) : u.Nests place names :=
  nests.transfer fun _ _ _ there => h.entry there

end Nests

end FileTree

/-! ## Walks of trees with the same directories -/

namespace Walk

open FileTree

variable {t u : FileTree} {place : Place} {path root : Path} {names : List String} {name : String}
  {depth : Nat}

/-- A walk passes hidden entries over. -/
theorem foldl_visible (find : String → Entry → Walk)
    (hidden : ∀ name e, isHidden name = true → find name e = {}) (l : List (String × Entry))
    (walk : Walk) :
    l.foldl (fun walk child => walk ++ find child.1 child.2) walk =
      (l.filter fun child => !isHidden child.1).foldl
        (fun walk child => walk ++ find child.1 child.2) walk := by
  rw [List.foldl_filter]
  congr 1
  funext walk child
  split
  · rfl
  · rename_i shown
    rw [hidden _ _ (by simpa using shown), append_empty]

/-- Entries in the order of their names are given by which there are. -/
theorem eq_of_ascending {l l' : List (String × Entry)} (sorted : l.Pairwise fun a b => a.1 < b.1)
    (sorted' : l'.Pairwise fun a b => a.1 < b.1) (same : ∀ child, child ∈ l ↔ child ∈ l') :
    l = l' := by
  have antisymm : Std.Antisymm fun a b : String × Entry => a.1 < b.1 :=
    ⟨fun _ _ below above => absurd (String.lt_trans below above) (String.lt_irrefl _)⟩
  have irrefl : Std.Irrefl fun a b : String × Entry => a.1 < b.1 := ⟨fun _ => String.lt_irrefl _⟩
  exact sorted.eq_of_mem_iff sorted' same

/-- Two visits find the same where the entries that are not hidden are the same, and the same is
found in the directories among them. -/
theorem visit_succ_congr {depth' : Nat}
    (same : ∀ name, ProperName name → isHidden name = false →
      u.entry? (place ++ [name]) = t.entry? (place ++ [name]))
    (inside : ∀ name, ProperName name → isHidden name = false →
      t.entry? (place ++ [name]) = some .directory →
        visit u depth' (place ++ [name]) (path.join ⟨name⟩) (names ++ [name]) =
          visit t depth (place ++ [name]) (path.join ⟨name⟩) (names ++ [name])) :
    visit u (depth' + 1) place path names = visit t (depth + 1) place path names := by
  have found : (u.children place).filter (fun child => !isHidden child.1) =
      (t.children place).filter fun child => !isHidden child.1 := by
    have sorted (v : FileTree) : ((v.children place).filter fun child => !isHidden child.1).Pairwise
        fun a b => a.1 < b.1 := by
      rw [children_eq]
      exact (pairwise_children v place).filter _
    refine eq_of_ascending (sorted u) (sorted t) ?_
    rintro ⟨name, e⟩
    simp only [List.mem_filter, mem_children, Bool.not_eq_true']
    refine and_congr_left fun visible => and_congr_right fun full => and_congr_right fun plain => ?_
    rw [same name (properName_of_child full plain visible) visible]
  have hidden (v : FileTree) (d : Nat) (name : String) (e : Entry) (h : isHidden name = true) :
      entryWalk v d place path names name e = {} := if_pos h
  -- The hidden entries can differ, but a walk finds nothing in them.
  rw [visit_succ, visit_succ, foldl_visible _ (hidden u depth'), foldl_visible _ (hidden t depth),
    found]
  refine List.foldl_ext _ _ _ fun walk child among => ?_
  obtain ⟨name, e⟩ := child
  rw [List.mem_filter, mem_children, Bool.not_eq_true'] at among
  obtain ⟨⟨full, plain, there⟩, visible⟩ := among
  cases e with
  | file bytes => rfl
  | link target => rfl
  | directory =>
      unfold entryWalk
      dsimp only
      rw [inside name (properName_of_child full plain visible) visible there]

/-- A walk that is deep enough finds the same in a tree with more directories, unless one of those
that it enters is new. -/
theorem visit_congr {depth' : Nat} (grown : t.Extends u)
    (deep : ∀ below, t.Nests place below → below.length < depth ∧ below.length < depth')
    (none : ∀ below, u.Nests place below → t.Nests place below) :
    visit u depth' place path names = visit t depth place path names := by
  induction depth generalizing depth' place path names with
  | zero => exact absurd (deep [] .here).1 (Nat.lt_irrefl 0)
  | succ depth ih =>
      obtain ⟨depth', rfl⟩ := Nat.exists_eq_succ_of_ne_zero
        (Nat.ne_of_gt (deep [] .here).2)
      refine visit_succ_congr (fun name proper visible => ?_) fun name proper visible there => ?_
      · rcases grown (place ++ [name]) with same | ⟨free, new⟩
        · exact same
        · cases none _ (.inside proper visible new .here) with
          | inside _ _ there _ => exact nomatch free.symm.trans there
      · refine ih (fun below nests => ?_) fun below nests => ?_
        · obtain ⟨short, short'⟩ := deep _ (.inside proper visible there nests)
          exact ⟨Nat.lt_of_succ_lt_succ short, Nat.lt_of_succ_lt_succ short'⟩
        · cases none _ (.inside proper visible (grown.entry there) nests) with
          | inside _ _ _ nests => exact nests

/-- What is found below a root does not change with new directories that are not entered. -/
theorem below_congr (grown : t.Extends u) (found : ∃ x, t.entryAt root true = .ok x)
    (none : ∀ place, t.entryAt root true = .ok (place, .directory) → ∀ names,
      u.Nests place names → t.Nests place names) : below u root = below t root := by
  obtain ⟨⟨place, e⟩, found⟩ := found
  obtain ⟨⟨place', e'⟩, unfollowed⟩ := entryAt_unfollowed found
  unfold below
  rw [unfollowed, found, (entryAt_of_thins grown.thins found).1,
    (entryAt_of_thins grown.thins unfollowed).1]
  cases e with
  | file bytes => rfl
  | link target => rfl
  | directory =>
      have proper := (entryAt_proper found).1
      refine visit_congr grown (fun below nests => ?_) (none place found)
      exact ⟨Nat.lt_succ_of_le (nests.length_le proper),
        Nat.lt_succ_of_le ((nests.of_extends grown).length_le proper)⟩

/-! ## The directories that a walk finds -/

theorem mem_directories_visit_iff {p : Path} :
    p ∈ (visit t depth place path names).directories ↔
      ∃ below, below ≠ [] ∧ t.Nests place below ∧ below.length ≤ depth ∧
        p = Path.ofNames (names ++ below) := by
  induction depth generalizing place path names with
  | zero =>
      refine ⟨fun there => absurd there List.not_mem_nil, ?_⟩
      rintro ⟨below, many, -, short, -⟩
      exact absurd (List.length_eq_zero_iff.1 (Nat.le_zero.1 short)) many
  | succ depth ih =>
      rw [visit_succ, mem_foldl directories fun _ _ => rfl]
      constructor
      · rintro (none | ⟨⟨name, e⟩, child, there⟩)
        · exact absurd none List.not_mem_nil
        obtain ⟨full, plain, entry⟩ := mem_children.1 child
        dsimp only [entryWalk] at there
        split at there
        · exact absurd there List.not_mem_nil
        rename_i visible
        replace visible : isHidden name = false := Bool.eq_false_iff.2 visible
        have proper := properName_of_child full plain visible
        cases e with
        | file bytes => exact absurd there List.not_mem_nil
        | link target => exact absurd there List.not_mem_nil
        | directory =>
            rcases List.mem_append.1 there with own | inner
            · exact ⟨[name], List.cons_ne_nil _ _, .inside proper visible entry .here,
                Nat.succ_le_succ (Nat.zero_le _), List.mem_singleton.1 own⟩
            · obtain ⟨below, -, nests, short, rfl⟩ := ih.1 inner
              refine ⟨name :: below, List.cons_ne_nil _ _, .inside proper visible entry nests,
                Nat.succ_le_succ short, ?_⟩
              rw [← List.append_cons]
      · rintro ⟨below, many, nests, short, rfl⟩
        cases nests with
        | here => exact absurd rfl many
        | @inside _ name below proper visible entry rest =>
            refine .inr ⟨(name, .directory), mem_children.2 ⟨proper.2.1, proper.1, entry⟩, ?_⟩
            dsimp only [entryWalk]
            rw [if_neg (Bool.eq_false_iff.1 visible)]
            by_cases last : below = []
            · subst last
              exact List.mem_append_left _ (List.mem_singleton_self _)
            · refine List.mem_append_right _ (ih.2 ⟨below, last, rest,
                Nat.le_of_succ_le_succ short, ?_⟩)
              rw [← List.append_cons]

/-- A walk finds the directories that it enters, by the names on the way to them. -/
theorem mem_directories_below_iff {p : Path}
    (found : t.entryAt root true = .ok (place, .directory)) :
    p ∈ (below t root).directories ↔ ∃ names, names ≠ [] ∧ t.Nests place names ∧
      p = Path.ofNames names := by
  obtain ⟨unfollowed, same⟩ := entryAt_unfollowed found
  unfold below
  rw [same, found]
  refine mem_directories_visit_iff.trans (exists_congr fun names => ?_)
  refine and_congr_right fun _ => and_congr_right fun nests => ?_
  have deep := Nat.le_succ_of_le (nests.length_le (entryAt_proper found).1)
  exact ⟨fun fine => fine.2, fun same => ⟨deep, same⟩⟩

/-! ## Evaluation -/

/-- A visit that takes entries in the order of the tree, which can be evaluated. -/
def explore (t : FileTree) : (depth : Nat) → Place → (path : Path) → (names : List String) → Walk
  | 0, _, _, _ => {}
  | depth + 1, place, path, names =>
    (t.entries.entries.filterMap fun (text, entry) =>
        (childName? place text).map fun name => (name, entry)).foldl (fun walk (name, entry) =>
      if isHidden name then walk
      else
        let here := path.join ⟨name⟩
        match entry with
        | .file _ => walk ++ { files := [here] }
        | .directory =>
          let names := names ++ [name]
          walk ++ { directories := [Path.ofNames names] } ++
            explore t depth (place ++ [name]) here names
        | .link _ => walk) {}

theorem visit_eq_explore (t : FileTree) (depth : Nat) (place : Place) (path : Path)
    (names : List String) : visit t depth place path names = explore t depth place path names := by
  induction depth generalizing place path names with
  | zero => rfl
  | succ depth ih =>
      have same : visit t depth = explore t depth := by
        funext place path names
        exact ih place path names
      rewrite [visit, explore, children_eq, same]
      rfl

theorem below_eq_explore (t : FileTree) (root : Path) : below t root =
    match t.entryAt root false with
    | .error kind => failed root kind
    | .ok _ =>
      match t.entryAt root true with
      | .error kind => failed root kind
      | .ok (place, .directory) => explore t (t.entries.size + 1) place root []
      | .ok _ => {} := by
  have same : visit t = explore t := by
    funext depth place path names
    exact visit_eq_explore t depth place path names
  rewrite [below, same]
  rfl

end Walk
end TemplateCache
