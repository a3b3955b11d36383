import TemplateCache.Files.Walk
import TemplateCache.Proofs.Files.Location

/-!
# What a walk finds

A walk finds every regular file below its root that has no hidden name on its way, under the path
of its names, and every directory on the way to one. The depth of a walk never cuts it short.
-/

namespace TemplateCache

namespace FileTree

variable {t : FileTree} {place : Place} {name : String} {e : Entry}

/-! ## Listing directories -/

theorem text_append (place : Place) (name : String) :
    (Place.text (place ++ [name])).toList =
      ((if place.isEmpty then "" else place.text) ++ "/").toList ++ name.toList := by
  cases place with
  | nil =>
      show ("/" ++ "/".intercalate [name]).toList = ("" ++ "/").toList ++ name.toList
      rw [String.intercalate_singleton, String.toList_append]
      rfl
  | cons first more =>
      show ("/" ++ "/".intercalate (first :: more ++ [name])).toList = _
      rw [String.toList_append, Path.toList_intercalate_concat (List.cons_ne_nil _ _)]
      simp [Place.text]

theorem childName?_eq_some {text : String} :
    childName? place text = some name ↔
      name.toList ≠ [] ∧ '/' ∉ name.toList ∧ text = Place.text (place ++ [name]) := by
  rw [← String.toList_inj, text_append]
  unfold childName?
  dsimp only
  generalize ((if place.isEmpty then "" else place.text) ++ "/").toList = above
  cases below : above.isPrefixOf? text.toList with
  | none =>
      refine ⟨nofun, ?_⟩
      rintro ⟨-, -, whole⟩
      rw [List.isPrefixOf?_eq_some_iff_append_eq.2 whole.symm] at below
      cases below
  | some rest =>
      rw [← List.append_eq_of_isPrefixOf?_eq_some below, List.append_cancel_left_eq]
      dsimp only
      constructor
      · intro child
        split at child
        · cases child
        · rename_i fine
          simp only [Bool.or_eq_true, List.isEmpty_iff, List.contains_iff_mem, not_or] at fine
          cases child
          rw [String.toList_ofList]
          exact ⟨fine.1, fine.2, rfl⟩
      · rintro ⟨full, plain, rfl⟩
        rw [if_neg, String.ofList_toList]
        simp [full, plain]

/-- The children of a directory are what is directly below it. -/
theorem mem_children :
    (name, e) ∈ t.children place ↔
      name.toList ≠ [] ∧ '/' ∉ name.toList ∧ t.entry? (place ++ [name]) = some e := by
  have entry : t.entry? (place ++ [name]) = t.entries.get? (Place.text (place ++ [name])) := by
    cases place <;> rfl
  unfold children
  rw [List.mem_mergeSort, List.mem_filterMap, entry]
  constructor
  · rintro ⟨⟨text, e'⟩, there, child⟩
    obtain ⟨name', named, same⟩ := Option.map_eq_some_iff.1 child
    cases same
    obtain ⟨full, plain, rfl⟩ := childName?_eq_some.1 named
    exact ⟨full, plain, KeyMap.mem_entries.1 there⟩
  · rintro ⟨full, plain, there⟩
    refine ⟨(_, e), KeyMap.mem_entries.2 there, Option.map_eq_some_iff.2 ⟨name, ?_, rfl⟩⟩
    exact childName?_eq_some.2 ⟨full, plain, rfl⟩

theorem properName_of_child (full : name.toList ≠ []) (plain : '/' ∉ name.toList)
    (visible : isHidden name = false) : ProperName name := by
  refine ⟨plain, full, ?_, ?_⟩
  · intro dot
    simp [isHidden, dot] at visible
  · intro dots
    simp [isHidden, dots] at visible

end FileTree

/-! ## Walks -/

namespace Walk

open FileTree

variable {t : FileTree} {place : Place} {path base root : Path} {names names' : List String}
  {name : String}

/-- A walk does not pass these names over. -/
def Visible (names : List String) : Prop := ∀ name ∈ names, isHidden name = false

/-- What a walk finds at one entry of a directory. -/
def entryWalk (t : FileTree) (depth : Nat) (place : Place) (path : Path) (names : List String)
    (name : String) (entry : Entry) : Walk :=
  if isHidden name then {}
  else
    match entry with
    | .file _ => { files := [path.join ⟨name⟩] }
    | .directory =>
      ({ directories := [Path.ofNames (names ++ [name])] } : Walk) ++
        visit t depth (place ++ [name]) (path.join ⟨name⟩) (names ++ [name])
    | .link _ => {}

theorem append_eq (a b : Walk) : a ++ b =
    ⟨a.directories ++ b.directories, a.files ++ b.files, a.failures ++ b.failures⟩ := rfl

theorem append_empty (a : Walk) : a ++ ({} : Walk) = a := by simp [append_eq]

theorem append_assoc (a b c : Walk) : a ++ b ++ c = a ++ (b ++ c) := by simp [append_eq]

/-- A walk finds in a directory what it finds at each of its entries. -/
theorem visit_succ (t : FileTree) (depth : Nat) (place : Place) (path : Path)
    (names : List String) :
    visit t (depth + 1) place path names =
      (t.children place).foldl (fun walk child => walk ++
        entryWalk t depth place path names child.1 child.2) {} := by
  rw [visit]
  congr 1
  funext walk child
  obtain ⟨name, entry⟩ := child
  unfold entryWalk
  dsimp only
  split
  · exact (append_empty walk).symm
  · cases entry with
    | file bytes => rfl
    | directory => exact append_assoc _ _ _
    | link target => exact (append_empty walk).symm

/-- What is found at several entries is found at one of them. -/
theorem mem_foldl {α β : Type} (part : Walk → List β)
    (append : ∀ a b, part (a ++ b) = part a ++ part b) (find : α → Walk) (l : List α)
    (walk : Walk) {x : β} :
    x ∈ part (l.foldl (fun walk a => walk ++ find a) walk) ↔
      x ∈ part walk ∨ ∃ a ∈ l, x ∈ part (find a) := by
  induction l generalizing walk with
  | nil => simp
  | cons a rest ih =>
      rw [List.foldl_cons, ih, append]
      simp [or_assoc]

/-- The files that a walk finds are in the directory, or it finds them in a directory there. -/
theorem mem_files_succ {depth : Nat} {p : Path} :
    p ∈ (visit t (depth + 1) place path names).files ↔
      ∃ name, ProperName name ∧ isHidden name = false ∧
        ((∃ bytes, t.entry? (place ++ [name]) = some (.file bytes)) ∧ p = path.join ⟨name⟩ ∨
          t.entry? (place ++ [name]) = some .directory ∧
            p ∈ (visit t depth (place ++ [name]) (path.join ⟨name⟩) (names ++ [name])).files) := by
  rw [visit_succ, mem_foldl files fun _ _ => rfl]
  constructor
  · rintro (none | ⟨⟨name, e⟩, child, there⟩)
    · exact absurd none List.not_mem_nil
    obtain ⟨full, plain, entry⟩ := mem_children.1 child
    dsimp only [entryWalk] at there
    split at there
    · exact absurd there List.not_mem_nil
    rename_i visible
    replace visible : isHidden name = false := Bool.eq_false_iff.2 visible
    refine ⟨name, properName_of_child full plain visible, visible, ?_⟩
    cases e with
    | file bytes => exact .inl ⟨⟨bytes, entry⟩, List.mem_singleton.1 there⟩
    | directory => exact .inr ⟨entry, there⟩
    | link target => exact absurd there List.not_mem_nil
  · rintro ⟨name, proper, visible, ⟨⟨bytes, entry⟩, rfl⟩ | ⟨entry, there⟩⟩
    · refine .inr ⟨(name, .file bytes), mem_children.2 ⟨proper.2.1, proper.1, entry⟩, ?_⟩
      dsimp only [entryWalk]
      rw [if_neg (Bool.eq_false_iff.1 visible)]
      exact List.mem_singleton_self _
    · refine .inr ⟨(name, .directory), mem_children.2 ⟨proper.2.1, proper.1, entry⟩, ?_⟩
      dsimp only [entryWalk]
      rw [if_neg (Bool.eq_false_iff.1 visible)]
      exact there

/-- A walk finds the files that it comes to, as far as it goes down. -/
theorem mem_files_visit {depth : Nat} {p : Path} (full : path.text ≠ "") :
    p ∈ (visit t depth place path names).files ↔
      ∃ below, t.HasFile place below ∧ Visible below ∧ below.length ≤ depth ∧
        p = path.join (Path.ofNames below) := by
  induction depth generalizing place path names with
  | zero =>
      refine ⟨fun there => absurd there List.not_mem_nil, ?_⟩
      rintro ⟨below, file, -, short, -⟩
      exact absurd (List.length_eq_zero_iff.1 (Nat.le_zero.1 short)) file.ne_nil
  | succ depth ih =>
      rw [mem_files_succ]
      constructor
      · rintro ⟨name, proper, visible, ⟨⟨bytes, entry⟩, rfl⟩ | ⟨entry, there⟩⟩
        · refine ⟨[name], .file proper entry, List.forall_mem_singleton.2 visible,
            Nat.succ_le_succ (Nat.zero_le _), ?_⟩
          rw [Path.ofNames_single]
        · obtain ⟨below, file, others, short, rfl⟩ := (ih (Path.join_name_ne full proper)).1 there
          have inside : t.HasFile place (name :: below) := .inside proper entry file
          exact ⟨_, inside, List.forall_mem_cons.2 ⟨visible, others⟩, Nat.succ_le_succ short,
            Path.join_cons full inside.proper file.ne_nil⟩
      · rintro ⟨below, file, visible, short, rfl⟩
        cases file with
        | @file _ name bytes proper entry =>
            refine ⟨name, proper, visible name List.mem_cons_self, .inl ⟨⟨bytes, entry⟩, ?_⟩⟩
            rw [Path.ofNames_single]
        | @inside _ name names proper entry rest =>
            obtain ⟨shown, others⟩ := List.forall_mem_cons.1 visible
            have whole : t.HasFile place (name :: names) := .inside proper entry rest
            refine ⟨name, proper, shown, .inr ⟨entry, ?_⟩⟩
            exact (ih (Path.join_name_ne full proper)).2 ⟨names, rest, others,
              Nat.le_of_succ_le_succ short, (Path.join_cons full whole.proper rest.ne_nil).symm⟩

/-- A walk finds the directories in a directory, and what it finds in them. -/
theorem mem_directories_succ {depth : Nat} {p : Path} (proper : ProperName name)
    (visible : isHidden name = false) (entry : t.entry? (place ++ [name]) = some .directory)
    (there : p = Path.ofNames (names ++ [name]) ∨
      p ∈ (visit t depth (place ++ [name]) (path.join ⟨name⟩) (names ++ [name])).directories) :
    p ∈ (visit t (depth + 1) place path names).directories := by
  rw [visit_succ, mem_foldl directories fun _ _ => rfl]
  refine .inr ⟨(name, .directory), mem_children.2 ⟨proper.2.1, proper.1, entry⟩, ?_⟩
  dsimp only [entryWalk]
  rw [if_neg (Bool.eq_false_iff.1 visible)]
  exact List.mem_append.2 (there.imp_left fun own => List.mem_singleton.2 own)

/-- It finds the directories in which files lie. -/
theorem mem_directories_visit {depth : Nat} {above : List String} (many : above ≠ [])
    (file : t.HasFile place (above ++ [name])) (visible : Visible (above ++ [name]))
    (short : (above ++ [name]).length ≤ depth) :
    Path.ofNames (names ++ above) ∈ (visit t depth place path names).directories := by
  induction depth generalizing place path names above with
  | zero => simp at short
  | succ depth ih =>
      obtain ⟨first, rest, rfl⟩ := List.exists_cons_of_ne_nil many
      rw [List.cons_append] at file visible short
      obtain ⟨shown, others⟩ := List.forall_mem_cons.1 visible
      generalize whole : rest ++ [name] = below at file others short
      cases file with
      | file proper entry => simp at whole
      | inside proper entry inner =>
          subst whole
          refine mem_directories_succ proper shown entry ?_
          by_cases last : rest = []
          · subst last
            exact .inl rfl
          · rw [List.append_cons names first rest]
            exact .inr (ih last inner others (Nat.le_of_succ_le_succ short))

theorem mem_files_below {p : Path} :
    p ∈ (below t root).files ↔ ∃ place names, t.entryAt root true = .ok (place, .directory) ∧
      t.HasFile place names ∧ Visible names ∧ p = root.join (Path.ofNames names) := by
  unfold below
  constructor
  · intro there
    split at there
    · exact absurd there List.not_mem_nil
    · split at there
      · exact absurd there List.not_mem_nil
      · rename_i place found
        obtain ⟨names, file, visible, -, rfl⟩ := (mem_files_visit (text_ne found)).1 there
        exact ⟨place, names, found, file, visible, rfl⟩
      · exact absurd there List.not_mem_nil
  · rintro ⟨place, names, found, file, visible, rfl⟩
    obtain ⟨unfollowed, same⟩ := entryAt_unfollowed found
    rw [same, found]
    refine (mem_files_visit (text_ne found)).2 ⟨names, file, visible, ?_, rfl⟩
    exact Nat.le_succ_of_le (file.length_le (entryAt_proper found).1)

/-- A walk without failures has found its root. -/
theorem root_of_failures (walks : (below t root).failures = []) :
    ∃ x, t.entryAt root true = .ok x := by
  unfold below at walks
  split at walks
  · cases walks
  · cases found : t.entryAt root true with
    | error kind =>
        rw [found] at walks
        cases walks
    | ok x => exact ⟨x, rfl⟩

theorem mem_directories_below {above : List String} (many : above ≠ [])
    (found : t.entryAt root true = .ok (place, .directory))
    (file : t.HasFile place (above ++ [name])) (visible : Visible (above ++ [name])) :
    Path.ofNames above ∈ (below t root).directories := by
  obtain ⟨unfollowed, same⟩ := entryAt_unfollowed found
  unfold below
  rw [same, found]
  show Path.ofNames ([] ++ above) ∈ _
  exact mem_directories_visit many file visible
    (Nat.le_succ_of_le (file.length_le (entryAt_proper found).1))

end Walk
end TemplateCache
