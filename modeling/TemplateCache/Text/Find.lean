/-!
# Search for text

The first occurrence of a text in another one.
-/

namespace TemplateCache.Text

/-- What is in front of the first occurrence of a text, and what is behind it. -/
def splitFirst? (needle : List Char) : List Char → Option (List Char × List Char)
  | [] => if needle.isEmpty then some ([], []) else none
  | c :: rest =>
    if needle.isPrefixOf (c :: rest) then some ([], (c :: rest).drop needle.length)
    else (splitFirst? needle rest).map fun (front, behind) => (c :: front, behind)

def occursIn (needle : String) (text : String) : Bool :=
  (splitFirst? needle.toList text.toList).isSome

theorem length_of_splitFirst? {needle : List Char} (h : needle ≠ []) :
    ∀ {text front behind : List Char}, splitFirst? needle text = some (front, behind) →
      behind.length < text.length
  | [], front, behind, found => by simp [splitFirst?, h] at found
  | c :: rest, front, behind, found => by
    have positive : 0 < needle.length := List.length_pos_iff.2 h
    rw [splitFirst?] at found
    split at found
    · simp only [Option.some.injEq, Prod.mk.injEq] at found
      rw [← found.2, List.length_drop, List.length_cons]
      omega
    · obtain ⟨⟨_, tail⟩, inner, eq⟩ := Option.map_eq_some_iff.1 found
      simp only [Prod.mk.injEq] at eq
      rw [← eq.2, List.length_cons]
      exact Nat.lt_succ_of_lt (length_of_splitFirst? h inner)

/-- The parts of a text between separators, one more than there are of these. -/
def splitOn (sep : Char) : List Char → List (List Char)
  | [] => [[]]
  | c :: rest =>
    if c = sep then [] :: splitOn sep rest
    else
      match splitOn sep rest with
      | first :: more => (c :: first) :: more
      | [] => [[c]]

theorem splitOn_whole {sep : Char} : ∀ {text : List Char}, sep ∉ text → splitOn sep text = [text]
  | [], _ => rfl
  | c :: rest, whole => by
    rw [List.mem_cons, not_or] at whole
    rw [splitOn, if_neg (Ne.symm whole.1), splitOn_whole whole.2]

theorem splitOn_cut {sep : Char} (rest : List Char) :
    ∀ {front : List Char}, sep ∉ front →
      splitOn sep (front ++ sep :: rest) = front :: splitOn sep rest
  | [], _ => by rw [List.nil_append, splitOn, if_pos rfl]
  | c :: front, whole => by
    rw [List.mem_cons, not_or] at whole
    rw [List.cons_append, splitOn, if_neg (Ne.symm whole.1), splitOn_cut rest whole.2]

theorem splitOn_ne_nil (sep : Char) (text : List Char) : splitOn sep text ≠ [] := by
  fun_cases splitOn sep text with
  | case1 | case2 | case3 | case4 => exact List.cons_ne_nil _ _

theorem splitOn_concat (sep : Char) (text : List Char) :
    splitOn sep (text ++ [sep]) = splitOn sep text ++ [[]] := by
  fun_induction splitOn sep text with
  | case1 => simp [splitOn]
  | case2 rest ih => rw [List.cons_append, splitOn, if_pos rfl, ih, List.cons_append]
  | case3 c rest other first more parts ih =>
      rw [List.cons_append, splitOn, if_neg other, ih, parts]
      rfl
  | case4 c rest other none => exact absurd none (splitOn_ne_nil sep rest)

end TemplateCache.Text
