import TemplateCache.Files.Tree

/-!
# Paths and the names on them

A path that names are appended to has the parts of the path, and behind them one normal part for
each name. What is left of it below the path is the path of the names alone.
-/

namespace TemplateCache

/-- A name that a place can have on its way. -/
def ProperName (name : String) : Prop :=
  '/' ∉ name.toList ∧ name.toList ≠ [] ∧ name.toList ≠ ['.'] ∧ name.toList ≠ ['.', '.']

instance : DecidablePred ProperName := fun _ => inferInstanceAs (Decidable (_ ∧ _ ∧ _ ∧ _))

def Place.Proper (place : Place) : Prop := ∀ name ∈ place, ProperName name

namespace Path

/-! ## Spans -/

theorem spansFrom_segment {chars : List Char} (plain : '/' ∉ chars) (rest : List Char)
    (start : Nat) (segment : List Char) :
    spansFrom (chars ++ rest) start segment = spansFrom rest start (chars.reverse ++ segment) := by
  induction chars generalizing segment with
  | nil => rfl
  | cons c chars ih =>
      rw [List.mem_cons, not_or] at plain
      rw [List.cons_append, spansFrom, if_neg (Ne.symm plain.1), ih plain.2, List.reverse_cons,
        List.append_assoc]
      rfl

/-- A slash ends a segment, and what is behind it does not depend on what is in front. -/
theorem spansFrom_slash (front rest : List Char) (start : Nat) (segment : List Char) :
    spansFrom (front ++ '/' :: rest) start segment = spansFrom front start segment ++
      spansFrom rest (start + segment.length + front.length + 1) [] := by
  induction front generalizing start segment with
  | nil => simp [spansFrom]
  | cons c front ih =>
      rw [List.cons_append, spansFrom, spansFrom]
      split
      · rw [ih, List.append_assoc]
        congr 3
        simp only [List.length_nil, List.length_cons]
        omega
      · rw [ih]
        congr 2
        simp only [List.length_cons]
        omega

theorem close_proper {name : String} (proper : ProperName name) (start : Nat) :
    spansFrom.close start name.toList.reverse =
      [⟨.normal name, start, start + name.toList.length⟩] := by
  obtain ⟨-, full, dot, dots⟩ := proper
  unfold spansFrom.close
  rw [List.reverse_reverse]
  dsimp only
  split
  · rename_i empty
    exact absurd empty full
  · rename_i single
    exact absurd single dot
  · rename_i double
    exact absurd double dots
  · rw [String.ofList_toList, List.length_reverse]

theorem spansFrom_name {name : String} (proper : ProperName name) (start : Nat) :
    spansFrom name.toList start [] = [⟨.normal name, start, start + name.toList.length⟩] := by
  rw [← List.append_nil name.toList, spansFrom_segment proper.1, spansFrom, List.append_nil,
    close_proper proper, List.append_nil]

theorem spansFrom_names {name next : String} {rest : List String} (proper : ProperName name)
    (start : Nat) :
    spansFrom ("/".intercalate (name :: next :: rest)).toList start [] =
      ⟨.normal name, start, start + name.toList.length⟩ ::
        spansFrom ("/".intercalate (next :: rest)).toList (start + name.toList.length + 1) [] := by
  rw [String.intercalate_cons_cons, String.toList_append, String.toList_append, List.append_assoc]
  refine (spansFrom_slash name.toList _ start []).trans ?_
  rw [spansFrom_name proper]
  rfl

theorem parts_intercalate {names : List String} (proper : Place.Proper names) (start : Nat) :
    (spansFrom ("/".intercalate names).toList start []).map (·.part) = names.map .normal := by
  induction names generalizing start with
  | nil => rfl
  | cons name rest ih =>
      obtain ⟨own, others⟩ := List.forall_mem_cons.1 proper
      cases rest with
      | nil =>
          rw [String.intercalate_singleton, spansFrom_name own]
          rfl
      | cons next rest =>
          rw [spansFrom_names own, List.map_cons, ih others]
          rfl

/-- Where the first of some names begins and the last one ends. -/
theorem span_names {names : List String} (proper : Place.Proper names) (many : names ≠ [])
    (start : Nat) :
    ∃ first rest, spansFrom ("/".intercalate names).toList start [] = first :: rest ∧
      first.start = start ∧
      (rest.getLast?.getD first).stop = start + ("/".intercalate names).toList.length := by
  induction names generalizing start with
  | nil => exact absurd rfl many
  | cons name rest ih =>
      obtain ⟨own, others⟩ := List.forall_mem_cons.1 proper
      cases rest with
      | nil =>
          rw [String.intercalate_singleton, spansFrom_name own]
          exact ⟨_, [], rfl, rfl, rfl⟩
      | cons next rest =>
          obtain ⟨first, more, spans, -, stop⟩ :=
            ih others (List.cons_ne_nil _ _) (start + name.toList.length + 1)
          rw [spansFrom_names own, spans]
          refine ⟨_, _, rfl, rfl, ?_⟩
          rw [List.getLast?_cons, Option.getD_some, stop, String.intercalate_cons_cons]
          simp only [String.toList_append, List.length_append]
          show _ = start + (name.toList.length + 1 + _)
          omega

/-! ## Paths of names -/

/-- The text of a place names the place. -/
theorem normalNames_text {place : Place} (proper : place.Proper) :
    normalNames ⟨Place.text place⟩ = place := by
  have spans : spans ⟨Place.text place⟩ =
      ⟨.root, 0, 1⟩ :: spansFrom ("/".intercalate place).toList 1 [] := by
    unfold Path.spans Place.text
    rw [String.toList_append]
    rfl
  unfold normalNames parts
  rw [spans, List.map_cons, parts_intercalate proper]
  show (place.map Part.normal).filterMap Part.normal? = place
  rw [List.filterMap_map]
  exact List.filterMap_some

theorem text_injective {place place' : Place} (proper : place.Proper) (proper' : place'.Proper)
    (same : place.text = place'.text) : place = place' := by
  rw [← normalNames_text proper, same, normalNames_text proper']

variable {names : List String} {name : String} {base p q : Path}

theorem head_intercalate (proper : Place.Proper names) (rest : List Char) :
    ("/".intercalate names).toList ≠ '/' :: rest := by
  cases names with
  | nil => exact nofun
  | cons name more =>
      obtain ⟨plain, full, -, -⟩ := proper name List.mem_cons_self
      obtain ⟨c, chars, chars_eq⟩ := List.exists_cons_of_ne_nil full
      have other : c ≠ '/' := by
        rintro rfl
        exact plain (chars_eq ▸ List.mem_cons_self)
      cases more with
      | nil =>
          rw [String.intercalate_singleton, chars_eq]
          exact fun same => other (List.cons.inj same).1
      | cons next more =>
          rw [String.intercalate_cons_cons, String.toList_append, String.toList_append, chars_eq]
          exact fun same => other (List.cons.inj same).1

theorem spans_relative (relative : ∀ rest, p.text.toList ≠ '/' :: rest) :
    p.spans = spansFrom p.text.toList 0 [] := by
  unfold spans
  split
  · rename_i rest slash
    exact absurd slash (relative rest)
  · rfl

theorem spans_ofNames (proper : Place.Proper names) :
    (ofNames names).spans = spansFrom ("/".intercalate names).toList 0 [] :=
  spans_relative (head_intercalate proper)

theorem isAbsolute_ofNames (proper : Place.Proper names) : (ofNames names).isAbsolute = false := by
  unfold isAbsolute ofNames
  dsimp only
  cases chars : ("/".intercalate names).toList with
  | nil => rfl
  | cons c rest =>
      have other : c ≠ '/' := by
        rintro rfl
        exact head_intercalate proper rest chars
      simpa using other

theorem parts_ofNames (proper : Place.Proper names) :
    (ofNames names).parts = names.map .normal := by
  unfold parts
  rw [spans_ofNames proper, parts_intercalate proper]

theorem normalNames_ofNames (proper : Place.Proper names) :
    (ofNames names).normalNames = names := by
  unfold normalNames
  rw [parts_ofNames proper, List.filterMap_map]
  exact List.filterMap_some

theorem toList_intercalate_concat (many : names ≠ []) :
    ("/".intercalate (names ++ [name])).toList =
      ("/".intercalate names).toList ++ '/' :: name.toList := by
  rw [String.intercalate_append_of_ne_nil many (List.cons_ne_nil _ _),
    String.intercalate_singleton, String.toList_append, String.toList_append, List.append_assoc]
  rfl

/-- Above the last name are the others. -/
theorem parent_ofNames (proper : Place.Proper (names ++ [name])) :
    (ofNames (names ++ [name])).parent? = some (ofNames names) := by
  obtain ⟨above, own⟩ := List.forall_mem_append.1 proper
  replace own := own name (List.mem_singleton_self name)
  unfold parent?
  rw [spans_ofNames proper]
  by_cases only : names = []
  · subst only
    rw [List.nil_append] at *
    rw [String.intercalate_singleton, spansFrom_name own]
    rfl
  · obtain ⟨first, rest, spans, -, stop⟩ := span_names above only 0
    have last : (first :: rest).reverse.head? = some (rest.getLast?.getD first) := by
      rw [List.head?_reverse, List.getLast?_cons]
    obtain ⟨before, reversed⟩ := List.head?_eq_some_iff.1 last
    rw [toList_intercalate_concat only, spansFrom_slash, spansFrom_name own, spans,
      List.reverse_append, reversed]
    show some (slice _ 0 (rest.getLast?.getD first).stop) = _
    rw [stop]
    unfold slice ofNames
    rw [toList_intercalate_concat only, Nat.zero_add, List.take_left, List.drop_zero,
      String.ofList_toList]

theorem fileName_eq (p : Path) : p.fileName? = p.parts.getLast?.bind Part.normal? := by
  unfold fileName? parts
  rw [List.getLast?_map]
  cases p.spans.getLast? <;> rfl

/-! ## Names below a path -/

/-- A path that goes on behind a slash has more parts. -/
theorem spans_slash {before rest : List Char} (many : before ≠ []) (base : p.text.toList = before)
    (whole : q.text.toList = before ++ '/' :: rest) :
    q.spans = p.spans ++ spansFrom rest (before.length + 1) [] := by
  obtain ⟨c, chars, rfl⟩ := List.exists_cons_of_ne_nil many
  by_cases root : c = '/'
  · subst root
    unfold spans
    rw [base, whole]
    show _ :: spansFrom (chars ++ '/' :: rest) 1 [] = _ :: spansFrom chars 1 [] ++ _
    rw [spansFrom_slash, List.cons_append]
    congr 3
    simp only [List.length_nil, List.length_cons]
    omega
  · have relative (more others : List Char) : c :: more ≠ '/' :: others :=
      fun same => root (List.cons.inj same).1
    rw [spans_relative (p := p) (base ▸ relative _), spans_relative (p := q) (whole ▸ relative _),
      base, whole, spansFrom_slash]
    simp

theorem toList_join (full : base.text ≠ "") (proper : Place.Proper names) :
    (base.join (ofNames names)).text.toList =
      (if base.text.toList.getLast? = some '/' then base.text.toList
        else base.text.toList ++ ['/']) ++ ("/".intercalate names).toList := by
  unfold join
  rw [isAbsolute_ofNames proper]
  simp only [Bool.false_eq_true, if_false, String.isEmpty_iff, full, beq_iff_eq]
  split
  · rw [String.toList_append]
    rfl
  · rw [String.toList_append, String.toList_append]
    rfl

/-- A path without a text leaves names as they are. -/
theorem join_of_empty (empty : base.text = "") (proper : Place.Proper names) :
    base.join (ofNames names) = ofNames names := by
  unfold join
  rw [isAbsolute_ofNames proper, empty]
  rfl

/-- Names that are appended come behind the parts of the path. -/
theorem spans_join (base : Path) (proper : Place.Proper names) :
    ∃ front, (base.join (ofNames names)).text.toList = front ++ ("/".intercalate names).toList ∧
      (base.join (ofNames names)).spans =
        base.spans ++ spansFrom ("/".intercalate names).toList front.length [] := by
  by_cases full : base.text = ""
  · have none : base.spans = [] := by rw [show base = ⟨""⟩ from congrArg Path.mk full]; rfl
    rw [join_of_empty full proper, none]
    exact ⟨[], rfl, spans_ofNames proper⟩
  have text := toList_join full proper
  have chars : base.text.toList ≠ [] := by simpa using full
  refine ⟨_, text, ?_⟩
  split at text
  · rename_i slash
    rw [if_pos slash]
    obtain ⟨before, ends⟩ := List.getLast?_eq_some_iff.1 slash
    rw [ends] at text ⊢
    by_cases root : before = []
    · subst root
      unfold spans
      rw [text, ends]
      rfl
    · -- The slash at the end of the path makes no difference to its own parts.
      have own : base.spans = (⟨String.ofList before⟩ : Path).spans ++ [] :=
        spans_slash root String.toList_ofList ends
      have joined := spans_slash (p := ⟨String.ofList before⟩) root String.toList_ofList
        (text.trans (List.append_assoc before ['/'] _))
      rw [joined, own, List.append_nil, List.length_append]
      rfl
  · rename_i slash
    rw [if_neg slash, List.length_append]
    exact spans_slash chars rfl (text.trans (List.append_assoc _ ['/'] _))

theorem parts_join (base : Path) (proper : Place.Proper names) :
    (base.join (ofNames names)).parts = base.parts ++ names.map .normal := by
  obtain ⟨front, -, spans⟩ := spans_join base proper
  unfold parts
  rw [spans, List.map_append, parts_intercalate proper]

theorem join_injective {names' : List String} (proper : Place.Proper names) (proper' : Place.Proper names')
    (same : (base.join (ofNames names)).same (base.join (ofNames names')) = true) :
    names = names' := by
  have parts := eq_of_beq same
  rw [parts_join base proper, parts_join base proper'] at parts
  exact List.map_inj_right (fun _ _ => Part.normal.inj) |>.1 (List.append_cancel_left parts)

/-- What is left of a path below the one that it was appended to. -/
theorem stripPrefix_join (base : Path) (proper : Place.Proper names) (below : names ≠ []) :
    (base.join (ofNames names)).stripPrefix? base = some (ofNames names) := by
  obtain ⟨front, text, spans⟩ := spans_join base proper
  obtain ⟨first, rest, own, start, stop⟩ := span_names proper below front.length
  have count : base.parts.length = base.spans.length := List.length_map _
  unfold stripPrefix?
  rw [parts_join base proper, spans, count, List.drop_left, own,
    if_pos (List.isPrefixOf_iff_prefix.2 (List.prefix_append _ _))]
  dsimp only
  rw [start, stop]
  unfold slice
  rw [text, List.take_of_length_le (by simp), List.drop_left, String.ofList_toList]
  rfl

theorem ofNames_single (name : String) : ofNames [name] = ⟨name⟩ := by
  rw [ofNames, String.intercalate_singleton]

theorem toList_join_name (full : base.text ≠ "") (proper : ProperName name) :
    (base.join ⟨name⟩).text.toList =
      (if base.text.toList.getLast? = some '/' then base.text.toList
        else base.text.toList ++ ['/']) ++ name.toList := by
  have joined := toList_join full (List.forall_mem_singleton.2 proper : Place.Proper [name])
  rw [ofNames_single, String.intercalate_singleton] at joined
  exact joined

theorem join_name_ne (full : base.text ≠ "") (proper : ProperName name) :
    (base.join ⟨name⟩).text ≠ "" := by
  intro empty
  have joined := toList_join_name full proper
  rw [empty] at joined
  exact proper.2.1 (List.append_eq_nil_iff.1 joined.symm).2

/-- Names are appended one by one. -/
theorem join_cons (full : base.text ≠ "") (proper : Place.Proper (name :: names))
    (below : names ≠ []) :
    (base.join ⟨name⟩).join (ofNames names) = base.join (ofNames (name :: names)) := by
  obtain ⟨own, others⟩ := List.forall_mem_cons.1 proper
  have last : (base.join ⟨name⟩).text.toList.getLast? ≠ some '/' := by
    rw [toList_join_name full own, List.getLast?_append,
      List.getLast?_eq_some_getLast own.2.1, Option.some_or,
      ← List.getLast?_eq_some_getLast own.2.1]
    exact fun slash => own.1 (List.mem_of_getLast? slash)
  obtain ⟨next, more, rfl⟩ := List.exists_cons_of_ne_nil below
  have texts : ((base.join ⟨name⟩).join (ofNames (next :: more))).text.toList =
      (base.join (ofNames (name :: next :: more))).text.toList := by
    rw [toList_join (join_name_ne full own) others, if_neg last, toList_join_name full own,
      toList_join full proper, String.intercalate_cons_cons, String.toList_append,
      String.toList_append]
    simp
  exact congrArg Path.mk (String.toList_inj.1 texts)

/-! ## Lists of paths -/

theorem mem_sort {paths : List Path} {p : Path} : p ∈ sort paths ↔ p ∈ paths :=
  List.mem_mergeSort

theorem same_refl (p : Path) : p.same p = true := beq_self_eq_true _

theorem same_symm {p q : Path} (h : p.same q = true) : q.same p = true :=
  beq_iff_eq.2 (eq_of_beq h).symm

theorem same_trans {p q r : Path} (h : p.same q = true) (h' : q.same r = true) :
    p.same r = true := by
  unfold same at *
  rw [eq_of_beq h]
  exact h'

/-- Each path is kept, or another one with its parts. -/
theorem exists_mem_dedup (paths : List Path) :
    ∀ p ∈ paths, ∃ q ∈ dedup paths, q.same p = true := by
  fun_induction dedup paths with
  | case1 first second rest same ih =>
      intro p there
      rcases List.mem_cons.1 there with rfl | later
      · exact ih _ List.mem_cons_self
      · rcases List.mem_cons.1 later with rfl | later
        · obtain ⟨q, kept, as⟩ := ih _ List.mem_cons_self
          exact ⟨q, kept, same_trans as same⟩
        · exact ih _ (List.mem_cons_of_mem _ later)
  | case2 first second rest other ih =>
      intro p there
      rcases List.mem_cons.1 there with rfl | later
      · exact ⟨_, List.mem_cons_self, same_refl _⟩
      · obtain ⟨q, kept, as⟩ := ih _ later
        exact ⟨q, List.mem_cons_of_mem _ kept, as⟩
  | case3 paths short => exact fun p there => ⟨p, there, same_refl p⟩

theorem mem_of_mem_dedup {paths : List Path} {p : Path} (there : p ∈ dedup paths) : p ∈ paths := by
  fun_induction dedup paths with
  | case1 first second rest same ih =>
      rcases List.mem_cons.1 (ih there) with rfl | later
      · exact List.mem_cons_self
      · exact List.mem_cons_of_mem _ (List.mem_cons_of_mem _ later)
  | case2 first second rest other ih =>
      rcases List.mem_cons.1 there with rfl | later
      · exact List.mem_cons_self
      · exact List.mem_cons_of_mem _ (ih later)
  | case3 paths short => exact there

end Path
end TemplateCache
