import TemplateCache.Files.Walk
import TemplateCache.Proofs.Files.Confined

/-!
# Spellings of a path

A path can have slashes and single dots between its parts. They make no difference to what is left
of it below another path, to the stem and the extension of its file name, nor to the regular file
that it leads to, unless they are behind its last part.
-/

namespace TemplateCache

namespace Path

variable {p q base : Path} {s : Span} {before after between : List Span} {front : List Part}
  {chars segment lead own tail rest : List Char} {start : Nat} {part : Part} {name : String}

/-! ## Parts in a text -/

theorem mem_close (there : s ∈ spansFrom.close start segment) :
    s.start = start ∧ segment ≠ [] := by
  have full : segment ≠ [] := by
    rintro rfl
    cases there
  unfold spansFrom.close at there
  dsimp only at there
  split at there
  · cases there
  · split at there
    · rename_i first
      rw [List.mem_singleton.1 there, first]
      exact ⟨rfl, full⟩
    · cases there
  · rw [List.mem_singleton.1 there]
    exact ⟨rfl, full⟩
  · rw [List.mem_singleton.1 there]
    exact ⟨rfl, full⟩

theorem close_segment (plain : '/' ∉ segment) (start : Nat) :
    spansFrom segment.reverse start [] = spansFrom.close start segment := by
  have slashless : '/' ∉ segment.reverse := by simpa using plain
  have whole := spansFrom_segment slashless [] start []
  rwa [List.append_nil, List.append_nil, List.reverse_reverse] at whole

/-- A text from a slash or its start up to the next slash or its end is a part. -/
structure Segment (own tail : List Char) (part : Part) : Prop where
  full : own ≠ []
  plain : '/' ∉ own
  step : FileTree.stepOf own = part
  ends : tail = [] ∨ ∃ rest, tail = '/' :: rest

theorem Segment.head (h : Segment own tail part) (more : List Char) :
    (own ++ more).head? ≠ some '/' := by
  obtain ⟨c, rest, rfl⟩ := List.exists_cons_of_ne_nil h.full
  exact fun slash => h.plain (Option.some.inj slash ▸ List.mem_cons_self)

theorem Segment.named (h : Segment own tail (.normal name)) :
    own = name.toList ∧ ProperName name := by
  have step := h.step
  unfold FileTree.stepOf at step
  split at step
  · cases step
  · cases step
  · cases step
  · rename_i dot dots
    cases step
    rw [ProperName, String.toList_ofList]
    exact ⟨rfl, h.plain, h.full, dot, dots⟩

/-- The segment of a part in a text, between what leads to it and the rest. What leads to it has the
parts before it, whatever follows. -/
structure Splits (chars : List Char) (start : Nat) (before : List Span) (s : Span)
    (lead own tail : List Char) : Prop extends Segment own tail s.part where
  text : chars = lead ++ (own ++ tail)
  place : s.start = start + lead.length
  onward : ∀ more, spansFrom (lead ++ more) start [] = before ++ spansFrom more s.start []

theorem splits_close (plain : '/' ∉ segment) (ends : tail = [] ∨ ∃ rest, tail = '/' :: rest)
    (spans : spansFrom.close start segment = before ++ s :: after) :
    Splits (segment.reverse ++ tail) start before s [] segment.reverse tail := by
  obtain ⟨rfl, -, -, -, -, step⟩ := close_eq spans
  obtain ⟨same, full⟩ := mem_close (show s ∈ spansFrom.close start segment by simp [spans])
  refine ⟨⟨by simpa using full, by simpa using plain, step, ends⟩, rfl, same, fun more => ?_⟩
  rw [same]
  rfl

theorem Splits.behind (h : Splits rest (start + segment.length + 1) between s lead own tail)
    (plain : '/' ∉ segment) :
    Splits (segment.reverse ++ '/' :: rest) start (spansFrom.close start segment ++ between) s
      (segment.reverse ++ '/' :: lead) own tail := by
  refine ⟨h.toSegment, ?_, ?_, fun more => ?_⟩
  · rw [h.text, List.append_assoc]
    rfl
  · rw [h.place, List.length_append, List.length_reverse, List.length_cons]
    omega
  · rw [List.append_assoc, List.cons_append, spansFrom_slash, close_segment plain,
      List.length_reverse, List.append_assoc]
    exact congrArg _ (h.onward more)

theorem splits_of_spans (spans : spansFrom chars start segment = before ++ s :: after)
    (plain : '/' ∉ segment) :
    ∃ lead own tail, Splits (segment.reverse ++ chars) start before s lead own tail := by
  induction chars generalizing start segment before with
  | nil => exact ⟨_, _, _, splits_close plain (.inl rfl) spans⟩
  | cons c rest ih =>
      rw [spansFrom] at spans
      split at spans
      · rename_i slash
        subst slash
        -- The part ends in front of the slash, or it is behind it.
        rcases List.append_eq_append_iff.1 spans with
          ⟨between, rfl, later⟩ | ⟨between, own, later⟩
        · obtain ⟨_, _, _, found⟩ := ih later List.not_mem_nil
          exact ⟨_, _, _, found.behind plain⟩
        · cases between with
          | nil =>
              rw [List.append_nil] at own
              have first : spansFrom rest _ [] = [] ++ s :: after := later.symm
              obtain ⟨_, _, _, found⟩ := ih first List.not_mem_nil
              have found := found.behind plain
              rw [List.append_nil, own] at found
              exact ⟨_, _, _, found⟩
          | cons x between =>
              cases later
              exact ⟨_, _, _, splits_close plain (.inr ⟨rest, rfl⟩) own⟩
      · rename_i other
        obtain ⟨_, _, _, found⟩ := ih spans (by simpa using ⟨Ne.symm other, plain⟩)
        rw [List.reverse_cons, List.append_assoc] at found
        exact ⟨_, _, _, found⟩

/-! ## What is left of a path -/

theorem Segment.close (h : Segment own tail part) (real : start ≠ 0 → part ≠ .current) :
    (spansFrom.close start own.reverse).map (·.part) = [part] := by
  obtain ⟨full, -, step, -⟩ := h
  unfold spansFrom.close
  rw [List.reverse_reverse]
  dsimp only
  split
  · exact absurd rfl full
  · split
    · exact congrArg (fun part => [part]) step
    · rename_i later
      exact absurd step.symm (real later)
  · exact congrArg (fun part => [part]) step
  · rename_i dot dots
    rw [← step, FileTree.stepOf_other full dot dots]
    rfl

theorem close_shift {start' : Nat} (front : start ≠ 0) (front' : start' ≠ 0)
    (segment : List Char) : (spansFrom.close start segment).map (·.part) =
      (spansFrom.close start' segment).map (·.part) := by
  unfold spansFrom.close
  dsimp only
  split
  · rfl
  · rw [if_neg front, if_neg front']
  · rfl
  · rfl

/-- Only at the very start of a text a dot is a part. -/
theorem parts_shift (chars segment : List Char) {start' : Nat} (front : start ≠ 0)
    (front' : start' ≠ 0) :
    (spansFrom chars start segment).map (·.part) =
      (spansFrom chars start' segment).map (·.part) := by
  induction chars generalizing start start' segment with
  | nil => exact close_shift front front' segment
  | cons c rest ih =>
      rw [spansFrom, spansFrom]
      split
      · rw [List.map_append, List.map_append, close_shift front front',
          ih [] (Nat.succ_ne_zero _) (Nat.succ_ne_zero _)]
      · exact ih _ front front'

/-- Where a text starts makes no difference to its parts if it starts with one. -/
theorem Segment.parts (h : Segment own tail part) (real : start ≠ 0 → part ≠ .current) :
    (spansFrom (own ++ tail) start []).map (·.part) =
      (spansFrom (own ++ tail) 0 []).map (·.part) := by
  have first (start : Nat) (real : start ≠ 0 → part ≠ .current) :
      (spansFrom own start []).map (·.part) = [part] := by
    rw [← List.reverse_reverse own, close_segment (by simpa using h.plain)]
    exact h.close real
  rcases h.ends with rfl | ⟨rest, rfl⟩
  · rw [List.append_nil, first start real, first 0 (absurd rfl)]
  · rw [spansFrom_slash, spansFrom_slash, List.map_append, List.map_append, first start real,
      first 0 (absurd rfl), parts_shift rest [] (Nat.succ_ne_zero _) (Nat.succ_ne_zero _)]

/-- A part that is not the root has a segment. -/
theorem splits_or_root (spans : p.spans = before ++ s :: after) :
    s = ⟨.root, 0, 1⟩ ∧ before = [] ∨ ∃ lead own tail, Segment own tail s.part ∧
      p.text.toList = lead ++ (own ++ tail) ∧ s.start = lead.length ∧
      ∀ more, more.head? ≠ some '/' → (⟨String.ofList (lead ++ more)⟩ : Path).spans =
        before ++ spansFrom more lead.length [] := by
  by_cases absolute : ∃ rest, p.text.toList = '/' :: rest
  · obtain ⟨rest, text⟩ := absolute
    rw [spans_of_absolute text] at spans
    cases before with
    | nil =>
        cases spans
        exact .inl ⟨rfl, rfl⟩
    | cons first before =>
        obtain ⟨rfl, later⟩ := List.cons.inj spans
        obtain ⟨lead, own, tail, found⟩ := splits_of_spans later List.not_mem_nil
        have place : s.start = ('/' :: lead).length := by
          rw [found.place, List.length_cons, Nat.add_comm]
        refine .inr ⟨'/' :: lead, own, tail, found.toSegment, ?_, place, fun more _ => ?_⟩
        · rw [text, List.cons_append, ← found.text]
          rfl
        · have joined : (⟨String.ofList ('/' :: lead ++ more)⟩ : Path).text.toList =
              '/' :: (lead ++ more) := String.toList_ofList
          rw [spans_of_absolute joined, found.onward, place]
          rfl
  · have relative : ∀ rest, p.text.toList ≠ '/' :: rest := fun rest text => absolute ⟨rest, text⟩
    rw [spans_relative relative] at spans
    obtain ⟨lead, own, tail, found⟩ := splits_of_spans spans List.not_mem_nil
    have text : p.text.toList = lead ++ (own ++ tail) := found.text
    have place : s.start = lead.length := by rw [found.place, Nat.zero_add]
    refine .inr ⟨lead, own, tail, found.toSegment, text, place, fun more relative' => ?_⟩
    rw [spans_relative, String.toList_ofList]
    · rw [← place]
      exact found.onward more
    intro rest slash
    rw [String.toList_ofList] at slash
    cases lead with
    | nil =>
        rw [List.nil_append] at slash
        exact relative' (by rw [slash]; rfl)
    | cons c lead =>
        rw [List.cons_append] at slash
        rw [List.cons_append, (List.cons.inj slash).1] at text
        exact relative _ text

theorem parts_drop (spans : p.spans = before ++ s :: after) :
    (⟨String.ofList (p.text.toList.drop s.start)⟩ : Path).parts = (s :: after).map (·.part) := by
  rcases splits_or_root spans with ⟨rfl, rfl⟩ | ⟨lead, own, tail, segment, text, place, onward⟩
  · rw [List.drop_zero, String.ofList_toList]
    exact congrArg (List.map _) spans
  · have rest : spansFrom (own ++ tail) lead.length [] = [] ++ s :: after := by
      have whole := onward (own ++ tail) (segment.head tail)
      rw [← text, String.ofList_toList, spans] at whole
      exact (List.append_cancel_left whole).symm
    have real : lead.length ≠ 0 → s.part ≠ .current := fun front current =>
      front ((cut_of_spans rest).dot current).1
    rw [place, text, List.drop_left]
    unfold parts
    rw [spans_relative, String.toList_ofList, ← segment.parts real, rest, List.nil_append]
    intro rest slash
    rw [String.toList_ofList] at slash
    exact segment.head tail (by rw [slash]; rfl)

/-- The text from one part to the last one has these parts. -/
theorem parts_slice {first : Span} {rest : List Span} (spans : p.spans = before ++ first :: rest) :
    (p.slice first.start (rest.getLast?.getD first).stop).parts =
      (first :: rest).map (·.part) := by
  have ends : (first :: rest).getLast? = some (rest.getLast?.getD first) := List.getLast?_cons
  obtain ⟨front, split⟩ := List.getLast?_eq_some_iff.1 ends
  generalize rest.getLast?.getD first = last at split ⊢
  have whole : p.spans = (before ++ front) ++ last :: [] := by
    rw [spans, split, List.append_assoc]
  have cut : (p.slice 0 last.stop).spans = before ++ first :: rest := by
    rw [(spans_slice whole).1, split, List.append_assoc]
  have parts := parts_drop cut
  rw [toList_slice] at parts
  exact parts

/-- What is left of a path below another one has the other parts. -/
theorem parts_stripPrefix (left : p.stripPrefix? base = some q) :
    p.parts = base.parts ++ q.parts := by
  have split : p.spans = p.spans.take base.parts.length ++ p.spans.drop base.parts.length :=
    (List.take_append_drop _ _).symm
  unfold stripPrefix? at left
  split at left
  · rename_i start
    have own : q.parts = (p.spans.drop base.parts.length).map (·.part) := by
      split at left
      · rename_i none
        cases left
        rw [none]
        rfl
      · rename_i first rest more
        cases left
        rw [more] at split ⊢
        exact parts_slice split
    obtain ⟨others, start⟩ := List.isPrefixOf_iff_prefix.1 start
    have front : p.parts.take base.parts.length = base.parts := by rw [← start, List.take_left]
    calc p.parts = p.parts.take base.parts.length ++ p.parts.drop base.parts.length :=
          (List.take_append_drop _ _).symm
      _ = base.parts ++ q.parts := by
          rw [front, own, List.map_drop]
          rfl
  · cases left

/-! ## Stems and extensions -/

theorem splitName_stem (full : name ≠ "") :
    (splitName name).1 ≠ "" ∧ (splitName name).1.toList <+: name.toList := by
  unfold splitName
  dsimp only
  split
  · exact ⟨full, List.prefix_refl _⟩
  · exact ⟨full, List.prefix_refl _⟩
  · rename_i dot before single found
    have whole : name.toList.reverse =
        name.toList.reverse.takeWhile (· != '.') ++ dot :: before := by
      rw [← found, List.takeWhile_append_dropWhile]
    have name_eq := congrArg List.reverse whole
    rw [List.reverse_reverse, List.reverse_append, List.reverse_cons, List.append_assoc] at name_eq
    rw [String.toList_ofList]
    refine ⟨fun none => single ?_, name_eq ▸ List.prefix_append _ _⟩
    simpa using congrArg String.toList none

theorem properName_stem (proper : ProperName name) (visible : isHidden name = false) :
    ProperName (splitName name).1 := by
  obtain ⟨plain, full, -, -⟩ := proper
  have filled : name ≠ "" := by simpa using full
  obtain ⟨some, start⟩ := splitName_stem filled
  have some : (splitName name).1.toList ≠ [] := by simpa using some
  have dotless (rest : List Char) : (splitName name).1.toList ≠ '.' :: rest := by
    intro dot
    obtain ⟨more, whole⟩ := start
    unfold isHidden at visible
    rw [← whole, dot] at visible
    exact absurd visible (by simp)
  exact ⟨fun slash => plain (start.subset slash), some, dotless [], dotless ['.']⟩

/-- Without its extension a path has the stem of its last name. -/
theorem parts_withoutExtension (parts : p.parts = front ++ [.normal name])
    (visible : isHidden name = false) :
    p.withoutExtension.parts = front ++ [.normal (splitName name).1] := by
  obtain ⟨before, ends, spans, own, last⟩ := List.map_eq_append_iff.1 parts
  obtain ⟨s, rest, rfl, named, none⟩ := List.map_eq_cons_iff.1 last
  obtain rfl := List.map_eq_nil_iff.1 none
  rcases splits_or_root spans with ⟨rfl, -⟩ | ⟨lead, text, tail, segment, whole, place, onward⟩
  · cases named
  rw [named] at segment
  obtain ⟨rfl, proper⟩ := segment.named
  have filled : name ≠ "" := by simpa using proper.2.1
  obtain ⟨some, more, stem⟩ := splitName_stem filled
  have proper' := properName_stem proper visible
  -- The cut is within the segment of the last name, so what leads to it is as before.
  have cut : p.withoutExtension = ⟨String.ofList (lead ++ (splitName name).1.toList)⟩ := by
    have text : p.text.toList = lead ++ (splitName name).1.toList ++ (more ++ tail) := by
      rw [whole, ← stem, List.append_assoc, List.append_assoc]
    have length : lead.length + (splitName name).1.length =
        (lead ++ (splitName name).1.toList).length := by
      rw [List.length_append, String.length_toList]
    obtain ⟨part, start, stop⟩ := s
    cases named
    cases place
    unfold withoutExtension slice
    rw [spans, List.getLast?_concat]
    dsimp only
    rw [text, length, List.take_left, List.drop_zero]
  have relative : (splitName name).1.toList.head? ≠ Option.some '/' := by
    intro slash
    exact proper'.1 (List.mem_of_head? slash)
  unfold Path.parts
  rw [cut, onward _ relative, spansFrom_name proper', List.map_append, own]
  rfl

theorem extension_of_same (same : p.parts.getLast? = q.parts.getLast?) :
    p.extension? = q.extension? := by
  unfold extension?
  rw [fileName_eq, fileName_eq, same]

end Path

/-! ## Files by other spellings -/

namespace FileTree

variable {t : FileTree} {p base : Path} {place here : Place} {names : List String}
  {rest : List Part} {part : Part} {e : Entry} {follow : Bool}

/-- Steps that are all dots have a dot at the end. -/
theorem eq_nil_of_solid (none : solid rest = []) (ends : (part :: rest).getLast? ≠ some .current) :
    rest = [] := by
  by_contra some
  have last := List.getLast_mem some
  rw [List.getLast?_cons, List.getLast?_eq_some_getLast some, Option.getD_some] at ends
  refine List.filter_eq_nil_iff.1 none _ last ?_
  simpa using fun current => ends (congrArg Option.some current)

/-- Dots between the names of a file make no difference. -/
theorem HasFile.stroll_spelled (file : t.HasFile here names)
    (short : names.any (255 < ·.utf8ByteSize) = false) (named : solid rest = names.map .normal)
    (ends : rest.getLast? ≠ some .current) :
    t.stroll follow here rest = .ok (.place (here ++ names)) := by
  induction rest generalizing here names with
  | nil => exact absurd (List.map_eq_nil_iff.1 named.symm) file.ne_nil
  | cons part rest ih =>
      cases part with
      | current =>
          cases rest with
          | nil => exact absurd rfl ends
          | cons next rest => exact ih file short named (by rwa [List.getLast?_cons_cons] at ends)
      | root => cases names <;> cases named
      | parent => cases names <;> cases named
      | normal name =>
          obtain ⟨own, names, rfl⟩ := List.exists_cons_of_ne_nil file.ne_nil
          obtain ⟨same, others⟩ := List.cons.inj named
          cases same
          obtain ⟨fits, short⟩ := Bool.or_eq_false_iff.1 short
          replace fits : ¬255 < name.utf8ByteSize := of_decide_eq_false fits
          cases file with
          | file proper there =>
              obtain rfl := eq_nil_of_solid others ends
              rw [FileTree.stroll, if_neg fits, there]
              rfl
          | inside proper directory below =>
              have more : rest ≠ [] := by
                rintro rfl
                exact below.ne_nil (List.map_eq_nil_iff.1 others.symm)
              obtain ⟨next, rest, rfl⟩ := List.exists_cons_of_ne_nil more
              rw [List.getLast?_cons_cons] at ends
              rw [stroll_directory fits directory, ih below short others ends, List.append_assoc]
              rfl

/-- A path with the parts of a directory and the names of a file leads to the file, however it is
spelled. -/
theorem HasFile.entryAt_spelled (root : t.DirAt base place) (file : t.HasFile place names)
    (there : t.entry? (place ++ names) = some e)
    (short : names.any (255 < ·.utf8ByteSize) = false) (within : base.Within names p)
    (checked : checkText p.text = .ok ()) (ends : (steps p).getLast? ≠ some .current) :
    t.entryAt p true = .ok (place ++ names, e) := by
  obtain ⟨above, more, split, same, named⟩ := steps_within within
  have some : more ≠ [] := by
    rintro rfl
    exact file.ne_nil (List.map_eq_nil_iff.1 named.symm)
  have goes : t.stroll true place more = (Except.ok (place ++ names)).map Reach.place :=
    file.stroll_spelled short named (by rwa [split, List.getLast?_append_of_ne_nil _ some] at ends)
  have whole := resolve_append (fun _ => rfl) (root.1.alike root.2 same).resolve root.2 goes
  rw [← split] at whole
  exact entryAt_ok.2 ⟨locate_ok.2 ⟨checked, leads_of_resolve whole⟩, there⟩

end FileTree
end TemplateCache
