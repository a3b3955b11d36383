import Mathlib
import TemplateCache.Proofs.Naming
import TemplateCache.Proofs.Store.Building
import TemplateCache.Proofs.Store.Loading

/-!
# Names of source files

A name leads to a key and the key to a source file; the path of that file leads back to a name, and
the name to a key. With the standard rules and prefix the way back undoes the way there: below the
prefix, the path without its extension is the name, and its extension brings back the key.
-/

namespace TemplateCache

/-! ## Stems and extensions -/

namespace Path

variable {names : List String} {name stem ext : String} {p base : Path} {front : List Part}

theorem splitName_ext (full : stem ≠ "") (plain : '.' ∉ ext.toList) :
    splitName (stem ++ "." ++ ext) = (stem, some ext) := by
  have reversed : (stem ++ "." ++ ext).toList.reverse =
      ext.toList.reverse ++ '.' :: stem.toList.reverse := by simp
  have clean : ∀ c ∈ ext.toList.reverse, (c != '.') = true := by
    intro c there
    rw [bne_iff_ne]
    rintro rfl
    exact plain (List.mem_reverse.1 there)
  obtain ⟨c, rest, chars⟩ := List.exists_cons_of_ne_nil
    (show stem.toList.reverse ≠ [] by simpa using full)
  have own : String.ofList (c :: rest).reverse = stem := by
    rw [← chars, List.reverse_reverse, String.ofList_toList]
  unfold splitName
  dsimp only
  rw [reversed, List.dropWhile_append_of_pos clean, List.takeWhile_append_of_pos clean, chars,
    List.dropWhile_cons_of_neg (by simp), List.takeWhile_cons_of_neg (by simp)]
  dsimp only
  rw [own, List.append_nil, List.reverse_reverse, String.ofList_toList]

theorem splitName_plain (plain : '.' ∉ name.toList) : (splitName name).2 = none := by
  have none : name.toList.reverse.dropWhile (· != '.') = [] := by
    refine List.dropWhile_eq_nil_iff.2 fun c there => ?_
    rw [bne_iff_ne]
    rintro rfl
    exact plain (List.mem_reverse.1 there)
  unfold splitName
  dsimp only
  rw [none]

/-- A name that is no dot name stays one with an extension. -/
theorem properName_ext (own : ProperName stem) (visible : isHidden stem = false)
    (plain : '/' ∉ ext.toList) : ProperName (stem ++ "." ++ ext) := by
  obtain ⟨c, rest, chars⟩ := List.exists_cons_of_ne_nil own.2.1
  have other : c ≠ '.' := by
    rintro rfl
    unfold isHidden at visible
    rw [chars] at visible
    cases visible
  have whole : (stem ++ "." ++ ext).toList = c :: (rest ++ '.' :: ext.toList) := by
    rw [String.toList_append, String.toList_append, chars, List.append_assoc]
    rfl
  have slashless := own.1
  rw [chars] at slashless
  unfold ProperName
  rw [whole]
  refine ⟨?_, List.cons_ne_nil _ _, fun dot => other (List.cons.inj dot).1,
    fun dots => other (List.cons.inj dots).1⟩
  intro slash
  rw [← List.cons_append, List.mem_append, List.mem_cons (l := ext.toList)] at slash
  rcases slash with there | dot | there
  · exact slashless there
  · cases dot
  · exact plain there

theorem isHidden_append (full : stem ≠ "") (rest : String) :
    isHidden (stem ++ rest) = isHidden stem := by
  obtain ⟨c, chars, own⟩ := List.exists_cons_of_ne_nil
    (show stem.toList ≠ [] by simpa using full)
  unfold isHidden
  rw [String.toList_append, own]
  rfl

/-- The span of the last of some names. -/
theorem last_span (proper : Place.Proper (names ++ [name])) :
    ∃ above, (ofNames (names ++ [name])).text.toList = above ++ name.toList ∧
      (∀ other, (ofNames (names ++ [other])).text.toList = above ++ other.toList) ∧
      (ofNames (names ++ [name])).spans.getLast? =
        some ⟨.normal name, above.length, above.length + name.toList.length⟩ := by
  have own : ProperName name := (List.forall_mem_append.1 proper).2 name (by simp)
  rw [spans_ofNames proper]
  unfold ofNames
  by_cases only : names = []
  · subst only
    refine ⟨[], ?_, fun other => ?_, ?_⟩
    · rw [List.nil_append, String.intercalate_singleton]
      rfl
    · rw [List.nil_append, String.intercalate_singleton]
      rfl
    · rw [List.nil_append, String.intercalate_singleton, spansFrom_name own]
      simp
  · refine ⟨("/".intercalate names).toList ++ ['/'], ?_, fun other => ?_, ?_⟩
    · rw [toList_intercalate_concat only, List.append_assoc]
      rfl
    · rw [toList_intercalate_concat only, List.append_assoc]
      rfl
    · rw [toList_intercalate_concat only, spansFrom_slash, spansFrom_name own,
        List.getLast?_append]
      simp

/-- Without its extension a path of names has the stem of the last one. -/
theorem withoutExtension_ofNames (proper : Place.Proper (names ++ [stem ++ "." ++ ext]))
    (full : stem ≠ "") (plain : '.' ∉ ext.toList) :
    (ofNames (names ++ [stem ++ "." ++ ext])).withoutExtension = ofNames (names ++ [stem]) := by
  obtain ⟨above, text, others, last⟩ := last_span proper
  unfold withoutExtension
  rw [last]
  dsimp only
  rw [splitName_ext full plain]
  unfold slice
  rw [text, List.drop_zero, String.toList_append, String.toList_append, List.append_assoc,
    ← List.append_assoc, ← String.length_toList, ← List.length_append, List.take_left, ← others,
    String.ofList_toList]

theorem extension_join (base : Path) (proper : Place.Proper (names ++ [stem ++ "." ++ ext]))
    (full : stem ≠ "") (plain : '.' ∉ ext.toList) :
    (base.join (ofNames (names ++ [stem ++ "." ++ ext]))).extension? = some ext := by
  unfold extension?
  rw [fileName_eq, parts_join base proper, List.map_append, ← List.append_assoc,
    List.getLast?_append]
  show (splitName (stem ++ "." ++ ext)).2 = some ext
  rw [splitName_ext full plain]

/-- What is left of a path of names below its first one. -/
theorem stripPrefix_first (proper : Place.Proper (name :: names)) (below : names ≠ []) :
    (ofNames (name :: names)).stripPrefix? ⟨name⟩ = some (ofNames names) := by
  obtain ⟨own, others⟩ := List.forall_mem_cons.1 proper
  have full : name ≠ "" := by
    rintro rfl
    exact own.2.1 rfl
  have joined : (⟨name⟩ : Path).join (ofNames names) = ofNames (name :: names) := by
    have last : name.toList.getLast? ≠ some '/' := fun slash => own.1 (List.mem_of_getLast? slash)
    have chars : ((⟨name⟩ : Path).join (ofNames names)).text.toList = _ :=
      toList_join full others
    rw [if_neg last] at chars
    refine congrArg Path.mk (String.toList_inj.1 (chars.trans ?_))
    rw [String.intercalate_cons_of_ne_nil below, String.toList_append, String.toList_append]
    rfl
  rw [← joined]
  exact stripPrefix_join _ others below

/-- Without slashes the file name is the whole text. -/
theorem fileName_plain (plain : '/' ∉ p.text.toList) (named : p.fileName? = some name) :
    name = p.text := by
  rw [fileName_eq] at named
  obtain ⟨part, last, normal⟩ := Option.bind_eq_some_iff.1 named
  have relative : ∀ rest, p.text.toList ≠ '/' :: rest := by
    intro rest text
    rw [text] at plain
    exact plain List.mem_cons_self
  have there : part ∈ FileTree.solid p.parts := by
    refine List.mem_filter.2 ⟨List.mem_of_getLast? last, decide_eq_true ?_⟩
    rintro rfl
    cases normal
  rw [← FileTree.solid_steps, steps_of_relative relative, FileTree.stepsFrom_segment plain] at there
  have only := List.mem_singleton.1 (List.mem_of_mem_filter there)
  rw [only] at normal
  unfold FileTree.stepOf at normal
  split at normal
  · cases normal
  · cases normal
  · cases normal
  · cases normal
    exact String.ofList_toList

end Path

/-! ## Segments of names -/

/-- The segments of a name between slashes. -/
def segments (name : String) : List String := (name.toList.splitOn '/').map String.ofList

theorem intercalate_segments (name : String) : "/".intercalate (segments name) = name := by
  have own : (segments name).map String.toList = name.toList.splitOn '/' := by
    unfold segments
    rw [List.map_map]
    exact List.map_id'' (fun _ => String.toList_ofList) _
  apply String.toList_inj.1
  rw [String.toList_intercalate, own]
  exact List.intercalate_splitOn '/'

theorem not_mem_splitOn {sep : Char} {part text : List Char} (there : part ∈ text.splitOn sep) :
    sep ∉ part := by
  induction text generalizing part with
  | nil =>
      rw [List.mem_singleton.1 there]
      exact List.not_mem_nil
  | cons c rest ih =>
      rw [List.splitOn_cons_eq_if_modifyHead] at there
      split at there
      · rcases List.mem_cons.1 there with rfl | later
        · exact List.not_mem_nil
        · exact ih later
      · rename_i other
        cases split : rest.splitOn sep with
        | nil => exact absurd split (List.splitOn_ne_nil sep rest)
        | cons first more =>
            rw [split, List.modifyHead_cons] at there
            rw [split] at ih
            rcases List.mem_cons.1 there with rfl | later
            · rw [List.mem_cons, not_or]
              exact ⟨fun same => other (beq_iff_eq.2 same.symm), ih List.mem_cons_self⟩
            · exact ih (List.mem_cons_of_mem _ later)

theorem mem_intercalate {c : Char} {names : List String}
    (there : c ∈ ("/".intercalate names).toList) : c = '/' ∨ ∃ s ∈ names, c ∈ s.toList := by
  induction names with
  | nil => cases there
  | cons name rest ih =>
      by_cases only : rest = []
      · subst only
        rw [String.intercalate_singleton] at there
        exact .inr ⟨name, List.mem_cons_self, there⟩
      · rw [String.intercalate_cons_of_ne_nil only, String.toList_append, String.toList_append,
          List.mem_append, List.mem_append] at there
        rcases there with (own | slash) | later
        · exact .inr ⟨name, List.mem_cons_self, own⟩
        · exact .inl (List.mem_singleton.1 slash)
        · exact (ih later).imp_right fun ⟨s, among, own⟩ => ⟨s, List.mem_cons_of_mem _ among, own⟩

/-- A name that a source file can have: no segment is empty, is that of a hidden file or has a
question mark, and the last one has no extension. -/
structure FileName (name : String) : Prop where
  segment : ∀ s ∈ segments name, s ≠ "" ∧ isHidden s = false ∧ '?' ∉ s.toList
  last : ∀ s ∈ (segments name).getLast?, '.' ∉ s.toList

namespace FileName

variable {name : String}

/-- The segments are names of files that are not hidden. -/
theorem proper (plain : FileName name) : Place.Proper (segments name) := by
  intro s there
  obtain ⟨full, visible, -⟩ := plain.segment s there
  obtain ⟨chars, part, rfl⟩ := List.mem_map.1 there
  have dotted (rest : List Char) : (String.ofList chars).toList ≠ '.' :: rest := by
    intro own
    unfold isHidden at visible
    rw [own] at visible
    cases visible
  refine ⟨?_, by simpa using full, dotted [], dotted ['.']⟩
  rw [String.toList_ofList]
  exact not_mem_splitOn part

theorem exists_last (plain : FileName name) :
    ∃ above last, segments name = above ++ [last] ∧ '.' ∉ last.toList := by
  rcases List.eq_nil_or_concat (segments name) with none | ⟨above, last, split⟩
  · exact absurd (List.map_eq_nil_iff.1 none) (List.splitOn_ne_nil '/' _)
  · rw [List.concat_eq_append] at split
    exact ⟨above, last, split, plain.last last (by rw [split]; simp)⟩

/-- The last segment has no dot, and neither has what is behind a backslash in it. -/
theorem hasExtension (plain : FileName name) : TemplateCache.hasExtension name = false := by
  obtain ⟨above, last, split, dotless⟩ := plain.exists_last
  have chars : ∃ front, name.toList.reverse = last.toList.reverse ++ front ∧
      (front = [] ∨ front.head? = some '/') := by
    rw [← intercalate_segments name, split]
    by_cases only : above = []
    · subst only
      refine ⟨[], ?_, .inl rfl⟩
      rw [List.nil_append, String.intercalate_singleton, List.append_nil]
    · refine ⟨'/' :: ("/".intercalate above).toList.reverse, ?_, .inr rfl⟩
      rw [Path.toList_intercalate_concat only]
      simp
  obtain ⟨front, reversed, ends⟩ := chars
  generalize own : (name.toList.reverse.takeWhile fun c => c != '/' && c != '\\').reverse = tail
  have inside : ∀ c ∈ tail, c ∈ last.toList ∧ c ≠ '/' := by
    intro c there
    rw [← own, List.mem_reverse] at there
    have passes := List.mem_takeWhile_imp there
    refine ⟨?_, by simp at passes; exact passes.1⟩
    rw [reversed, List.takeWhile_append] at there
    split at there
    · rcases ends with rfl | slash
      · simpa using there
      · obtain ⟨rest, rfl⟩ := List.head?_eq_some_iff.1 slash
        simpa using there
    · exact List.mem_reverse.1 (List.takeWhile_subset _ there)
  have plainTail : '/' ∉ (⟨String.ofList tail⟩ : Path).text.toList := by
    rw [String.toList_ofList]
    exact fun slash => (inside _ slash).2 rfl
  unfold TemplateCache.hasExtension Path.extension?
  dsimp only
  rw [own]
  cases named : Path.fileName? ⟨String.ofList tail⟩ with
  | none => rfl
  | some file =>
      cases Path.fileName_plain plainTail named
      show (Path.splitName _).2.isSome = false
      rw [Path.splitName_plain]
      · rfl
      · rw [String.toList_ofList]
        exact fun dot => dotless (inside _ dot).1

end FileName

/-! ## Keys of files -/

/-- An extension that a source file can have behind its dot. -/
def FileExtension (ext : String) : Prop :=
  ext ≠ "" ∧ '.' ∉ ext.toList ∧ '/' ∉ ext.toList ∧ '?' ∉ ext.toList

instance : DecidablePred FileExtension := fun _ => inferInstanceAs (Decidable (_ ∧ _ ∧ _ ∧ _))

namespace Resolver

variable {r : Resolver} {rules : NamingRules} {name ext : String} {extension : Option String}

theorem rules_ofRules (made : ofRules? rules = .ok r) : r.rules = rules := by
  unfold ofRules? at made
  split at made
  · cases made
    rfl
  · split at made
    · cases made
      rfl
    · cases made

theorem withDot_ext (plain : FileExtension ext) : withDot ext = "." ++ ext := by
  obtain ⟨full, dotless, -, -⟩ := plain
  unfold withDot
  rw [if_neg]
  intro either
  rw [Bool.or_eq_true, String.isEmpty_iff, beq_iff_eq] at either
  rcases either with empty | dot
  · exact full empty
  · exact dotless (List.mem_of_mem_head? dot)

/-- The names on the way to the source file of a name, below the prefix. -/
def fileNames (name ext : String) : List String :=
  (segments name).dropLast ++ [(segments name).getLast?.getD "" ++ "." ++ ext]

theorem fileNames_ne (name ext : String) : fileNames name ext ≠ [] :=
  List.append_ne_nil_of_right_ne_nil _ (List.cons_ne_nil _ _)

theorem fileNames_eq {above : List String} {last : String}
    (split : segments name = above ++ [last]) (ext : String) :
    fileNames name ext = above ++ [last ++ "." ++ ext] := by
  unfold fileNames
  rw [split, List.dropLast_concat, List.getLast?_append]
  rfl

/-- The path of the source file of a name. -/
def sourceText (name ext : String) : String := "/".intercalate ("partials" :: fileNames name ext)

theorem sourceText_eq (name ext : String) :
    sourceText name ext = "partials/" ++ name ++ "." ++ ext := by
  have named := Store.intercalate_last (segments name) ("." ++ ext)
  simp only [← String.append_assoc] at named
  rw [intercalate_segments] at named
  unfold sourceText
  rw [String.intercalate_cons_of_ne_nil (fileNames_ne name ext), fileNames, named]
  apply String.toList_inj.1
  simp

/-- The key of a name without parameters is the path of its source file. -/
theorem resolve_partial (standard : r.rules = .standard) (named : Text.isBlankOnly name = false)
    (plain : FileName name) (below : r.isVerbatim name = false)
    (role : name ≠ "template" ∧ name ≠ "context")
    (clean : ∀ e ∈ extension, FileExtension e) :
    r.resolve name .content extension none =
      .ok (sourceText name (extension.getD "html")) := by
  have partialDoc : r.rules.docRole name = .partialDoc := by
    rw [standard]
    unfold NamingRules.docRole
    rw [if_neg (show ¬name = NamingRules.standard.templateName from role.1),
      if_neg (show ¬name = NamingRules.standard.contextName from role.2)]
  have placed : placeBelow (r.rules.base .partialDoc) name = "partials/" ++ name := by
    have first : name.toList.head? ≠ some '/' := by
      intro slash
      obtain ⟨rest, chars⟩ := List.head?_eq_some_iff.1 slash
      rw [← intercalate_segments name] at chars
      exact Path.head_intercalate plain.proper rest chars
    have whole : name.toList.dropWhile (· == '/') = name.toList := by
      cases chars : name.toList with
      | nil => rfl
      | cons c rest =>
          rw [chars] at first
          exact List.dropWhile_cons_of_neg (by simpa using first)
    have trimmed : ("partials".toList.reverse.dropWhile (· == '/')).reverse =
        "partials".toList := by decide
    rw [standard]
    show placeBelow "partials" name = _
    unfold placeBelow
    dsimp only
    rw [whole, trimmed]
    apply String.toList_inj.1
    simp
  have added : extension.elim (r.roleExtension .partialDoc) withDot =
      "." ++ extension.getD "html" := by
    cases extension with
    | none =>
        unfold roleExtension
        rw [standard]
        decide
    | some ext => exact withDot_ext (clean ext rfl)
  unfold resolve assemble location
  rw [named, plain.hasExtension, below, partialDoc]
  simp only [Bool.false_eq_true, if_false]
  rw [placed, added, sourceText_eq]
  simp [suffix, query, String.append_assoc]

/-- A source file has the key of its name and extension. -/
theorem resolveFile_partial (standard : r.rules = .standard)
    (named : Text.isBlankOnly name = false) (plain : FileName name)
    (below : r.isVerbatim name = false) (role : name ≠ "template" ∧ name ≠ "context")
    (clean : FileExtension ext) :
    r.resolveFile name .content ext none = .ok (sourceText name ext) := by
  have resolved := resolve_partial standard named plain below role
    (show ∀ e ∈ some ext, FileExtension e by rintro _ ⟨⟩; exact clean)
  unfold resolve at resolved
  rw [plain.hasExtension] at resolved
  exact resolved

end Resolver

/-! ## Files of names -/

namespace FileName

variable {name ext : String}

theorem fileNames_proper (plain : FileName name) (clean : FileExtension ext) :
    Place.Proper ("partials" :: Resolver.fileNames name ext) := by
  obtain ⟨above, last, split, -⟩ := plain.exists_last
  have proper := plain.proper
  rw [split] at proper
  obtain ⟨own, final⟩ := List.forall_mem_append.1 proper
  rw [Resolver.fileNames_eq split]
  refine List.forall_mem_cons.2 ⟨by decide, List.forall_mem_append.2 ⟨own,
    List.forall_mem_singleton.2 ?_⟩⟩
  exact Path.properName_ext (final last (by simp))
    (plain.segment last (by rw [split]; simp)).2.1 clean.2.2.1

theorem fileNames_visible (plain : FileName name) (ext : String) :
    Walk.Visible ("partials" :: Resolver.fileNames name ext) := by
  obtain ⟨above, last, split, -⟩ := plain.exists_last
  have segment := plain.segment
  rw [split] at segment
  obtain ⟨own, final⟩ := List.forall_mem_append.1 segment
  obtain ⟨full, visible, -⟩ := final last (by simp)
  rw [Resolver.fileNames_eq split]
  refine List.forall_mem_cons.2 ⟨by decide, List.forall_mem_append.2 ⟨fun s there =>
    (own s there).2.1, List.forall_mem_singleton.2 ?_⟩⟩
  rw [String.append_assoc, Path.isHidden_append full]
  exact visible

/-- The key of a source file has no query. -/
theorem splitQuery_sourceText (plain : FileName name) (clean : FileExtension ext) :
    splitQuery (Resolver.sourceText name ext) = (Resolver.sourceText name ext, none) := by
  have own : '?' ∉ name.toList := by
    intro mark
    rw [← intercalate_segments name] at mark
    rcases mem_intercalate mark with slash | ⟨s, there, mark⟩
    · cases slash
    · exact (plain.segment s there).2.2 mark
  have unmarked : '?' ∉ (Resolver.sourceText name ext).toList := by
    rw [Resolver.sourceText_eq]
    simp [own, clean.2.2.2]
  have split := Resolver.splitQuery_query unmarked none
  rwa [Resolver.query, String.append_empty] at split

/-- Below the prefix and without the extension, the path of the file is the name. -/
theorem stem_eq (plain : FileName name) (clean : FileExtension ext) :
    (Path.ofNames (Resolver.fileNames name ext)).withoutExtension.normalNames =
      segments name := by
  obtain ⟨above, last, split, -⟩ := plain.exists_last
  have proper := (List.forall_mem_cons.1 (plain.fileNames_proper clean)).2
  have own := plain.proper
  have full : last ≠ "" := (plain.segment last (by rw [split]; simp)).1
  rw [Resolver.fileNames_eq split] at proper ⊢
  rw [split] at own ⊢
  rw [Path.withoutExtension_ofNames proper full clean.2.1, Path.normalNames_ofNames own]

theorem extension_eq (plain : FileName name) (clean : FileExtension ext) (base : Path) :
    (base.join (Path.ofNames ("partials" :: Resolver.fileNames name ext))).extension? =
      some ext := by
  obtain ⟨above, last, split, -⟩ := plain.exists_last
  have proper := plain.fileNames_proper clean
  have full : last ≠ "" := (plain.segment last (by rw [split]; simp)).1
  rw [Resolver.fileNames_eq split, ← List.cons_append] at proper ⊢
  exact Path.extension_join base proper full clean.2.1

end FileName

namespace Store

variable {s : Sources} {name ext key : String}

theorem fileOf_sourceText (s : Sources) (plain : FileName name) (clean : FileExtension ext) :
    s.fileOf (Resolver.sourceText name ext) =
      s.pathOf ("partials" :: Resolver.fileNames name ext) := by
  have proper := plain.fileNames_proper clean
  have relative := Path.isAbsolute_ofNames proper
  have names := Path.normalNames_ofNames proper
  unfold Sources.fileOf
  rw [plain.splitQuery_sourceText clean]
  show (if (Path.ofNames ("partials" :: Resolver.fileNames name ext)).isAbsolute = true then _
    else s.settings.sourceDir.join (Path.ofNames (Path.normalNames (Path.ofNames _)))) = _
  rw [relative, if_neg Bool.false_ne_true, names]
  rfl

/-- The source file of a name and an extension has this name, and its key. -/
theorem nameOf_sourceText (standard : s.resolver.rules = .standard)
    (prefixed : s.settings.partialPrefix = "partials") (named : Text.isBlankOnly name = false)
    (plain : FileName name) (below : s.resolver.isVerbatim name = false)
    (role : name ≠ "template" ∧ name ≠ "context") (clean : FileExtension ext) :
    s.nameOf (s.fileOf (Resolver.sourceText name ext)) = some name ∧
      s.keyOf name (s.fileOf (Resolver.sourceText name ext)) =
        .ok (Resolver.sourceText name ext) := by
  have proper := plain.fileNames_proper clean
  have own := fileOf_sourceText s plain clean
  have keyed : s.keyOf name (s.fileOf (Resolver.sourceText name ext)) =
      .ok (Resolver.sourceText name ext) := by
    unfold Sources.keyOf
    rw [own, Sources.pathOf, plain.extension_eq clean]
    exact Resolver.resolveFile_partial standard named plain below role clean
  refine ⟨?_, keyed⟩
  have relative : s.relative? (s.fileOf (Resolver.sourceText name ext)) =
      some (Path.ofNames ("partials" :: Resolver.fileNames name ext)) := by
    rw [own]
    exact Sources.relative_pathOf s proper (List.cons_ne_nil _ _)
  have shown : (Path.ofNames ("partials" :: Resolver.fileNames name ext)).parts.all
      (fun part => part.normal?.any fun name => !isHidden name) = true := by
    rw [Path.parts_ofNames proper, List.all_eq_true]
    intro part there
    obtain ⟨n, among, rfl⟩ := List.mem_map.1 there
    show (!isHidden n) = true
    rw [plain.fileNames_visible ext n among]
    rfl
  have stripped : (Path.ofNames ("partials" :: Resolver.fileNames name ext)).stripPrefix?
      ⟨s.settings.partialPrefix⟩ = some (Path.ofNames (Resolver.fileNames name ext)) := by
    rw [prefixed]
    exact Path.stripPrefix_first proper (Resolver.fileNames_ne name ext)
  have full : name.isEmpty = false := by
    rw [Bool.eq_false_iff, Ne, String.isEmpty_iff]
    rintro rfl
    cases named
  have there : (s.fileOf (Resolver.sourceText name ext)).same
      (s.settings.sourceDir.join (Path.ofNames
        (Path.ofNames ("partials" :: Resolver.fileNames name ext)).normalNames)) = true := by
    rw [Path.normalNames_ofNames proper, own]
    exact Path.same_refl _
  unfold Sources.nameOf
  rw [relative]
  simp only [Option.bind_eq_bind, Option.bind_some, shown, guard_true, stripped, Option.getD_some,
    plain.stem_eq clean, intercalate_segments, full, keyed, there, Bool.not_false, Except.toOption]
  rfl

/-! ## Loading files of names -/

namespace Files

open Job

variable {path : Path}

/-- Reading a file that may be something else gives its text if it has one. -/
theorem safely_load (site : Site Output) (path : Path) (target : String) :
    (do
      match ← transfer fun t => (t.status path, t) with
      | .ok (.file _) => readText path target
      | .ok _ => return none
      | .error .notFound => return none
      | .error kind => throw (fileError target kind) : Filing (Option String)).run.Safely
      (fun _ => True) (fun r u => u = site ∧ ((∃ e, r = .error e) ∨
        r = .ok (site.environment.files.readText path).toOption)) site := by
  refine Safely.bindExcept (safely_transfer trivial ?_)
  have unread (there : ∀ bytes, site.environment.files.status path ≠ .ok (.file bytes)) :
      (site.environment.files.readText path).toOption = none := by
    unfold FileTree.readText FileTree.read
    rcases found : site.environment.files.status path with kind | (bytes | _ | target)
    · rfl
    · exact absurd found (there bytes)
    · rfl
    · rfl
  dsimp only
  split
  · refine (safely_readText site path target).mono (fun _ => trivial) ?_
    rintro (e | (_ | text)) u ⟨rfl, read⟩
    · exact ⟨rfl, .inl ⟨e, rfl⟩⟩
    · refine ⟨rfl, .inr ?_⟩
      cases own : u.environment.files.readText path with
      | ok text => cases (read text).2 own
      | error kind => rfl
    · refine ⟨rfl, .inr ?_⟩
      rw [(read text).1 rfl]
      rfl
  · rename_i e other found
    refine ⟨rfl, .inr (congrArg Except.ok (unread fun bytes there => ?_).symm)⟩
    exact other bytes (Except.ok.inj (found.symm.trans there))
  · rename_i found
    exact ⟨rfl, .inr (congrArg Except.ok (unread fun bytes there =>
      nomatch found.symm.trans there).symm)⟩
  · exact ⟨rfl, .inl ⟨_, rfl⟩⟩

/-- Loading a source file fails, or it gives the record of the file if this can be read. -/
theorem safely_readSource (named : s.nameOf path = some name) (keyed : s.keyOf name path = .ok key)
    (site : Site Output) (token : Token) :
    (readSource s path token).run.Safely (fun _ => True) (fun r _ => (∃ e, r = .error e) ∨
      r = .ok ((site.environment.files.readText path).toOption.map
        (sourceRecord path name key))) site := by
  unfold readSource
  rw [named]
  refine Safely.bindExcept (Safely.within trivial (fun r u _ early => ?_)
    ((safely_load site path path.text).mono (fun _ => trivial) ?_))
  · rcases early with rfl | rfl <;> exact .inl ⟨_, rfl⟩
  rintro (e | source) u ⟨rfl, failed | read⟩
  · exact .inl ⟨e, rfl⟩
  · cases read
  · obtain ⟨e, failed⟩ := failed
    cases failed
  rw [← Except.ok.inj read]
  cases source with
  | none => exact .inr rfl
  | some source =>
      dsimp only
      -- The record is made of the text, whatever directories are made before.
      have makes (v : Site Output) : (do
          let key ← Storing.naming (s.keyOf name path)
          let extension := path.extension?
          some <$> Storing.keepContent
            (.make name key (.ofSource source extension) .discovered extension none) :
            Filing (Option ContentRecord)).run.Safely (fun _ => True)
          (fun r _ => (∃ e, r = .error e) ∨
            r = .ok ((some source).map (sourceRecord path name key))) v := by
        rw [keyed]
        exact ⟨trivial, .inr rfl⟩
      split
      · exact makes u
      · rename_i above nearest
        split
        · exact makes u
        · refine Safely.bindExcept ((safely_outputRoot u s.settings).mono (fun _ => trivial) ?_)
          rintro (e | root) v -
          · exact .inl ⟨e, rfl⟩
          · refine Safely.bindExcept
              ((safely_provideDir v (root.join above)).mono (fun _ => trivial) ?_)
            rintro (e | _) w -
            · exact .inl ⟨e, rfl⟩
            · exact makes w

end Files

/-- With the standard rules and prefix, a name that a source file can have is the name of the file
that its key leads to, whatever its extension, and the file has that key. -/
theorem source_names_round_trip {s : Sources} {name : String} {extension : Option String}
    (standard : Resolver.ofRules? .standard = .ok s.resolver)
    (prefixed : s.settings.partialPrefix = "partials") (named : Text.isBlankOnly name = false)
    (plain : FileName name) (below : s.resolver.isVerbatim name = false)
    (role : name ≠ "template" ∧ name ≠ "context")
    (clean : ∀ ext ∈ extension, FileExtension ext) :
    ∃ key, s.resolver.resolve name .content extension none = .ok key ∧
      s.nameOf (s.fileOf key) = some name ∧ s.keyOf name (s.fileOf key) = .ok key ∧
      ∀ (site : Site Output) (token : Token),
        (Files.readSource s (s.fileOf key) token).run.Safely (fun _ => True)
          (fun r _ => (∃ e, r = .error e) ∨
            r = .ok ((site.environment.files.readText (s.fileOf key)).toOption.map
              (sourceRecord (s.fileOf key) name key))) site := by
  have rules := Resolver.rules_ofRules standard
  have own : FileExtension (extension.getD "html") := by
    cases extension with
    | none => decide
    | some ext => exact clean ext rfl
  obtain ⟨found, keyed⟩ := nameOf_sourceText rules prefixed named plain below role own
  exact ⟨_, Resolver.resolve_partial rules named plain below role clean, found, keyed,
    Files.safely_readSource found keyed⟩

end Store

namespace Sample

/-- Sources with a resolver of their own. -/
def sourced (r : Resolver) : Store.Sources where
  settings := { sourceDir := ⟨"/in"⟩ }
  resolver := r
  canonicalDir := none

end Sample

open Sample in
/-- A name that begins like the prefix, with a dot in a directory. -/
theorem Store.dotted_directory_round_trips : ∃ r key,
    Resolver.ofRules? .standard = .ok r ∧ (sourced r).settings.partialPrefix = "partials" ∧
    Text.isBlankOnly "partials/a.b/c" = false ∧ FileName "partials/a.b/c" ∧
    r.isVerbatim "partials/a.b/c" = false ∧ FileExtension "txt" ∧
    r.resolve "partials/a.b/c" .content (some "txt") none = .ok key ∧
    (sourced r).nameOf ((sourced r).fileOf key) = some "partials/a.b/c" ∧
    (sourced r).keyOf "partials/a.b/c" ((sourced r).fileOf key) = .ok key := by
  have below : (Resolver.ofRules? .standard).toOption.map (·.isVerbatim "partials/a.b/c") =
      some false := by cbv
  obtain ⟨r, standard, below⟩ := Option.map_eq_some_iff.1 below
  have standard : Resolver.ofRules? .standard = .ok (sourced r).resolver :=
    Sources.toOption_eq_some standard
  have named : Text.isBlankOnly "partials/a.b/c" = false := by decide
  have plain : FileName "partials/a.b/c" := ⟨by decide, by decide⟩
  have clean : FileExtension "txt" := by decide
  obtain ⟨key, resolved, found, keyed, -⟩ := source_names_round_trip standard rfl
    named plain below ⟨by decide, by decide⟩ (show ∀ ext ∈ some "txt", FileExtension ext by
      rintro _ ⟨⟩; exact clean)
  exact ⟨r, key, standard, rfl, named, plain, below, clean, resolved, found, keyed⟩

end TemplateCache
