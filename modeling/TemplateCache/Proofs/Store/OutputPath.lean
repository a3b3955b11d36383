import TemplateCache.Proofs.Files.Below
import TemplateCache.Store.Files

/-!
# Files of keys

The file that an output directory has for a key is found by names: the normal parts of the path part
of the key, and behind the last one a dot and the digest of the query. A digest has neither dots nor
slashes, so two keys whose path parts are plain have the same names only if they are the same key,
or if one of them has no query and looks like the other one with the digest.
-/

namespace TemplateCache

/-! ## Digests -/

namespace Blake3

theorem length_round (s message : Words) : (round s message).length = s.length := by
  unfold round
  generalize quarters.zipIdx = quarters
  induction quarters generalizing s with
  | nil => rfl
  | cons quarter quarters ih =>
      rw [List.foldl_cons, ih]
      simp [mix]

theorem length_rounds (n : Nat) (s message : Words) : (rounds n s message).length = s.length := by
  induction n generalizing s message with
  | zero => rfl
  | succ n ih => rw [rounds, ih, length_round]

theorem length_compress {chaining message : Words} {counter : UInt64} {length flags : UInt32}
    (whole : chaining.length = 8) :
    (compress chaining message counter length flags).length = 8 := by
  unfold compress
  dsimp only
  rw [List.length_zipWith, List.length_take, List.length_drop, length_rounds]
  simp [whole, initial]

theorem length_compressBlocks {counter : UInt64} {last flags : UInt32} {fuel : Nat}
    {chaining : Words} {bytes : List UInt8} (whole : chaining.length = 8) :
    (compressBlocks counter last fuel flags chaining bytes).length = 8 := by
  induction fuel generalizing flags chaining bytes with
  | zero => exact whole
  | succ fuel ih =>
      unfold compressBlocks
      split
      · exact length_compress whole
      · exact ih (length_compress whole)

theorem length_treeValue (fuel counter : Nat) (last : UInt32) (bytes : List UInt8) :
    (treeValue fuel counter last bytes).length = 8 := by
  cases fuel with
  | zero => exact length_compressBlocks rfl
  | succ fuel =>
      unfold treeValue
      split
      · exact length_compressBlocks rfl
      · exact length_compress rfl

theorem mem_toDigitsCore {c : Char} {base fuel n : Nat} {digits : List Char} (some : 0 < base)
    (there : c ∈ Nat.toDigitsCore base fuel n digits) :
    c ∈ digits ∨ ∃ d < base, c = Nat.digitChar d := by
  induction fuel generalizing n digits with
  | zero => exact .inl there
  | succ fuel ih =>
      have own (among : c ∈ Nat.digitChar (n % base) :: digits) :
          c ∈ digits ∨ ∃ d < base, c = Nat.digitChar d := by
        rcases List.mem_cons.1 among with same | later
        · exact .inr ⟨_, Nat.mod_lt n some, same⟩
        · exact .inl later
      unfold Nat.toDigitsCore at there
      dsimp only at there
      split at there
      · exact own there
      · rcases ih there with among | digit
        · exact own among
        · exact .inr digit

/-- A hash is written with hexadecimal digits. -/
theorem mem_hex {c : Char} {bytes : List UInt8} (there : c ∈ hex bytes) :
    ∃ d < 16, c = Nat.digitChar d := by
  unfold hex wordHex hexDigits at there
  obtain ⟨word, -, there⟩ := List.mem_flatMap.1 there
  obtain ⟨byte, -, there⟩ := List.mem_flatMap.1 there
  rcases List.mem_append.1 there with zero | digit
  · exact ⟨0, by decide, (List.mem_replicate.1 zero).2⟩
  · rcases mem_toDigitsCore (by decide) digit with none | digit
    · exact absurd none List.not_mem_nil
    · exact digit

theorem hex_ne_nil (bytes : List UInt8) : hex bytes ≠ [] := by
  have eight := length_treeValue bytes.length 0 root bytes
  unfold hex
  cases words : treeValue bytes.length 0 root bytes with
  | nil => simp [words] at eight
  | cons word words =>
      intro empty
      have digits := (List.append_eq_nil_iff.1 empty).1
      have first := (List.append_eq_nil_iff.1 digits).1
      exact Nat.toDigits_ne_nil (List.append_eq_nil_iff.1 first).2

end Blake3

namespace Path

variable {names : List String} {name : String} {p : Path}

/-! ## Names -/

theorem normalNames_proper (p : Path) : Place.Proper p.normalNames := by
  intro name there
  obtain ⟨part, among, is⟩ := List.mem_filterMap.1 there
  cases part with
  | normal own =>
      cases is
      exact FileTree.parts_proper p name among
  | _ => cases is

theorem last_ofNames (own : ProperName name) :
    (ofNames (names ++ [name])).text.toList.getLast? ≠ some '/' := by
  obtain ⟨front, text⟩ : ∃ front,
      ("/".intercalate (names ++ [name])).toList = front ++ name.toList := by
    by_cases empty : names = []
    · subst empty
      exact ⟨[], by rw [List.nil_append, String.intercalate_singleton, List.nil_append]⟩
    · exact ⟨_, (toList_intercalate_concat empty).trans (List.append_cons _ _ _)⟩
  unfold ofNames
  rw [text, List.getLast?_append, List.getLast?_eq_some_getLast own.2.1, Option.some_or,
    ← List.getLast?_eq_some_getLast own.2.1]
  exact fun slash => own.1 (List.mem_of_getLast? slash)

theorem join_ofNames (proper : Place.Proper names) (own : ProperName name) :
    (ofNames names).join ⟨name⟩ = ofNames (names ++ [name]) := by
  by_cases empty : names = []
  · subst empty
    rw [← ofNames_single]
    unfold join
    rw [isAbsolute_ofNames (List.forall_mem_singleton.2 own : Place.Proper [name])]
    rfl
  · obtain ⟨front, last, rfl⟩ := List.eq_nil_or_concat names |>.resolve_left empty
    rw [List.concat_eq_append] at *
    have full : (ofNames (front ++ [last])).text ≠ "" := by
      intro none
      have parts := parts_ofNames proper
      rw [show ofNames (front ++ [last]) = ofNames [] from congrArg Path.mk none] at parts
      exact empty (List.map_eq_nil_iff.1 parts.symm)
    have joined := toList_join_name full own
    rw [if_neg (last_ofNames (proper last (by simp))), List.append_assoc] at joined
    exact congrArg Path.mk (String.toList_inj.1
      (joined.trans (toList_intercalate_concat empty).symm))

/-- The file name of a path of names is the last one. -/
theorem withFileName_ofNames {new : String} (proper : Place.Proper names) (own : ProperName new) :
    (ofNames names).withFileName new = ofNames (names.dropLast ++ [new]) := by
  unfold withFileName
  rcases List.eq_nil_or_concat names with rfl | ⟨front, last, rfl⟩
  · exact join_ofNames proper own
  · rw [List.concat_eq_append] at *
    have named : (ofNames (front ++ [last])).fileName? = some last := by
      rw [fileName_eq, parts_ofNames proper, List.map_append, List.getLast?_append]
      rfl
    have above : Place.Proper front := fun name there => proper name (List.mem_append_left _ there)
    rw [named, Option.isSome_some, if_pos rfl, parent_ofNames proper, Option.getD_some,
      join_ofNames above own, List.dropLast_concat]

end Path

namespace Store

variable {key name query location : String} {names : List String}

/-! ## Names of files -/

/-- What stands for a query in file names. -/
def queryDigest (query : String) : String :=
  String.ofList ((Blake3.hex query.toUTF8.toList).take 12)

/-- The names on the way to the file of a key, below the output directory. -/
def outputNames (key : String) : List String :=
  let names := Path.normalNames ⟨(splitQuery key).1⟩
  match (splitQuery key).2 with
  | none => names
  | some query => names.dropLast ++ [names.getLast?.getD "" ++ "." ++ queryDigest query]

theorem mem_queryDigest {c : Char} (there : c ∈ (queryDigest query).toList) :
    c ≠ '.' ∧ c ≠ '/' := by
  unfold queryDigest at there
  rw [String.toList_ofList] at there
  obtain ⟨d, small, rfl⟩ := Blake3.mem_hex (List.mem_of_mem_take there)
  have plain : ∀ d < 16, Nat.digitChar d ≠ '.' ∧ Nat.digitChar d ≠ '/' := by decide
  exact plain d small

theorem queryDigest_ne (query : String) : (queryDigest query).toList ≠ [] := by
  unfold queryDigest
  rw [String.toList_ofList]
  intro empty
  rcases List.take_eq_nil_iff.1 empty with none | none
  · cases none
  · exact Blake3.hex_ne_nil _ none

/-- A name with a digest is a name. -/
theorem properName_digest (plain : '/' ∉ name.toList) (query : String) :
    ProperName (name ++ "." ++ queryDigest query) := by
  have chars : (name ++ "." ++ queryDigest query).toList =
      name.toList ++ '.' :: (queryDigest query).toList := by
    simp
  obtain ⟨c, digits, digest⟩ := List.exists_cons_of_ne_nil (queryDigest_ne query)
  have clean : c ≠ '.' := (mem_queryDigest (digest ▸ List.mem_cons_self)).1
  unfold ProperName
  rw [chars]
  refine ⟨?_, by simp, ?_, ?_⟩
  · intro slash
    rcases List.mem_append.1 slash with own | later
    · exact plain own
    · rcases List.mem_cons.1 later with dot | later
      · cases dot
      · exact (mem_queryDigest later).2 rfl
  · intro dot
    have length := congrArg List.length dot
    rw [digest] at length
    simp at length
    omega
  · intro dots
    rw [digest] at dots
    cases own : name.toList with
    | nil =>
        rw [own] at dots
        cases dots
        exact clean rfl
    | cons first rest =>
        have length := congrArg List.length dots
        rw [own] at length
        simp at length
        omega

theorem outputNames_bare (asked : splitQuery key = (location, none)) :
    outputNames key = Path.normalNames ⟨location⟩ := by
  unfold outputNames
  rw [asked]

theorem outputNames_query (asked : splitQuery key = (location, some query)) :
    outputNames key = (Path.normalNames ⟨location⟩).dropLast ++
      [(Path.normalNames ⟨location⟩).getLast?.getD "" ++ "." ++ queryDigest query] := by
  unfold outputNames
  rw [asked]

theorem outputNames_proper (key : String) : Place.Proper (outputNames key) := by
  rcases asked : splitQuery key with ⟨location, none | query⟩
  · rw [outputNames_bare asked]
    exact Path.normalNames_proper _
  · have whole := Path.normalNames_proper ⟨location⟩
    rw [outputNames_query asked]
    refine List.forall_mem_append.2 ⟨fun name there => whole name (List.dropLast_subset _ there),
      List.forall_mem_singleton.2 (properName_digest ?_ _)⟩
    cases last : (Path.normalNames ⟨location⟩).getLast? with
    | none => simp
    | some name => exact (whole name (List.mem_of_getLast? last)).1

/-- The path of a key consists of its names. -/
theorem relativePath_eq (key : String) : relativePath key = Path.ofNames (outputNames key) := by
  have proper := outputNames_proper key
  unfold relativePath
  rcases asked : splitQuery key with ⟨location, none | query⟩
  · rw [outputNames_bare asked]
  · have whole := Path.normalNames_proper ⟨location⟩
    rw [outputNames_query asked] at proper ⊢
    have own := (List.forall_mem_append.1 proper).2 _ (List.mem_singleton_self _)
    rw [← Path.withFileName_ofNames whole own]
    dsimp only
    rw [Path.fileName_eq, Path.parts_ofNames whole, List.getLast?_map]
    cases (Path.normalNames ⟨location⟩).getLast? <;> rfl

/-- The path of a file of the output directory ends in a name. -/
theorem steps_outputPath (dir : Path) (many : outputNames key ≠ []) :
    ∃ front name, FileTree.steps (dir.join (relativePath key)) = front ++ [.normal name] := by
  obtain ⟨names, name, whole⟩ := (List.eq_nil_or_concat (outputNames key)).resolve_left many
  obtain ⟨above, -, joined⟩ := FileTree.steps_names dir (outputNames_proper key) many
  refine ⟨above ++ names.map .normal, name, ?_⟩
  rw [relativePath_eq, joined, whole, List.concat_eq_append, List.map_append, ← List.append_assoc]
  rfl

/-! ## Keys of files -/

theorem splitQuery_injective {key' : String} (same : splitQuery key = splitQuery key') :
    key = key' := by
  have whole (key : String) : key.toList = match splitQuery key with
      | (location, none) => location.toList
      | (location, some query) => location.toList ++ '?' :: query.toList := by
    have parts := List.takeWhile_append_dropWhile (p := (· != '?')) (l := key.toList)
    unfold splitQuery
    dsimp only
    cases rest : key.toList.dropWhile (· != '?') with
    | nil => rfl
    | cons c query =>
        have mark : c = '?' := by
          have stops := List.head?_dropWhile_not (· != '?') key.toList
          rw [rest] at stops
          simpa using stops
        rw [rest, mark] at parts
        simpa using parts.symm
  refine String.toList_inj.1 ?_
  rw [whole key, whole key', same]

/-- A path part without anything but names and single slashes between them. -/
def Plain (key : String) : Prop :=
  (splitQuery key).1 = "/".intercalate (Path.normalNames ⟨(splitQuery key).1⟩)

instance : DecidablePred Plain := fun _ => inferInstanceAs (Decidable (_ = _))

/-- A key without a query that looks like another one with the digest of its query. -/
def LooksLike (key key' : String) : Prop :=
  ∃ location query, splitQuery key' = (location, some query) ∧
    splitQuery key = (location ++ "." ++ queryDigest query, none)

theorem digest_inj {name' query' : String}
    (same : name ++ "." ++ queryDigest query = name' ++ "." ++ queryDigest query') :
    name = name' ∧ queryDigest query = queryDigest query' := by
  have last (name query : String) :
      ((name ++ "." ++ queryDigest query).toList.reverse.takeWhile (· != '.')).reverse =
        (queryDigest query).toList := by
    have clean : ∀ c ∈ (queryDigest query).toList.reverse, (c != '.') = true := fun c there =>
      bne_iff_ne.2 (mem_queryDigest (List.mem_reverse.1 there)).1
    have chars : (name ++ "." ++ queryDigest query).toList.reverse =
        (queryDigest query).toList.reverse ++ '.' :: name.toList.reverse := by
      simp
    rw [chars, List.takeWhile_append_of_pos clean]
    simp
  have digests : queryDigest query = queryDigest query' := by
    refine String.toList_inj.1 ?_
    rw [← last name, ← last name', same]
  rw [digests] at same
  exact ⟨String.append_left_inj "." |>.1 (String.append_left_inj _ |>.1 same), digests⟩

theorem names_ext {names' : List String} (proper : Place.Proper names)
    (proper' : Place.Proper names') (front : names.dropLast = names'.dropLast)
    (last : names.getLast?.getD "" = names'.getLast?.getD "") : names = names' := by
  have named {names : List String} {name : String} (proper : Place.Proper (names ++ [name])) :
      name ≠ "" := by
    rintro rfl
    exact (proper "" (by simp)).2.1 rfl
  rcases List.eq_nil_or_concat names with rfl | ⟨names, name, rfl⟩ <;>
  rcases List.eq_nil_or_concat names' with rfl | ⟨names', name', rfl⟩ <;>
  simp only [List.concat_eq_append, List.dropLast_concat, List.getLast?_append,
    List.getLast?_singleton, Option.some_or, Option.getD_some, List.getLast?_nil,
    Option.getD_none] at *
  · exact absurd last.symm (named proper')
  · exact absurd last (named proper)
  · rw [front, last]

/-- What is behind the last name is behind the text. -/
theorem intercalate_last (names : List String) (ending : String) :
    "/".intercalate (names.dropLast ++ [names.getLast?.getD "" ++ ending]) =
      "/".intercalate names ++ ending := by
  rcases List.eq_nil_or_concat names with rfl | ⟨front, name, rfl⟩
  · simp
  · refine String.toList_inj.1 ?_
    by_cases alone : front = []
    · subst alone
      simp
    · simp only [List.concat_eq_append, List.dropLast_concat, List.getLast?_append,
        List.getLast?_singleton, Option.some_or, Option.getD_some]
      rw [String.toList_append, Path.toList_intercalate_concat alone,
        Path.toList_intercalate_concat alone]
      simp

/-- Plain keys have different files unless one of them looks like the other. -/
theorem key_of_outputNames {key' : String} (plain : Plain key) (plain' : Plain key')
    (digests : ∀ query query', (splitQuery key).2 = some query →
      (splitQuery key').2 = some query' → queryDigest query = queryDigest query' → query = query')
    (same : outputNames key = outputNames key') :
    key = key' ∨ LooksLike key key' ∨ LooksLike key' key := by
  have location_eq {key location : String} {asked : Option String}
      (split : splitQuery key = (location, asked)) (plain : Plain key) :
      location = "/".intercalate (Path.normalNames ⟨location⟩) := by
    unfold Plain at plain
    rw [split] at plain
    exact plain
  have looks {key key' location location' query : String}
      (asked : splitQuery key = (location, none))
      (asked' : splitQuery key' = (location', some query)) (plain : Plain key) (plain' : Plain key')
      (same : outputNames key = outputNames key') : LooksLike key key' := by
    rw [outputNames_bare asked, outputNames_query asked', String.append_assoc] at same
    refine ⟨location', query, asked', asked.trans (congrArg (·, none) ?_)⟩
    calc location
        = "/".intercalate (Path.normalNames ⟨location⟩) := location_eq asked plain
      _ = "/".intercalate (Path.normalNames ⟨location'⟩) ++ ("." ++ queryDigest query) := by
          rw [same, intercalate_last]
      _ = location' ++ "." ++ queryDigest query := by
          rw [← location_eq asked' plain', String.append_assoc]
  rcases asked : splitQuery key with ⟨location, none | query⟩ <;>
  rcases asked' : splitQuery key' with ⟨location', none | query'⟩
  · refine .inl (splitQuery_injective ?_)
    rw [outputNames_bare asked, outputNames_bare asked'] at same
    have locations : location = location' := by
      rw [location_eq asked plain, same, ← location_eq asked' plain']
    rw [asked, asked', locations]
  · exact .inr (.inl (looks asked asked' plain plain' same))
  · exact .inr (.inr (looks asked' asked plain' plain same.symm))
  · refine .inl (splitQuery_injective ?_)
    rw [outputNames_query asked, outputNames_query asked'] at same
    obtain ⟨front, last⟩ := List.append_inj' same rfl
    obtain ⟨last, digest⟩ := digest_inj (List.cons.inj last).1
    have names := names_ext (Path.normalNames_proper _) (Path.normalNames_proper _) front last
    have queries := digests query query' (by rw [asked]) (by rw [asked']) digest
    have locations : location = location' := by
      rw [location_eq asked plain, names, ← location_eq asked' plain']
    rw [asked, asked', locations, queries]

end Store
end TemplateCache
