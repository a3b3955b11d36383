import TemplateCache.Proofs.Url.Below
import TemplateCache.Proofs.Url.Encoding

/-!
# References that mean what they say

A reference is literal if nothing in it has a meaning of its own: no scheme, slash or drive letter
in front, no fragment, no dot segments, and nothing that reading takes away. The path of the URL is
then that of the base with the encoded reference behind it.
-/

namespace TemplateCache.Url

variable {u base : Url} {scheme : String} {front done : List String} {path : List Char}
  {parts : List (List Char)}

/-! ## Segments without a meaning -/

theorem toList_encode_slash (path : List Char) :
    (encode keepsPath ('/' :: path)).toList = '/' :: (encode keepsPath path).toList := by
  rw [toList_encode_cons]
  rfl

/-- The encoded segments of a path, each behind a slash, are the encoded path. -/
theorem flatMap_encode (path : List Char) :
    ((Text.splitOn '/' path).flatMap fun part => '/' :: (encode keepsPath part).toList) =
      '/' :: (encode keepsPath path).toList := by
  fun_induction Text.splitOn '/' path with
  | case1 => exact List.append_nil _
  | case2 rest ih =>
      rw [List.flatMap_cons, ih, toList_encode_slash, toList_encode]
      rfl
  | case3 c rest other first more parts ih =>
      rw [parts, List.flatMap_cons, List.cons_append] at ih
      rw [List.flatMap_cons, List.cons_append, toList_encode_cons, toList_encode_cons,
        List.append_assoc, (List.cons.inj ih).2]
  | case4 c rest other none => exact absurd none (Text.splitOn_ne_nil '/' rest)

theorem segmentText_literal {part : List Char}
    (driveless : scheme = "file" → done = [] → isDriveLetter part = false) :
    segmentText scheme done part = encode keepsPath part := by
  unfold segmentText
  split
  · rename_i drive
    simp only [Bool.and_eq_true, beq_iff_eq, List.isEmpty_iff] at drive
    obtain ⟨⟨file, first⟩, letter⟩ := drive
    cases letter.symm.trans (driveless file first)
  · rfl

/-- Segments without a meaning are added as they are written. -/
theorem addSegments_literal (any : parts ≠ [])
    (solid : ∀ part ∈ parts, isDoubleDot part = false ∧ isSingleDot part = false)
    (driveless : scheme = "file" → done = [] → ∀ part ∈ parts.head?, isDriveLetter part = false) :
    addSegments scheme done parts = done ++ parts.map (encode keepsPath) := by
  fun_induction addSegments scheme done parts with
  | case1 => exact absurd rfl any
  | case2 done last double => simp [double] at solid
  | case3 done last _ single => simp [single] at solid
  | case4 done last _ _ =>
      rw [segmentText_literal fun file first => driveless file first last rfl]
      rfl
  | case5 done segment rest many double ih => simp [double] at solid
  | case6 done segment rest many double single ih => simp [single] at solid
  | case7 done segment rest many double single ih =>
      rw [ih many (List.forall_mem_cons.1 solid).2 fun _ none => by simp at none,
        segmentText_literal fun file first => driveless file first segment rfl, List.append_assoc]
      rfl

theorem encode_ne_empty {keeps : UInt8 → Bool} (full : path ≠ []) : encode keeps path ≠ "" := by
  obtain ⟨c, rest, rfl⟩ := List.exists_cons_of_ne_nil full
  intro empty
  have chars := congrArg String.toList empty
  rw [toList_encode_cons] at chars
  cases bytes : String.utf8EncodeChar c with
  | nil => exact absurd bytes (by simp [String.utf8EncodeChar_ne_nil])
  | cons b more =>
      rw [bytes, percentEncode_cons] at chars
      split at chars <;> cases chars

/-! ## Literal references -/

/-- Nothing in the path of a reference has a meaning of its own. -/
structure Literal (scheme : String) (path : List Char) : Prop where
  full : path ≠ []
  counted : counted (String.ofList path) = path
  unmarked : '#' ∉ path ∧ '?' ∉ path
  schemeless : splitScheme? path = none
  slashless : path.head?.any isAnySlash = false
  driveless : scheme = "file" → startsWithDrive path = false
  forward : isSpecialScheme scheme = true → '\\' ∉ path
  solid : ∀ part ∈ Text.splitOn '/' path, isDoubleDot part = false ∧ isSingleDot part = false

instance : Decidable (Literal scheme path) :=
  decidable_of_iff (path ≠ [] ∧ Url.counted (String.ofList path) = path ∧
    ('#' ∉ path ∧ '?' ∉ path) ∧ splitScheme? path = none ∧ path.head?.any isAnySlash = false ∧
    (scheme = "file" → startsWithDrive path = false) ∧
    (isSpecialScheme scheme = true → '\\' ∉ path) ∧
    ∀ part ∈ Text.splitOn '/' path, isDoubleDot part = false ∧ isSingleDot part = false)
    ⟨fun ⟨a, b, c, d, e, f, g, h⟩ => ⟨a, b, c, d, e, f, g, h⟩,
      fun ⟨a, b, c, d, e, f, g, h⟩ => ⟨a, b, c, d, e, f, g, h⟩⟩

namespace Literal

theorem splitFirst_whole {sep : Char} (whole : sep ∉ path) :
    splitFirst sep path = (path, none) := by
  have passes : ∀ c ∈ path, (c != sep) = true := by
    intro c there
    rw [bne_iff_ne]
    rintro rfl
    exact whole there
  unfold splitFirst
  rw [List.dropWhile_eq_nil_iff.2 passes]

theorem tail (literal : Literal scheme path) : splitTail path = ⟨path, none, none⟩ := by
  unfold splitTail
  rw [splitFirst_whole literal.unmarked.1]
  dsimp only
  rw [splitFirst_whole literal.unmarked.2]

theorem partsOf_eq (literal : Literal scheme path) :
    partsOf scheme path = Text.splitOn '/' path := by
  unfold partsOf
  split
  · rename_i special
    have same : (path.map fun c => if c == '\\' then '/' else c) = path := by
      refine (List.map_congr_left fun c there => if_neg fun backslash => ?_).trans
        (List.map_id' path)
      exact literal.forward special (eq_of_beq backslash ▸ there)
    rw [same]
  · rfl

theorem startsWithDrive_of_letter {first : List Char} (drive : isDriveLetter first = true)
    (rest : List Char) : startsWithDrive (first ++ '/' :: rest) = true := by
  obtain ⟨two, letter⟩ := Bool.and_eq_true_iff.1 drive
  obtain ⟨c, d, rfl⟩ := List.length_eq_two.1 (eq_of_beq two)
  show (c.isAlpha && (d == ':' || d == '|') && true) = true
  rw [Bool.and_true]
  exact letter

/-- What is in front of the first slash is the first segment. -/
theorem exists_first (literal : Literal scheme path) :
    ∃ first more, Text.splitOn '/' path = first :: more ∧ first ≠ [] ∧
      (scheme = "file" → isDriveLetter first = false) := by
  by_cases slash : '/' ∈ path
  · obtain ⟨first, rest, rfl, whole⟩ := List.eq_append_cons_of_mem slash
    refine ⟨first, _, Text.splitOn_cut rest whole, ?_, fun file => ?_⟩
    · rintro rfl
      cases literal.slashless
    · exact Bool.eq_false_iff.2 fun drive =>
        absurd (startsWithDrive_of_letter drive rest) (Bool.eq_false_iff.1 (literal.driveless file))
  · refine ⟨path, [], Text.splitOn_whole slash, literal.full, fun file => ?_⟩
    rw [isDriveLetter, literal.driveless file, Bool.and_false]

theorem parseSegments_eq (literal : Literal scheme path)
    (settled : scheme = "file" → front.head? ≠ some "") :
    parseSegments scheme front path =
      front ++ (Text.splitOn '/' path).map (encode keepsPath) := by
  obtain ⟨first, more, parts, full, driveless⟩ := literal.exists_first
  have added : readSegments scheme front path =
      front ++ (Text.splitOn '/' path).map (encode keepsPath) := by
    rw [readSegments_eq, literal.partsOf_eq]
    refine addSegments_literal (Text.splitOn_ne_nil '/' path) literal.solid ?_
    rintro file - part own
    rw [parts] at own
    cases own
    exact driveless file
  unfold parseSegments
  rw [added]
  unfold settle
  split
  -- A file URL drops empty segments in front, but here the first one is not empty.
  · rename_i file
    obtain ⟨segment, others, same, filled⟩ : ∃ segment others,
        front ++ (Text.splitOn '/' path).map (encode keepsPath) = segment :: others ∧
          segment ≠ "" := by
      cases front with
      | nil => exact ⟨_, _, by rw [parts]; rfl, encode_ne_empty full⟩
      | cons segment others =>
          exact ⟨segment, _, rfl, by simpa using settled (eq_of_beq file)⟩
    rw [same, List.dropWhile_cons_of_neg (by simpa using filled)]
  · rfl

/-- A literal reference is read as it is written. -/
theorem join_eq (literal : Literal base.scheme path) (dir : base.Directory front) :
    base.join (String.ofList path) = .ok { base with
      path := .segments (front ++ (Text.splitOn '/' path).map (encode keepsPath))
      query := none
      fragment := none } := by
  have schemeless : splitScheme? (Url.counted (String.ofList path)) = none := by
    rw [literal.counted]
    exact literal.schemeless
  have read := dir.join_eq schemeless
  rw [literal.counted] at read
  have parsed := literal.parseSegments_eq dir.settled
  have tail := literal.tail
  obtain ⟨c, rest, rfl⟩ := List.exists_cons_of_ne_nil literal.full
  have plain : isAnySlash c = false := literal.slashless
  rw [read]
  split
  · rename_i file
    replace file := eq_of_beq file
    obtain ⟨host, hosted⟩ := Option.isSome_iff_exists.1 (dir.host file)
    have relative : parseFilePath (some base) (c :: rest) = { base with
        path := .segments (front ++ (Text.splitOn '/' (c :: rest)).map (encode keepsPath))
        query := none
        fragment := none } := by
      have start := dir.directory
      rw [file] at start parsed
      have own : base.authority.getD localAuthority = host := by rw [hosted]; rfl
      unfold parseFilePath
      dsimp only [Option.map_some, Option.getD_some, Option.bind_some]
      rw [tail, own, start]
      dsimp only
      rw [parsed, not_isSlash plain, literal.driveless file, if_neg Bool.false_ne_true,
        if_neg Bool.false_ne_true, file, hosted]
      rfl
    unfold parseFile
    split
    · rename_i a b more same
      cases same
      rw [not_isSlash plain]
      exact congrArg Except.ok relative
    · exact congrArg Except.ok relative
  · unfold parseRelative
    rw [tail, dir.directory]
    dsimp only
    rw [parsed]
    -- Of the forms that a reference can have, only that of a relative path is left.
    split
    · rename_i none
      cases none
    · rename_i mark
      cases mark
      exact absurd List.mem_cons_self literal.unmarked.1
    · rename_i mark
      cases mark
      exact absurd List.mem_cons_self literal.unmarked.2
    · rename_i slashes
      cases slashes
      cases plain
    · rename_i same
      cases same
      rw [plain]
      rfl

/-- The path of the URL is that of the base with the encoded reference behind it. -/
theorem pathText_eq (dir : base.Directory front)
    (same : u.path = .segments (front ++ (Text.splitOn '/' path).map (encode keepsPath))) :
    u.pathText = base.pathText ++ encode keepsPath path := by
  apply String.toList_inj.1
  rw [String.toList_append, toList_pathText dir.path, toList_pathText same, List.flatMap_append,
    List.flatMap_append, List.flatMap_map, flatMap_encode, List.append_assoc]
  rfl

end Literal

end TemplateCache.Url
