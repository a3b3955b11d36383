import TemplateCache.Url.Parser

/-!
# References below a base

A reference leads below the directory of its base if it has no scheme, slash or drive letter in
front and if its segments never climb above where they start. It keeps the scheme and the authority
of the base then, and its path begins with that directory.
-/

namespace TemplateCache.Url

variable {u base : Url} {scheme text : String} {front done segments more : List String}
  {chars reference : List Char} {parts : List (List Char)} {depth : Nat}

theorem isOpaque_eq_false : u.isOpaque = false ↔ ∃ segments, u.path = .segments segments := by
  unfold isOpaque
  cases u.path with
  | segments list => exact ⟨fun _ => ⟨list, rfl⟩, fun _ => rfl⟩
  | opaqueText t => exact ⟨nofun, nofun⟩

/-- A URL with the scheme and the authority of a base, whose path begins with that of the base. -/
structure Below (u base : Url) : Prop where
  scheme : u.scheme = base.scheme
  authority : u.authority = base.authority
  isOpaque : u.isOpaque = false
  path : base.pathText.toList <+: u.pathText.toList

theorem toList_pathText (path : u.path = .segments segments) :
    u.pathText.toList = segments.flatMap fun segment => '/' :: segment.toList := by
  unfold pathText
  rw [path]
  simp [String.toList_join, List.flatMap_map]

/-- Where a URL leads depends on neither its query nor its fragment. -/
theorem Below.of_path (below : u.Below base) {v : Url} (scheme : v.scheme = u.scheme)
    (authority : v.authority = u.authority) (path : v.path = u.path) : v.Below base where
  scheme := scheme.trans below.scheme
  authority := authority.trans below.authority
  isOpaque := isOpaque_eq_false.2 (path ▸ isOpaque_eq_false.1 below.isOpaque)
  path := by
    have start := below.path
    unfold pathText at start ⊢
    rwa [path]

theorem Below.withQuery (below : u.Below base) (query : Option String) :
    (u.withQuery query).Below base := by
  cases query with
  | some text => exact below.of_path rfl rfl rfl
  | none =>
      obtain ⟨segments, same⟩ := isOpaque_eq_false.1 below.isOpaque
      refine below.of_path rfl rfl ?_
      unfold Url.withQuery
      rw [same]

/-! ## Segments -/

/-- The segments that a path is read as. -/
def partsOf (scheme : String) (path : List Char) : List (List Char) :=
  Text.splitOn '/'
    (if isSpecialScheme scheme then path.map fun c => if c == '\\' then '/' else c else path)

theorem readSegments_eq (scheme : String) (start : List String) (path : List Char) :
    readSegments scheme start path = addSegments scheme start (partsOf scheme path) := rfl

/-- Whether segments never climb above where they start, from a depth below it. -/
def neverAbove : Nat → List (List Char) → Bool
  | _, [] => true
  | depth, segment :: rest =>
    if isDoubleDot segment then 0 < depth && neverAbove (depth - 1) rest
    else if isSingleDot segment then neverAbove depth rest
    else neverAbove (depth + 1) rest

/-- Segments that are at least as deep below a directory. -/
def Within (front : List String) (depth : Nat) (done : List String) : Prop :=
  ∃ more, done = front ++ more ∧ depth ≤ more.length

theorem Within.climb (within : Within front depth done) (deep : 0 < depth) :
    Within front (depth - 1) (climb done) := by
  obtain ⟨more, rfl, enough⟩ := within
  unfold Url.climb
  split
  · exact ⟨more, rfl, by omega⟩
  · split
    · exact ⟨more, rfl, by omega⟩
    · have many : more ≠ [] := List.length_pos_iff.1 (by omega)
      exact ⟨more.dropLast, List.dropLast_append_of_ne_nil many,
        by rw [List.length_dropLast]; omega⟩

theorem Within.concat (within : Within front depth done) (segment : String) :
    Within front (depth + 1) (done ++ [segment]) := by
  obtain ⟨more, rfl, enough⟩ := within
  exact ⟨more ++ [segment], List.append_assoc .., by simpa using enough⟩

theorem Within.under (within : Within front (depth + 1) done) :
    ∃ more, more ≠ [] ∧ done = front ++ more := by
  obtain ⟨more, same, enough⟩ := within
  exact ⟨more, List.length_pos_iff.1 (by omega), same⟩

/-- Segments that never climb above their start add to what is there. -/
theorem addSegments_under (within : Within front depth done) (any : parts ≠ [])
    (under : neverAbove depth parts = true) :
    ∃ more, more ≠ [] ∧ addSegments scheme done parts = front ++ more := by
  fun_induction addSegments scheme done parts generalizing depth with
  | case1 => exact absurd rfl any
  | case2 done last double =>
      simp only [neverAbove, if_pos double, Bool.and_true, decide_eq_true_eq] at under
      exact ((within.climb under).concat "").under
  | case3 done last _ single => exact (within.concat "").under
  | case4 done last _ _ => exact (within.concat _).under
  | case5 done segment rest many double ih =>
      simp only [neverAbove, if_pos double, Bool.and_eq_true, decide_eq_true_eq] at under
      exact ih (within.climb under.1) many under.2
  | case6 done segment rest many double single ih =>
      simp only [neverAbove, if_neg double, if_pos single] at under
      exact ih within many under
  | case7 done segment rest many double single ih =>
      simp only [neverAbove, if_neg double, if_neg single] at under
      exact ih (within.concat _) many under

theorem segmentText_nil (scheme : String) (done : List String) :
    segmentText scheme done [] = "" := by
  unfold segmentText
  split
  · rename_i drive
    simp [isDriveLetter] at drive
  · simp [encode, Text.percentEncode]

/-- A path that ends in a slash is read as segments with nothing in the last one. -/
theorem getLast?_addSegments (last : parts.getLast? = some []) :
    (addSegments scheme done parts).getLast? = some "" := by
  fun_induction addSegments scheme done parts with
  | case1 => cases last
  | case2 | case3 => exact List.getLast?_concat
  | case4 done segment =>
      cases last
      rw [segmentText_nil]
      exact List.getLast?_concat
  | case5 done segment rest many double ih | case6 done segment rest many double single ih
  | case7 done segment rest many double single ih =>
      refine ih ?_
      rwa [List.getLast?_cons_of_ne_nil many] at last

/-- Nothing stands empty in front of a path, unless it is all of it. -/
def Settled (segments : List String) : Prop := segments.head? = some "" → segments = [""]

theorem settled_settle (segments : List String) : Settled (settle "file" segments) := by
  unfold settle
  rw [if_pos (by rfl)]
  cases found : segments.dropWhile String.isEmpty with
  | nil => exact fun _ => rfl
  | cons first rest =>
      intro empty
      have filled := List.head?_dropWhile_not String.isEmpty segments
      rw [found, empty] at filled
      cases filled

theorem settle_ne_nil (many : segments ≠ []) : settle scheme segments ≠ [] := by
  unfold settle
  split
  · cases segments.dropWhile String.isEmpty with
    | nil => exact List.cons_ne_nil _ _
    | cons first rest => exact List.cons_ne_nil _ _
  · exact many

theorem getLast?_settle (last : segments.getLast? = some "") :
    (settle scheme segments).getLast? = some "" := by
  unfold settle
  split
  · cases found : segments.dropWhile String.isEmpty with
    | nil => rfl
    | cons first rest =>
        obtain ⟨before, same⟩ := List.dropWhile_suffix (l := segments) String.isEmpty
        rw [← same, found, List.getLast?_append, List.getLast?_cons, Option.some_or] at last
        rw [List.getLast?_cons, last]
  · exact last

/-- A directory stays in front of what is read below it. -/
theorem settle_under (settled : scheme = "file" → front.head? ≠ some "") (many : more ≠ []) :
    ∃ rest, rest ≠ [] ∧ settle scheme (front ++ more) = front ++ rest := by
  cases front with
  | nil => exact ⟨settle scheme more, settle_ne_nil many, rfl⟩
  | cons first front =>
      refine ⟨more, many, ?_⟩
      unfold settle
      split
      · rename_i file
        have filled : first ≠ "" := by simpa using settled (by simpa using file)
        rw [List.cons_append, List.dropWhile_cons_of_neg (by simpa using filled)]
      · rfl

/-! ## Bases -/

/-- What a file URL is like: it has a host, and its path is settled. -/
structure Local (u : Url) : Prop where
  scheme : u.scheme = "file"
  host : u.authority.isSome
  path : ∃ segments, u.path = .segments segments ∧ Settled segments

theorem local_fileUrl {host : Authority} {tail : Tail} (settled : Settled segments) :
    Local (fileUrl host segments tail) := ⟨rfl, rfl, segments, rfl, settled⟩

theorem local_parseFileHost (read : parseFileHost chars = .ok u) : Local u := by
  unfold parseFileHost at read
  extract_lets hostText drive tail segments finish at read
  split at read
  · cases read
    exact local_fileUrl (settled_settle _)
  · have finished {host : String} (made : finish host = .ok u) : Local u := by
      cases made
      exact local_fileUrl (settled_settle _)
    split at read
    · exact finished read
    · cases found : parseHost hostText with
      | error e =>
          rw [found] at read
          cases read
      | ok host =>
          rw [found] at read
          exact finished read

theorem local_parseFilePath (chars : List Char) : Local (parseFilePath none chars) := by
  unfold parseFilePath
  extract_lets
  split
  · split
    · exact ⟨rfl, rfl, [""], rfl, fun _ => rfl⟩
    · exact local_fileUrl fun _ => rfl
  · split
    · split
      · exact local_fileUrl (settled_settle _)
      · exact local_fileUrl (settled_settle _)
    · split
      · exact local_fileUrl (settled_settle _)
      · exact local_fileUrl (settled_settle _)

theorem local_parseFile (read : parseFile none chars = .ok u) : Local u := by
  unfold parseFile at read
  split at read
  · split at read
    · exact local_parseFileHost read
    · cases read
      exact local_parseFilePath _
  · cases read
    exact local_parseFilePath _

theorem scheme_parseAfterSlashes (read : parseAfterSlashes scheme chars = .ok u) :
    u.scheme = scheme := by
  unfold parseAfterSlashes at read
  cases found : parseAuthority scheme chars with
  | error e =>
      rw [found] at read
      cases read
  | ok result =>
      rw [found] at read
      cases read
      rfl

theorem parseWithScheme_none (read : parseWithScheme none scheme chars = .ok u) :
    u.scheme = scheme ∧ (scheme = "file" → Local u) := by
  unfold parseWithScheme at read
  split at read
  · rename_i file
    obtain rfl := eq_of_beq file
    have fits := local_parseFile read
    exact ⟨fits.scheme, fun _ => fits⟩
  · rename_i other
    refine ⟨?_, fun file => absurd (beq_of_eq file) other⟩
    split at read
    · exact scheme_parseAfterSlashes read
    · split at read
      · exact scheme_parseAfterSlashes read
      · cases read
        rfl
      · cases read
        rfl

/-- What is read without a base has a host and a settled path where it is a file URL. -/
theorem local_parse (read : parse none text = .ok u) (file : u.scheme = "file") : Local u := by
  unfold parse at read
  extract_lets isOuter trimmed chars at read
  split at read
  · have scheme := parseWithScheme_none read
    exact scheme.2 (scheme.1.symm.trans file)
  · cases read
  · cases ‹none = some _›

/-- A base is a directory: its path ends in a slash. If it is a file URL, it is like one. -/
structure Directory (base : Url) (front : List String) : Prop where
  path : base.path = .segments (front ++ [""])
  host : base.scheme = "file" → base.authority.isSome
  settled : base.scheme = "file" → front.head? ≠ some ""

theorem Settled.head? (settled : Settled (front ++ [""])) : front.head? ≠ some "" := by
  intro empty
  have alone := settled (by rw [List.head?_append, empty]; rfl)
  rw [List.append_left_eq_self.1 alone] at empty
  cases empty

theorem getLast?_readSegments (scheme : String) {path : List Char}
    (ends : path = [] ∨ ∃ front, path = front ++ ['/']) :
    (readSegments scheme [] path).getLast? = some "" := by
  refine getLast?_addSegments ?_
  rcases ends with rfl | ⟨front, rfl⟩
  · split
    · rfl
    · rfl
  · split
    · rw [List.map_append, List.map_singleton]
      exact Text.splitOn_concat '/' _ ▸ List.getLast?_concat
    · exact Text.splitOn_concat '/' _ ▸ List.getLast?_concat

theorem directory_withTrailingSlash (fits : u.scheme = "file" → Local u)
    (isOpaque : u.isOpaque = false) : ∃ front, Directory u.withTrailingSlash front := by
  obtain ⟨list, path⟩ := isOpaque_eq_false.1 isOpaque
  unfold withTrailingSlash
  rw [path]
  dsimp only
  split
  · rename_i last
    obtain ⟨front, rfl⟩ := List.getLast?_eq_some_iff.1 (eq_of_beq last)
    refine ⟨front, path, fun file => (fits file).host, fun file => ?_⟩
    obtain ⟨segments, same, settled⟩ := (fits file).path
    cases path.symm.trans same
    exact settled.head?
  · have ends : (parseSegments u.scheme [] ((u.pathText ++ "/").toList.drop 1)).getLast? =
        some "" := by
      refine getLast?_settle (getLast?_readSegments _ ?_)
      rw [String.toList_append]
      cases u.pathText.toList with
      | nil => exact .inl rfl
      | cons first rest => exact .inr ⟨rest, rfl⟩
    obtain ⟨front, same⟩ := List.getLast?_eq_some_iff.1 ends
    refine ⟨front, by rw [same], fun file => (fits file).host, fun file => ?_⟩
    have settled : Settled (front ++ [""]) := by
      rw [← same, show u.scheme = "file" from file]
      exact settled_settle _
    exact settled.head?

/-! ## References -/

/-- What counts of the text of a reference. -/
def counted (text : String) : List Char :=
  let isOuter (c : Char) : Bool := c.toNat ≤ 0x20
  let trimmed := ((text.toList.dropWhile isOuter).reverse.dropWhile isOuter).reverse
  trimmed.filter fun c => !isTabOrNewline c

/-- A reference that has neither a scheme nor a slash nor a drive letter in front, and whose
segments never climb above where they start. -/
structure Descends (scheme : String) (reference : List Char) : Prop where
  schemeless : splitScheme? reference = none
  slashless : reference.head?.any isAnySlash = false
  driveless : scheme = "file" → startsWithDrive reference = false
  never : neverAbove 0 (partsOf scheme (splitTail reference).path) = true

instance : Decidable (Descends scheme reference) :=
  decidable_of_iff (splitScheme? reference = none ∧ reference.head?.any isAnySlash = false ∧
    (scheme = "file" → startsWithDrive reference = false) ∧
    neverAbove 0 (partsOf scheme (splitTail reference).path) = true)
    ⟨fun ⟨a, b, c, d⟩ => ⟨a, b, c, d⟩, fun ⟨a, b, c, d⟩ => ⟨a, b, c, d⟩⟩

theorem splitFirst_starts (sep : Char) (chars : List Char) :
    (splitFirst sep chars).1 <+: chars := by
  unfold splitFirst
  split
  · exact List.prefix_rfl
  · exact List.takeWhile_prefix _

/-- The path of a reference stands in front of it. -/
theorem splitTail_starts (chars : List Char) : (splitTail chars).path <+: chars :=
  (splitFirst_starts '?' _).trans (splitFirst_starts '#' chars)

theorem not_isSlash {c : Char} (plain : isAnySlash c = false) (scheme : String) :
    isSlash scheme c = false := by
  obtain ⟨slash, backslash⟩ := Bool.or_eq_false_iff.1 plain
  unfold isSlash
  rw [slash, backslash]
  rfl

namespace Directory

theorem isOpaque (dir : Directory base front) : base.isOpaque = false :=
  isOpaque_eq_false.2 ⟨_, dir.path⟩

theorem segmentsOf (dir : Directory base front) : base.segmentsOf = front ++ [""] := by
  unfold Url.segmentsOf
  rw [dir.path]

/-- What relative paths start from. -/
theorem directory (dir : Directory base front) :
    Url.directory base.scheme base.segmentsOf = front := by
  unfold Url.directory
  rw [dir.segmentsOf, List.getLast?_concat, List.dropLast_concat]
  split
  · rename_i drive
    simp [isNormalizedDrive] at drive
  · rfl

/-- A longer path begins with that of the directory. -/
theorem below (dir : Directory base front) (scheme : u.scheme = base.scheme)
    (authority : u.authority = base.authority) (path : u.path = .segments (front ++ more))
    (many : more ≠ []) : u.Below base where
  scheme := scheme
  authority := authority
  isOpaque := isOpaque_eq_false.2 ⟨_, path⟩
  path := by
    obtain ⟨first, rest, rfl⟩ := List.exists_cons_of_ne_nil many
    rw [toList_pathText dir.path, toList_pathText path, List.flatMap_append, List.flatMap_append,
      List.prefix_append_right_inj]
    exact ⟨first.toList ++ rest.flatMap fun segment => '/' :: segment.toList, rfl⟩

theorem refl (dir : Directory base front) : base.Below base :=
  dir.below rfl rfl dir.path (List.cons_ne_nil _ _)

/-- Segments that never climb lead below a directory. -/
theorem parseSegments_under (dir : Directory base front) {path : List Char}
    (never : neverAbove 0 (partsOf base.scheme path) = true) :
    ∃ more, more ≠ [] ∧
      parseSegments base.scheme (Url.directory base.scheme base.segmentsOf) path =
        front ++ more := by
  obtain ⟨more, many, added⟩ : ∃ more, more ≠ [] ∧
      addSegments base.scheme front (partsOf base.scheme path) = front ++ more :=
    addSegments_under ⟨[], (List.append_nil front).symm, Nat.le_refl 0⟩
      (Text.splitOn_ne_nil '/' _) never
  unfold parseSegments
  rw [dir.directory, readSegments_eq, added]
  exact settle_under dir.settled many

theorem parseRelative_below (dir : Directory base front)
    (descends : Descends base.scheme reference) :
    ∃ u, parseRelative base reference = .ok u ∧ u.Below base := by
  have slashless := descends.slashless
  unfold parseRelative
  dsimp only
  split
  · exact ⟨_, rfl, dir.refl.of_path rfl rfl rfl⟩
  · exact ⟨_, rfl, dir.refl.of_path rfl rfl rfl⟩
  · exact ⟨_, rfl, dir.refl.of_path rfl rfl rfl⟩
  · cases slashless
  · rename_i c rest _ _ _
    obtain ⟨more, many, parsed⟩ := dir.parseSegments_under descends.never
    have plain : isAnySlash c = false := slashless
    rw [if_pos (by rw [plain]; rfl)]
    exact ⟨_, rfl, dir.below rfl rfl (congrArg UrlPath.segments parsed) many⟩

theorem parseFilePath_below (dir : Directory base front) (file : base.scheme = "file")
    (descends : Descends base.scheme reference) :
    (parseFilePath (some base) reference).Below base := by
  obtain ⟨host, hosted⟩ := Option.isSome_iff_exists.1 (dir.host file)
  obtain ⟨more, many, parsed⟩ := dir.parseSegments_under descends.never
  rw [file] at parsed
  have starts := splitTail_starts reference
  unfold parseFilePath
  extract_lets segments authority tail
  have same : some authority = base.authority := by
    rw [hosted]
    exact congrArg some (congrArg (Option.getD · localAuthority) hosted)
  have own : segments = front ++ [""] := dir.segmentsOf
  split
  · have path : .segments (if segments.isEmpty then [""] else segments) = base.path := by
      rw [own, if_neg (by simp), dir.path]
    split
    · exact dir.refl.of_path file.symm same path
    · exact dir.refl.of_path file.symm same path
  · rename_i c rest found
    have first : reference.head? = some c := by
      obtain ⟨behind, whole⟩ := starts
      rw [← whole, show (splitTail reference).path = c :: rest from found]
      rfl
    have plain : isAnySlash c = false := by
      have slashless := descends.slashless
      rwa [first] at slashless
    rw [not_isSlash plain, descends.driveless file]
    exact dir.below file.symm same (congrArg UrlPath.segments parsed) many

theorem parseFile_below (dir : Directory base front) (file : base.scheme = "file")
    (descends : Descends base.scheme reference) :
    ∃ u, parseFile (some base) reference = .ok u ∧ u.Below base := by
  have below := dir.parseFilePath_below file descends
  unfold parseFile
  split
  · rename_i a b rest
    have plain : isAnySlash a = false := descends.slashless
    rw [not_isSlash plain]
    exact ⟨_, rfl, below⟩
  · exact ⟨_, rfl, below⟩

/-- A reference without a scheme is relative to the base. -/
theorem join_eq (dir : Directory base front) (schemeless : splitScheme? (counted text) = none) :
    base.join text =
      if base.scheme == "file" then parseFile (some base) (counted text)
      else parseRelative base (counted text) := by
  unfold join parse
  extract_lets isOuter trimmed chars
  rw [show splitScheme? chars = none from schemeless]
  dsimp only
  rw [dir.isOpaque]
  rfl

theorem join_below (dir : Directory base front) (descends : Descends base.scheme (counted text)) :
    ∃ u, base.join text = .ok u ∧ u.Below base := by
  rw [dir.join_eq descends.schemeless]
  split
  · rename_i file
    exact dir.parseFile_below (eq_of_beq file) descends
  · exact dir.parseRelative_below descends

end Directory

end TemplateCache.Url
