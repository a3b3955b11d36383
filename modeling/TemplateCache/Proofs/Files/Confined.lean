import TemplateCache.Proofs.Files.Below

/-!
# Paths within a directory

A path within a directory has the parts of the directory and names behind them, and neither a root
nor a dot step. Changes are confined to a directory if they are at or below places where such paths
lead; all that may be new elsewhere are directories on the way to it. Without links below the
directory, the paths within it lead to places below its own.
-/

namespace TemplateCache

namespace Path

variable {p q dir : Path} {names : List String} {reversed after : List Span}

/-- A path has the parts of a directory and names behind them. -/
structure Within (dir : Path) (names : List String) (p : Path) : Prop where
  proper : Place.Proper names
  parts : p.parts = dir.parts ++ names.map .normal

theorem within_join (dir : Path) (proper : Place.Proper names) :
    dir.Within names (dir.join (ofNames names)) := ⟨proper, parts_join dir proper⟩

/-- A path is within a directory, or it is on the way to it. -/
def Along (dir p : Path) : Prop :=
  p.parts <+: dir.parts ∨ ∃ names, names ≠ [] ∧ dir.Within names p

theorem along_of_within (within : dir.Within names p) (start : q.parts <+: p.parts) :
    dir.Along q := by
  rw [within.parts] at start
  rcases List.prefix_or_prefix_of_prefix start (List.prefix_append _ _) with above | ⟨rest, below⟩
  · exact .inl above
  · rw [← below, List.prefix_append_right_inj] at start
    obtain ⟨front, starts, rfl⟩ := List.prefix_map_iff.1 start
    by_cases none : front = []
    · subst none
      rw [List.map_nil, List.append_nil] at below
      exact .inl (below ▸ List.prefix_rfl)
    · exact .inr ⟨front, none, fun name there => within.proper name (starts.subset there),
        below.symm⟩

theorem Along.of_parts (along : dir.Along p) (start : q.parts <+: p.parts) : dir.Along q := by
  rcases along with above | ⟨names, -, within⟩
  · exact .inl (start.trans above)
  · exact along_of_within within start

theorem parts_aboveSpans (spans : p.spans = reversed.reverse ++ after)
    (there : q ∈ p.aboveSpans reversed) : q.parts <+: p.parts := by
  induction reversed generalizing after with
  | nil => cases there
  | cons last before ih =>
      unfold aboveSpans at there
      split at there
      · cases there
      · cases before with
        | nil =>
            rw [List.mem_singleton.1 there]
            exact List.nil_prefix
        | cons previous before =>
            rw [List.reverse_cons, List.append_assoc] at spans
            rcases List.mem_cons.1 there with rfl | later
            · rw [List.reverse_cons, List.append_assoc] at spans
              unfold parts
              rw [(spans_slice spans).1, spans]
              simp
            · exact ih spans later

/-- A path begins with the parts of those above it. -/
theorem parts_ancestors (there : q ∈ p.ancestors) : q.parts <+: p.parts := by
  rcases List.mem_cons.1 there with rfl | above
  · exact List.prefix_rfl
  · exact parts_aboveSpans (show p.spans = p.spans.reverse.reverse ++ [] by simp) above

theorem spansFrom_slashes {chars : List Char} (slashes : ∀ c ∈ chars, c = '/') (start : Nat) :
    spansFrom chars start [] = [] := by
  induction chars generalizing start with
  | nil => rfl
  | cons c chars ih =>
      obtain ⟨slash, more⟩ := List.forall_mem_cons.1 slashes
      rw [spansFrom, if_pos slash]
      exact ih more _

/-- Slashes at the end are no parts. -/
theorem parts_withoutSlashes (p : Path) : (FileTree.withoutSlashes p).parts = p.parts := by
  rcases FileTree.withoutSlashes_cases p with same | ⟨before, slashes, some, all, text, same⟩
  · rw [same]
  · rw [same]
    cases slashes with
    | nil =>
        rw [List.append_nil] at text
        rw [← text, String.ofList_toList]
    | cons c slashes =>
        obtain ⟨rfl, more⟩ := List.forall_mem_cons.1 all
        unfold parts
        rw [spans_slash (p := ⟨String.ofList before⟩) some String.toList_ofList text,
          spansFrom_slashes more, List.append_nil]

end Path

namespace FileTree

variable {t u v w : FileTree} {p dir : Path} {place there : Place} {names : List String}
  {bytes : List UInt8} {follow : Bool}

/-! ## Where paths within a directory lead -/

/-- The steps of a path within a directory come past the directory. -/
theorem steps_within (within : dir.Within names p) :
    ∃ above more, steps p = above ++ more ∧ solid above = solid (steps dir) ∧
      solid more = names.map .normal := by
  have whole : solid (steps p) = solid (steps dir) ++ names.map .normal := by
    rw [solid_steps, solid_steps, within.parts, solid_append, solid_names]
  exact List.filter_eq_append_iff.1 whole

/-- Where a path within a directory leads, its names say, if there are no links below the
directory. -/
theorem located_within (within : dir.Within names p) (many : names ≠ [])
    (found : t.locate p follow = .ok there)
    (linkless : ∀ place, t.DirAt dir place →
      ∀ names target, t.entry? (place ++ names) ≠ some (.link target)) :
    ∃ place, t.DirAt dir place ∧ there = place ++ names := by
  obtain ⟨above, more, split, same, named⟩ := steps_within within
  have onward : more ≠ [] := by
    rintro rfl
    exact many (List.map_eq_nil_iff.1 named.symm)
  obtain ⟨place, root, onto, -⟩ := located_past found split same named onward linkless
  exact ⟨place, root, onto⟩

/-- A path within a directory leads to a place, or to one above it. -/
def Inside (t : FileTree) (dir : Path) (place : Place) : Prop :=
  ∃ names p follow there, names ≠ [] ∧ dir.Within names p ∧ t.locate p follow = .ok there ∧
    there <+: place

/-- The path of a directory, or one above it, leads to a place. -/
def Toward (t : FileTree) (dir : Path) (place : Place) : Prop :=
  ∃ p follow, p.parts <+: dir.parts ∧ t.locate p follow = .ok place

theorem Inside.of_ways (ways : t.WaysIn u) (inside : t.Inside dir place) : u.Inside dir place := by
  obtain ⟨names, p, follow, there, many, within, located, above⟩ := inside
  exact ⟨names, p, follow, there, many, within, locate_of_ways ways located, above⟩

theorem Toward.of_ways (ways : t.WaysIn u) (toward : t.Toward dir place) : u.Toward dir place := by
  obtain ⟨p, follow, start, located⟩ := toward
  exact ⟨p, follow, start, locate_of_ways ways located⟩

/-! ## Confined changes -/

/-- What differs is within a directory as one tree has it, or it is a directory that has been made
on the way there. -/
def Confined (w : FileTree) (dir : Path) (t u : FileTree) : Prop :=
  ∀ place, place.Proper → u.entry? place = t.entry? place ∨ w.Inside dir place ∨
    w.Toward dir place ∧ t.entry? place = none ∧ u.entry? place = some .directory

theorem Confined.refl (w : FileTree) (dir : Path) (t : FileTree) : w.Confined dir t t :=
  fun _ _ => .inl rfl

theorem Confined.trans (h : w.Confined dir t u) (h' : w.Confined dir u v) :
    w.Confined dir t v := by
  intro place proper
  rcases h place proper with same | inside | ⟨toward, free, made⟩
  · rw [← same]
    exact h' place proper
  · exact .inr (.inl inside)
  · rcases h' place proper with same | inside | ⟨-, gone, -⟩
    · exact .inr (.inr ⟨toward, free, same.trans made⟩)
    · exact .inr (.inl inside)
    · cases gone.symm.trans made

theorem Confined.of_ways (ways : v.WaysIn w) (h : v.Confined dir t u) : w.Confined dir t u :=
  fun place proper => (h place proper).imp_right fun rest =>
    rest.imp (·.of_ways ways) fun ⟨toward, made⟩ => ⟨toward.of_ways ways, made⟩

/-- Ways are kept, and what differs is confined to a directory as the later tree has it. -/
structure BuildsIn (dir : Path) (t u : FileTree) : Prop where
  ways : t.WaysIn u
  confined : u.Confined dir t u

/-- What is put at a place where a path within a directory leads. -/
theorem buildsIn_put {e : Entry} (within : dir.Within names p) (many : names ≠ [])
    (located : t.locate p follow = .ok place) (ways : t.WaysIn (t.put place e)) :
    BuildsIn dir t (t.put place e) := by
  refine ⟨ways, fun other proper => ?_⟩
  rw [entry_put]
  split
  · rename_i both
    obtain rfl := Path.text_injective proper (locate_proper located) both.2
    exact .inr (.inl ⟨names, p, follow, other, many, within, locate_of_ways ways located,
      List.prefix_rfl⟩)
  · exact .inl rfl

theorem buildsIn_write (within : dir.Within names p) (many : names ≠ [])
    (written : t.write p bytes = .ok u) : BuildsIn dir t u := by
  obtain ⟨place, located, under, ended, rfl⟩ := write_ok written
  exact buildsIn_put within many located (waysIn_put under ended).1

theorem buildsIn_makeDir (along : dir.Along p) (made : t.makeDir p = .ok u) :
    BuildsIn dir t u := by
  have ways := (extends_makeDir made).waysIn
  unfold makeDir create at made
  obtain ⟨place, located, made⟩ := ok_of_bind made
  split at made
  · cases made
  · rename_i free
    cases made
    rcases along with start | ⟨names, many, within⟩
    · refine ⟨ways, fun other proper => ?_⟩
      rw [entry_put]
      split
      · rename_i both
        obtain rfl := Path.text_injective proper (locate_proper located) both.2
        rw [← Path.parts_withoutSlashes] at start
        exact .inr (.inr ⟨⟨_, false, start, locate_of_ways ways located⟩, free, rfl⟩)
      · exact .inl rfl
    · have same := Path.parts_withoutSlashes p
      exact buildsIn_put ⟨within.proper, same.trans within.parts⟩ many located ways

theorem BuildsIn.refl (dir : Path) (t : FileTree) : t.BuildsIn dir t :=
  ⟨.refl t, .refl t dir t⟩

theorem BuildsIn.trans (h : BuildsIn dir t u) (h' : BuildsIn dir u v) : BuildsIn dir t v :=
  ⟨h.ways.trans h'.ways, (h.confined.of_ways h'.ways).trans h'.confined⟩

theorem buildsIn_makeDirs (along : dir.Along p) : BuildsIn dir t (t.makeDirs p).2 :=
  kept_makeChain (fun _ above _ _ builds made => builds.trans
    (buildsIn_makeDir (along.of_parts (Path.parts_ancestors above)) made)) (.refl dir t)

/-- A temporary directory is on the way to itself. -/
theorem buildsIn_makeTempDir {parent : Path} {start : String}
    (made : t.makeTempDir parent start = .ok (dir, u)) : BuildsIn dir t u := by
  unfold makeTempDir at made
  obtain ⟨v, created, made⟩ := ok_of_bind made
  cases made
  obtain ⟨ways, confined⟩ := buildsIn_makeDir (.inl List.prefix_rfl) created
  -- Nothing but the count of temporary directories is different.
  have same : v.WaysIn { v with fresh := v.fresh + 1 } := fun _ _ _ _ => .inl rfl
  exact ⟨ways.trans same, confined.of_ways same⟩

/-- Without names a path below a directory is none of a file. -/
theorem named_of_write
    (written : t.write (dir.join (Path.ofNames names)) bytes = .ok u) : names ≠ [] := by
  rintro rfl
  obtain ⟨place, located, -⟩ := write_ok written
  have full : (dir.join (Path.ofNames [])).text ≠ "" := by
    intro empty
    have checked := (locate_ok.1 located).1
    rw [empty] at checked
    cases checked
  unfold write at written
  rw [if_pos (endsInSlash_join full)] at written
  obtain ⟨_, -, failed⟩ := ok_of_bind written
  cases failed

theorem named_of_removeFile
    (removed : t.removeFile (dir.join (Path.ofNames names)) = .ok u) : names ≠ [] := by
  rintro rfl
  have slashless := slashless_of_removeFile removed
  obtain ⟨there, e, found, -⟩ := removeFile_eq removed
  rw [withoutSlashes_eq slashless] at found
  have full : (dir.join (Path.ofNames [])).text ≠ "" := by
    intro empty
    have checked := (locate_ok.1 (entryAt_ok.1 found).1).1
    rw [empty] at checked
    cases checked
  cases slashless.symm.trans (endsInSlash_join full)

/-- What is removed at a path within a directory is there in a tree that has more. -/
theorem confined_removeFile (thins : w.Thins t) (within : dir.Within names p) (many : names ≠ [])
    (removed : t.removeFile p = .ok u) : w.Confined dir t u := by
  have slashless := slashless_of_removeFile removed
  obtain ⟨there, e, found, -, rfl⟩ := removeFile_eq removed
  rw [withoutSlashes_eq slashless] at found
  have located := (entryAt_ok.1 (entryAt_of_thins thins found).1).1
  intro place proper
  by_cases root : place = []
  · subst root
    exact .inl rfl
  · rw [entry_remove proper root]
    split
    · exact .inr (.inl ⟨names, p, false, there, many, within, located, ‹_›⟩)
    · exact .inl rfl

end FileTree
end TemplateCache
