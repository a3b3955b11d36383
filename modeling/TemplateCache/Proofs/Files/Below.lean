import TemplateCache.Proofs.Files.Ancestors

/-!
# Below a directory

Names below a directory without links lead to one place, if anywhere. So where files of such a
directory change, each change is at the place that the names of its file say, and whoever reads
below other names reads the same as before. The directory need not be there yet: what counts is
where it is once it has been made.
-/

namespace TemplateCache.FileTree

variable {t u v : FileTree} {p dir : Path} {place place' here there : Place} {names : List String}
  {name text : String} {bytes : List UInt8} {follow : Bool} {e : Entry} {links : Nat}
  {rest more whole : List Part}

/-! ## The way to a directory -/

/-- A stroll that goes on gets to a directory first. -/
theorem stroll_front (rest : List Part) (many : more ≠ []) (rooted : t.Rooted here) :
    (∀ place, t.stroll follow here (rest ++ more) = .ok (.place place) →
      ∃ mid, t.stroll true here rest = .ok (.place mid) ∧ t.Rooted mid) ∧
    ∀ directory target left,
      t.stroll follow here (rest ++ more) = .ok (.link directory target left) →
        (∃ mid, t.stroll true here rest = .ok (.place mid) ∧ t.Rooted mid) ∨
        ∃ left', left = left' ++ more ∧
          t.stroll true here rest = .ok (.link directory target left') := by
  induction rest generalizing here with
  | nil => exact ⟨fun _ _ => ⟨here, rfl, rooted⟩, fun _ _ _ _ => .inl ⟨here, rfl, rooted⟩⟩
  | cons part rest ih =>
      cases part with
      | normal name =>
          have full : (rest ++ more).isEmpty = false :=
            List.isEmpty_eq_false_iff.2 (List.append_ne_nil_of_right_ne_nil rest many)
          rw [List.cons_append]
          by_cases long : 255 < name.utf8ByteSize
          · rw [stroll_long long]
            exact ⟨(fun _ found => by cases found), fun _ _ _ found => by cases found⟩
          · rcases entry : t.entry? (here ++ [name]) with _ | (bytes | _ | target)
            case some.directory =>
              rw [stroll_directory long entry, stroll_directory long entry]
              exact ih (rooted.next entry)
            case some.link =>
              rw [stroll_link long entry, stroll_link long entry, full, Bool.not_true,
                Bool.and_false, Bool.false_and, if_neg Bool.false_ne_true]
              refine ⟨(fun _ found => by cases found), fun _ _ _ found => ?_⟩
              cases found
              exact .inr ⟨rest, rfl, rfl⟩
            all_goals
              obtain ⟨kind, ends⟩ := stroll_end (t := t) (rest ++ more) follow long
                fun e found => by rw [entry] at found; cases found <;> exact ⟨_, rfl⟩
              rw [ends, full, if_neg Bool.false_ne_true]
              exact ⟨(fun _ found => by cases found), fun _ _ _ found => by cases found⟩
      | root => exact ih rooted_nil
      | current => exact ih rooted
      | parent => exact ih rooted.dropLast

/-- Steps that go on get to a directory first. -/
theorem Leads.front (leads : t.Leads follow links here whole place) (split : whole = rest ++ more)
    (many : more ≠ []) (rooted : t.Rooted here) :
    ∃ mid, t.Leads true links here rest mid ∧ t.Rooted mid := by
  induction leads generalizing rest with
  | place strolled =>
      subst split
      obtain ⟨mid, before, rooted'⟩ := (stroll_front rest many rooted).1 _ strolled
      exact ⟨mid, .place before, rooted'⟩
  | link strolled checked onward ih =>
      subst split
      rcases (stroll_front rest many rooted).2 _ _ _ strolled with
        ⟨mid, before, rooted'⟩ | ⟨left, rfl, before⟩
      · exact ⟨mid, .place before, rooted'⟩
      · obtain ⟨mid, leads, rooted'⟩ :=
          ih (List.append_assoc _ _ _).symm ((stroll_rooted rest rooted).2 _ _ _ before)
        exact ⟨mid, .link before checked leads, rooted'⟩

/-- The steps of a path lead to a directory. -/
def DirAt (t : FileTree) (p : Path) (place : Place) : Prop :=
  t.Leads true linkBudget [] (steps p) place ∧ t.entry? place = some .directory

theorem dirAt_of_entryAt (found : t.entryAt p true = .ok (place, .directory)) : t.DirAt p place :=
  have found := entryAt_ok.1 found
  ⟨(locate_ok.1 found.1).2, found.2⟩

theorem DirAt.unique (h : t.DirAt p place) (h' : t.DirAt p place') : place = place' :=
  Except.ok.inj (h.1.resolve.symm.trans h'.1.resolve)

theorem DirAt.of_ways (ways : t.WaysIn u) (h : t.DirAt p place) : u.DirAt p place := by
  have proper : place.Proper := resolve_proper _ _ (fun _ there => absurd there List.not_mem_nil)
    (steps_proper p) h.1.resolve
  exact ⟨h.1.kept ways (steps_proper p), (ways.rooted proper (h.1.rooted h.2)).entry⟩

theorem locate_proper (found : t.locate p follow = .ok place) : place.Proper :=
  resolve_proper _ _ (fun _ there => absurd there List.not_mem_nil) (steps_proper p)
    (locate_ok.1 found).2.resolve

/-! ## Names below a directory -/

/-- The steps to names below a directory come past the directory. -/
theorem steps_names (dir : Path) (proper : Place.Proper names) (many : names ≠ []) :
    ∃ above, solid above = solid (steps dir) ∧
      steps (dir.join (Path.ofNames names)) = above ++ names.map .normal := by
  by_cases empty : dir.text = ""
  · have dots : solid (steps dir) = [] := by
      unfold steps
      rw [empty]
      rfl
    refine ⟨[], dots.symm, ?_⟩
    rw [Path.join_of_empty empty proper, Path.steps_of_relative (p := Path.ofNames names) (Path.head_intercalate proper)]
    exact stepsFrom_names proper many
  · obtain ⟨above, same | slash, joined⟩ := steps_join empty proper many
    · exact ⟨above, by rw [same], joined⟩
    · exact ⟨above, by rw [slash, solid_append]; exact (List.append_nil _).symm, joined⟩

theorem proper_nil : Place.Proper [] := fun _ there => absurd there List.not_mem_nil

/-- Without names the path of a directory has a slash behind it. -/
theorem endsInSlash_join (full : (dir.join (Path.ofNames [])).text ≠ "") :
    endsInSlash (dir.join (Path.ofNames [])) = true := by
  have some : dir.text ≠ "" := by
    intro empty
    rw [Path.join_of_empty empty proper_nil] at full
    exact full rfl
  unfold endsInSlash
  rw [Path.toList_join some proper_nil]
  split
  · rename_i slash
    simpa using slash
  · simp

theorem steps_slashed (full : (dir.join (Path.ofNames [])).text ≠ "") :
    ∃ above, solid above = solid (steps dir) ∧
      steps (dir.join (Path.ofNames [])) = above ++ [.current] := by
  obtain ⟨above, joined⟩ := steps_of_slash (endsInSlash_join full)
  refine ⟨above, ?_, joined⟩
  calc solid above
      = solid (steps (dir.join (Path.ofNames []))) := by
        rw [joined, solid_append]
        exact (List.append_nil _).symm
    _ = solid (steps dir) := by
        rw [solid_steps, solid_steps, Path.parts_join dir proper_nil, List.map_nil, List.append_nil]

/-- Names below a place without links lead to the place that they say, if anywhere. -/
theorem stroll_names (linkless : ∀ names target, t.entry? (here ++ names) ≠ some (.link target))
    (follow : Bool) (same : solid rest = names.map .normal) :
    ∃ reached : Except FileErrorKind Place,
      t.stroll follow here rest = reached.map Reach.place ∧
        ∀ there, reached = .ok there →
          there = here ++ names ∧ names.any (255 < ·.utf8ByteSize) = false := by
  induction rest generalizing here names with
  | nil =>
      obtain rfl : names = [] := List.map_eq_nil_iff.1 same.symm
      refine ⟨.ok here, rfl, fun there found => ?_⟩
      cases found
      exact ⟨(List.append_nil here).symm, rfl⟩
  | cons part rest ih =>
      cases part with
      | current => exact ih linkless same
      | root => cases names <;> cases same
      | parent => cases names <;> cases same
      | normal name =>
          obtain ⟨first, names, rfl⟩ : ∃ first more, names = first :: more :=
            List.exists_cons_of_ne_nil fun none => by rw [none] at same; cases same
          obtain ⟨own, named⟩ := List.cons.inj same
          cases own
          by_cases long : 255 < name.utf8ByteSize
          · exact ⟨.error .invalidName, stroll_long long, fun there found => by cases found⟩
          · rcases entry : t.entry? (here ++ [name]) with _ | (bytes | _ | target)
            case some.link => exact absurd entry (linkless [name] target)
            case some.directory =>
              have below : ∀ names target,
                  t.entry? (here ++ [name] ++ names) ≠ some (.link target) := by
                intro names target
                rw [← List.append_cons]
                exact linkless (name :: names) target
              obtain ⟨reached, strolled, whole⟩ := ih below named
              refine ⟨reached, (stroll_directory long entry).trans strolled, fun there found => ?_⟩
              obtain ⟨rfl, short⟩ := whole there found
              exact ⟨(List.append_cons here name names).symm, by simp [long, short]⟩
            all_goals
              obtain ⟨kind, ends⟩ := stroll_end (t := t) rest follow long
                fun e found => by rw [entry] at found; cases found <;> exact ⟨_, rfl⟩
              rw [ends]
              by_cases last : rest = []
              · subst last
                obtain rfl : names = [] := List.map_eq_nil_iff.1 named.symm
                refine ⟨.ok (here ++ [name]), rfl, fun there found => ?_⟩
                cases found
                simp [long]
              · refine ⟨.error kind, ?_, fun there found => by cases found⟩
                rw [if_neg (by simpa using last)]
                rfl

theorem solid_names (names : List String) :
    solid (names.map .normal) = names.map .normal :=
  List.filter_eq_self.2 fun part there => by
    obtain ⟨name, -, rfl⟩ := List.mem_map.1 there
    rfl

/-- Where steps past a directory lead, the names behind it say, if there are no links below it. -/
theorem located_past {above : List Part} (found : t.locate p follow = .ok there)
    (split : steps p = above ++ more) (same : solid above = solid (steps dir))
    (named : solid more = names.map .normal) (many : more ≠ [])
    (linkless : ∀ place, t.DirAt dir place →
      ∀ names target, t.entry? (place ++ names) ≠ some (.link target)) :
    ∃ place, t.DirAt dir place ∧ there = place ++ names ∧
      names.any (255 < ·.utf8ByteSize) = false := by
  obtain ⟨checked, leads⟩ := locate_ok.1 found
  obtain ⟨place, front, rooted⟩ := leads.front split many rooted_nil
  have root : t.DirAt dir place := ⟨front.alike rooted.entry same.symm, rooted.entry⟩
  obtain ⟨reached, strolled, onto⟩ := stroll_names (linkless place root) follow named
  have resolved := resolve_append (fun none => absurd none many) front.resolve rooted.entry strolled
  rw [← split] at resolved
  obtain ⟨rfl, short⟩ := onto there (resolved.symm.trans leads.resolve)
  exact ⟨place, root, rfl, short⟩

/-- Where a path of names leads, the names say, if there are no links below its directory. -/
theorem located_below (proper : Place.Proper names)
    (found : t.locate (dir.join (Path.ofNames names)) follow = .ok there)
    (linkless : ∀ place, t.DirAt dir place →
      ∀ names target, t.entry? (place ++ names) ≠ some (.link target)) :
    ∃ place, t.DirAt dir place ∧ there = place ++ names ∧
      names.any (255 < ·.utf8ByteSize) = false := by
  -- The steps go past the directory, even where there are no names.
  by_cases none : names = []
  · subst none
    have full : (dir.join (Path.ofNames [])).text ≠ "" := by
      intro empty
      have checked := (locate_ok.1 found).1
      rw [empty] at checked
      cases checked
    obtain ⟨above, same, joined⟩ := steps_slashed full
    exact located_past found joined same rfl (by simp) linkless
  · obtain ⟨above, same, joined⟩ := steps_names dir proper none
    exact located_past found joined same (solid_names names) (by simpa using none) linkless

theorem linkless_of_entries {target : String}
    (h : ∀ x ∈ t.entries.entries, x.2 ≠ .link target) : t.entry? place ≠ some (.link target) := by
  intro there
  cases place with
  | nil => cases there
  | cons name rest => exact h _ (KeyMap.mem_entries.2 there) rfl

theorem entry_above (closed : t.Closed) (proper : Place.Proper (place ++ names))
    (many : names ≠ []) (found : t.entry? (place ++ names) = some e) :
    t.entry? place = some .directory := by
  induction names using List.reverseRecOn generalizing e with
  | nil => exact absurd rfl many
  | append_singleton front name ih =>
      rw [← List.append_assoc] at proper found
      have above := closed _ _ _ proper found
      by_cases last : front = []
      · subst last
        rwa [List.append_nil] at above
      · exact ih (List.forall_mem_append.1 proper).1 last above

theorem hasFile_of_closed (closed : t.Closed) (proper : Place.Proper (place ++ names))
    (many : names ≠ []) (found : t.entry? (place ++ names) = some (.file bytes)) :
    t.HasFile place names := by
  induction names generalizing place with
  | nil => exact absurd rfl many
  | cons name rest ih =>
      have own : ProperName name := proper name (by simp)
      by_cases last : rest = []
      · subst last
        exact .file own found
      · rw [List.append_cons] at proper found
        exact .inside own (entry_above closed proper last found) (ih proper last found)

/-! ## Changes of files -/

/-- Ways stay, and links are not new. -/
structure Continues (t u : FileTree) : Prop where
  ways : t.WaysIn u
  links : ∀ place target, u.entry? place = some (.link target) →
    t.entry? place = some (.link target)

theorem Continues.refl (t : FileTree) : t.Continues t := ⟨.refl t, fun _ _ => id⟩

/-- Files are the same but in some places. -/
structure Changes (changed : Place → Prop) (t u : FileTree) : Prop extends Continues t u where
  files : ∀ place bytes, place.Proper → ¬changed place →
    (u.entry? place = some (.file bytes) ↔ t.entry? place = some (.file bytes))

section

variable {changed changed' : Place → Prop}

theorem Changes.refl (t : FileTree) : Changes changed t t :=
  ⟨.refl t, fun _ _ _ _ => .rfl⟩

theorem Changes.trans (h : Changes changed t u) (h' : Changes changed u v) :
    Changes changed t v where
  ways := h.ways.trans h'.ways
  links place target there := h.links place target (h'.links place target there)
  files place bytes proper other :=
    (h'.files place bytes proper other).trans (h.files place bytes proper other)

theorem Changes.mono (h : Changes changed t u) (wider : ∀ place, changed place → changed' place) :
    Changes changed' t u :=
  ⟨h.toContinues, fun place bytes proper other => h.files place bytes proper (other ∘ wider place)⟩

theorem Extends.changes (h : t.Extends u) : Changes changed t u where
  ways := h.waysIn
  links place target there := by
    rcases h place with same | ⟨-, made⟩
    · rw [← same, there]
    · cases made.symm.trans there
  files place bytes _ _ := by
    rcases h place with same | ⟨free, made⟩
    · rw [same]
    · rw [free, made]
      exact ⟨(fun there => by cases there), fun there => by cases there⟩

/-- A write changes the file that its path leads to. -/
theorem changes_write (written : t.write p bytes = .ok u) :
    Changes (fun place => u.locate p true = .ok place) t u := by
  obtain ⟨there, located, under, ended, rfl⟩ := write_ok written
  have ways : t.WaysIn (t.put there (.file bytes)) := (waysIn_put under ended).1
  refine ⟨⟨ways, fun other target link => ?_⟩, fun other own proper apart => ?_⟩
  · rw [entry_put] at link
    split at link
    · cases link
    · exact link
  · rw [entry_put, if_neg]
    rintro ⟨-, same⟩
    obtain rfl := Path.text_injective proper (locate_proper located) same
    exact apart (locate_of_ways ways located)

theorem closed_remove (closed : t.Closed) (here : Place) : (t.remove here).Closed := by
  intro place name e proper there
  have proper' := (List.forall_mem_append.1 proper).1
  rw [entry_remove proper (by simp)] at there
  split at there
  · cases there
  · rename_i apart
    have above := closed place name e proper there
    by_cases root : place = []
    · subst root
      rfl
    · rw [entry_remove proper' root,
        if_neg fun start => apart (start.trans (List.prefix_append _ _))]
      exact above

theorem changes_remove (closed : t.Closed) (there : t.entry? place = some (.file bytes)) :
    Changes (· = place) t (t.remove place) := by
  refine ⟨⟨waysIn_remove (ends_of_file there), fun other target link =>
    (thins_removeWhere _).entry link⟩, fun other own proper apart => ?_⟩
  by_cases root : other = []
  · subst root
    exact .rfl
  · rw [entry_remove proper root]
    split
    · rename_i start
      obtain ⟨below, rfl⟩ := start
      have deeper : below ≠ [] := by
        rintro rfl
        exact apart (List.append_nil _)
      refine ⟨(fun none => by cases none), fun file => ?_⟩
      cases there.symm.trans (entry_above closed proper deeper file)
    · exact .rfl

/-! ## What is read -/

theorem readText_ok : t.readText p = .ok text ↔ ∃ place bytes, t.locate p true = .ok place ∧
    t.entry? place = some (.file bytes) ∧ String.fromUTF8? ⟨bytes.toArray⟩ = some text := by
  constructor
  · intro found
    obtain ⟨bytes, read, decoded⟩ := ok_of_bind found
    obtain ⟨e, status, read⟩ := ok_of_bind read
    cases entry : t.entryAt p true with
    | error kind =>
        unfold FileTree.status at status
        rw [entry] at status
        cases status
    | ok found =>
        obtain ⟨place, e'⟩ := found
        unfold FileTree.status at status
        rw [entry] at status
        cases status
        obtain ⟨located, there⟩ := entryAt_ok.1 entry
        cases e' with
        | file own =>
            cases read
            refine ⟨place, bytes, located, there, ?_⟩
            split at decoded
            · rename_i decoded'
              cases decoded
              exact decoded'
            · cases decoded
        | directory => cases read
        | link target => cases read
  · rintro ⟨place, bytes, located, there, decoded⟩
    have opened : t.read p = .ok bytes := by
      unfold read FileTree.status
      rw [entryAt_ok.2 ⟨located, there⟩]
      rfl
    unfold readText
    rw [opened]
    simp only [bind, Except.bind, decoded]

/-- No file that is there has its path only once directories have been made. -/
def Direct (t : FileTree) (p : Path) : Prop :=
  ∀ u place bytes, t.Continues u → u.locate p true = .ok place →
    t.entry? place = some (.file bytes) → u.entry? place = some (.file bytes) →
      t.locate p true = .ok place

/-- What a path leads to is read as before if it is not changed. -/
theorem Changes.readText_iff (h : Changes changed t u) (direct : t.Direct p)
    (apart : ∀ place, u.locate p true = .ok place → ¬changed place) :
    u.readText p = .ok text ↔ t.readText p = .ok text := by
  constructor
  · intro found
    obtain ⟨place, bytes, located, there, decoded⟩ := readText_ok.1 found
    have same := (h.files place bytes (locate_proper located) (apart place located)).1 there
    exact readText_ok.2
      ⟨place, bytes, direct u place bytes h.toContinues located same there, same, decoded⟩
  · intro found
    obtain ⟨place, bytes, located, there, decoded⟩ := readText_ok.1 found
    have located' := locate_of_ways h.ways located
    exact readText_ok.2 ⟨place, bytes, located',
      (h.files place bytes (locate_proper located) (apart place located')).2 there, decoded⟩

end

/-! ## Tidy directories -/

/-- Where a directory is, or will be when it has been made, are no links. It is either there, or it
has yet to be made. -/
structure Tidy (t : FileTree) (dir : Path) : Prop where
  linkless : ∀ {u : FileTree} {place : Place} (names : List String) (target : String),
    t.Continues u → u.DirAt dir place → t.entry? (place ++ names) ≠ some (.link target)
  direct : ∀ {u : FileTree} {place : Place}, t.Continues u → u.DirAt dir place →
    t.entry? place = some .directory → t.DirAt dir place

/-- A directory is tidy if it is there and has no links below it. -/
theorem DirAt.tidy (root : t.DirAt dir place)
    (linkless : ∀ names target, t.entry? (place ++ names) ≠ some (.link target)) : t.Tidy dir where
  linkless names target on root' := by
    rw [root'.unique (root.of_ways on.ways)]
    exact linkless names target
  direct on root' _ := by
    rw [root'.unique (root.of_ways on.ways)]
    exact root

theorem rooted_of_closed (closed : t.Closed) (proper : place.Proper)
    (there : t.entry? place = some .directory) : t.Rooted place := by
  induction place using List.reverseRecOn with
  | nil => exact rooted_nil
  | append_singleton here name ih =>
      exact (ih (List.forall_mem_append.1 proper).1 (closed here name _ proper there)).next there

theorem Rooted.stroll (rooted : t.Rooted (here ++ names))
    (short : names.any (255 < ·.utf8ByteSize) = false) :
    t.stroll follow here (names.map .normal) = .ok (.place (here ++ names)) := by
  induction names generalizing here with
  | nil =>
      rw [List.append_nil]
      rfl
  | cons name rest ih =>
      obtain ⟨own, others⟩ := Bool.or_eq_false_iff.1 short
      rw [List.append_cons] at rooted ⊢
      rw [List.map_cons, stroll_directory (of_decide_eq_false own)
        (rooted _ (List.prefix_append _ rest))]
      exact ih rooted others

/-- In a tree without links every directory is tidy, made or not, whose path is that of its
place. -/
theorem tidy_of_linkless (linkless : ∀ place target, t.entry? place ≠ some (.link target))
    (closed : t.Closed) (proper : place.Proper) (many : place ≠ []) : t.Tidy place.path where
  linkless names target _ _ := linkless _ target
  direct {u there} on root directory := by
    have steps : steps place.path = .root :: place.map .normal := by
      have text : place.path.text.toList = '/' :: ("/".intercalate place).toList :=
        String.toList_append
      rw [Path.steps_of_absolute text, stepsFrom_names proper many]
    have linkless' : ∀ names target, u.entry? ([] ++ names) ≠ some (.link target) :=
      fun names target link => linkless _ target (on.links _ _ link)
    obtain ⟨reached, strolled, onto⟩ := stroll_names linkless' true (solid_names place)
    have leads := root.1
    rw [steps] at leads
    have resolved : u.resolve true linkBudget [] ([.root] ++ place.map .normal) = reached :=
      resolve_append (fun _ => rfl) (Leads.place rfl).resolve rfl strolled
    obtain ⟨rfl, short⟩ := onto there (resolved.symm.trans leads.resolve)
    have rooted : t.Rooted ([] ++ there) := rooted_of_closed closed proper directory
    refine ⟨?_, directory⟩
    rw [steps]
    exact .place (rooted.stroll short)

theorem Tidy.located (tidy : t.Tidy dir) (on : t.Continues u) (proper : Place.Proper names)
    (found : u.locate (dir.join (Path.ofNames names)) follow = .ok there) :
    ∃ place, u.DirAt dir place ∧ there = place ++ names ∧
      names.any (255 < ·.utf8ByteSize) = false :=
  located_below proper found fun _ root names target link =>
    tidy.linkless names target on root (on.links _ _ link)

theorem Tidy.direct_file (tidy : t.Tidy dir) (closed : t.Closed) (proper : Place.Proper names) :
    t.Direct (dir.join (Path.ofNames names)) := by
  intro u there bytes on located before after
  obtain ⟨place, root, rfl, short⟩ := tidy.located on proper located
  have many : names ≠ [] := by
    rintro rfl
    rw [List.append_nil] at after
    cases after.symm.trans root.2
  have proper' := locate_proper located
  have root' := tidy.direct on root (entry_above closed proper' many before)
  obtain ⟨above, same, joined⟩ := steps_names dir proper many
  have goes : t.stroll true place (names.map .normal) =
      (Except.ok (place ++ names) : Except FileErrorKind Place).map Reach.place := by
    rw [(hasFile_of_closed closed proper' many before).stroll, short]
    rfl
  refine locate_ok.2 ⟨(locate_ok.1 located).1, leads_of_resolve ?_⟩
  rw [joined]
  exact resolve_append (fun _ => rfl) (root'.1.alike root'.2 same).resolve root'.2 goes

theorem slashless_of_removeFile (removed : t.removeFile p = .ok u) : endsInSlash p = false := by
  refine Bool.eq_false_iff.2 fun slash => ?_
  unfold FileTree.removeFile at removed
  obtain ⟨⟨place, e⟩, -, removed⟩ := ok_of_bind removed
  rw [slash] at removed
  cases e <;> cases removed

/-- What is removed below a tidy directory is the file that its names say. -/
theorem Tidy.removeFile (tidy : t.Tidy dir) (closed : t.Closed) (on : t.Continues u)
    (thins : t.Thins u) (closed' : u.Closed) (proper : Place.Proper names)
    (removed : u.removeFile (dir.join (Path.ofNames names)) = .ok v) :
    (∃ place, t.locate (dir.join (Path.ofNames names)) true = .ok place ∧
      Changes (· = place) u v) ∧ v.Closed := by
  obtain ⟨there, e, found, file, rfl⟩ := removeFile_eq removed
  rw [withoutSlashes_eq (slashless_of_removeFile removed)] at found
  obtain ⟨located, own⟩ := entryAt_ok.1 found
  have real : ∀ target, u.entry? there ≠ some (.link target) := by
    obtain ⟨place, root, rfl, -⟩ := tidy.located on proper located
    exact fun target link => tidy.linkless names target on root (on.links _ _ link)
  cases e with
  | directory => exact absurd rfl file
  | link target => exact absurd own (real target)
  | file bytes =>
      obtain ⟨checked, leads⟩ := locate_ok.1 located
      have located' := locate_ok.2 ⟨checked, leads.followed real⟩
      exact ⟨⟨there, tidy.direct_file closed proper u there bytes on located' (thins.entry own) own,
        changes_remove closed' own⟩, closed_remove closed' there⟩

end TemplateCache.FileTree
