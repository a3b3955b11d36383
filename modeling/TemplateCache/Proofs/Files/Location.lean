import Mathlib.Data.List.Nodup
import Mathlib.Data.List.Perm.Subperm
import TemplateCache.Proofs.Files.Growth
import TemplateCache.Proofs.KeyMap

/-!
# Where paths lead

Below a directory, the path with some names leads to the file with these names, also where the
directory itself is reached through links. No file is deeper than the tree has entries. Making
directories changes neither which files there are nor where their paths lead.
-/

namespace TemplateCache

namespace FileTree

variable {t u : FileTree} {place here : Place} {name : String} {names : List String} {e : Entry}
  {base : Path} {bytes : List UInt8}

/-- Where there is something at every place on the way by some names, there are no more of them than
the tree has entries. -/
theorem length_le_of_entries (proper : place.Proper) (proper' : Place.Proper names)
    (found : ∀ {count : Nat}, 0 < count → ∃ e, t.entry? (place ++ names.take count) = some e) :
    names.length ≤ t.entries.size := by
  have all (count : Nat) : Place.Proper (place ++ names.take count) := by
    intro n there
    rcases List.mem_append.1 there with above | below
    · exact proper n above
    · exact proper' n (List.mem_of_mem_take below)
  -- The places on the way are different keys of the tree.
  let texts := (List.range names.length).map fun n => Place.text (place ++ names.take (n + 1))
  have apart : texts.Nodup := by
    refine List.Nodup.map_on (fun m below n below' same => ?_) List.nodup_range
    have places := Path.text_injective (all _) (all _) same
    have lengths := congrArg List.length (List.append_cancel_left places)
    rw [List.length_take, List.length_take] at lengths
    rw [List.mem_range] at below below'
    omega
  have keys : texts ⊆ t.entries.keys := by
    intro text there
    obtain ⟨n, within, rfl⟩ := List.mem_map.1 there
    obtain ⟨e, entry⟩ := found (Nat.succ_pos n)
    refine KeyMap.mem_keys.2 ⟨e, ?_⟩
    cases place' : place ++ names.take (n + 1) with
    | nil =>
        have lengths := congrArg List.length place'
        rw [List.mem_range] at within
        simp only [List.length_append, List.length_take, List.length_nil] at lengths
        omega
    | cons first more =>
        rw [place'] at entry
        exact entry
  have bound := (List.subperm_of_subset apart keys).length_le
  simpa [texts, KeyMap.keys, KeyMap.size] using bound

/-- A regular file lies below a place by some names, and what is on the way are real directories. -/
inductive HasFile (t : FileTree) : Place → List String → Prop where
  | file {place : Place} {name : String} {bytes : List UInt8} (proper : ProperName name)
      (there : t.entry? (place ++ [name]) = some (.file bytes)) : HasFile t place [name]
  | inside {place : Place} {name : String} {names : List String} (proper : ProperName name)
      (directory : t.entry? (place ++ [name]) = some .directory)
      (rest : HasFile t (place ++ [name]) names) : HasFile t place (name :: names)

namespace HasFile

theorem proper (file : t.HasFile place names) : Place.Proper names := by
  induction file with
  | file own there => exact List.forall_mem_singleton.2 own
  | inside own directory rest ih => exact List.forall_mem_cons.2 ⟨own, ih⟩

theorem ne_nil (file : t.HasFile place names) : names ≠ [] := by
  cases file with
  | file own there => exact List.cons_ne_nil _ _
  | inside own directory rest => exact List.cons_ne_nil _ _

theorem entry (file : t.HasFile place names) :
    ∃ bytes, t.entry? (place ++ names) = some (.file bytes) := by
  induction file with
  | file own there => exact ⟨_, there⟩
  | inside own directory rest ih =>
      rw [List.append_cons]
      exact ih

/-- There is something at every place on the way. -/
theorem entry_take (file : t.HasFile place names) {count : Nat} (some : 0 < count) :
    ∃ e, t.entry? (place ++ names.take count) = Option.some e := by
  induction file generalizing count with
  | file own there =>
      obtain ⟨more, rfl⟩ := Nat.exists_eq_add_of_lt some
      exact ⟨_, by simpa using there⟩
  | inside own directory rest ih =>
      cases count with
      | zero => exact absurd some (Nat.lt_irrefl 0)
      | succ count =>
          rw [List.take_succ_cons, List.append_cons]
          cases count with
          | zero => exact ⟨_, by simpa using directory⟩
          | succ count => exact ih (Nat.succ_pos _)

/-- No file is deeper than the tree has entries. -/
theorem length_le (file : t.HasFile place names) (proper : place.Proper) :
    names.length ≤ t.entries.size :=
  length_le_of_entries proper file.proper fun some => file.entry_take some

end HasFile

/-! ## The way to a file -/

/-- Where the directories on the way are real, only a name that is too long is in the way. -/
theorem HasFile.stroll (file : t.HasFile here names) (follow : Bool) :
    t.stroll follow here (names.map .normal) =
      if names.any (255 < ·.utf8ByteSize) then .error .invalidName
      else .ok (.place (here ++ names)) := by
  induction file with
  | @file place name bytes own there =>
      simp only [List.map_cons, List.map_nil, FileTree.stroll, there, List.any_cons, List.any_nil,
        Bool.or_false, decide_eq_true_eq, List.isEmpty_nil, if_true]
  | @inside place name names own directory rest ih =>
      simp only [List.map_cons, FileTree.stroll, directory, List.any_cons, Bool.or_eq_true,
        decide_eq_true_eq]
      by_cases long : 255 < name.utf8ByteSize
      · simp [long]
      · simp [long, ih]

section

variable {rest more : List Part} {follow : Bool}

theorem stroll_long (long : 255 < name.utf8ByteSize) :
    t.stroll follow here (.normal name :: rest) = .error .invalidName := if_pos long

theorem stroll_directory (short : ¬255 < name.utf8ByteSize)
    (there : t.entry? (here ++ [name]) = some .directory) :
    t.stroll follow here (.normal name :: rest) = t.stroll follow (here ++ [name]) rest := by
  rw [stroll]
  simp only [short, there, if_false]

theorem stroll_link (short : ¬255 < name.utf8ByteSize) {target : String}
    (there : t.entry? (here ++ [name]) = some (.link target)) :
    t.stroll follow here (.normal name :: rest) =
      if rest.isEmpty && !follow then .ok (.place (here ++ [name]))
      else .ok (.link here target rest) := by
  rw [stroll]
  simp only [short, there, if_false]

/-- Nothing is behind what is no directory. -/
theorem stroll_end (rest : List Part) (follow : Bool) (short : ¬255 < name.utf8ByteSize)
    (there : ∀ e, t.entry? (here ++ [name]) = some e → ∃ bytes, e = .file bytes) :
    ∃ kind, t.stroll follow here (.normal name :: rest) =
      if rest.isEmpty then .ok (.place (here ++ [name])) else .error kind := by
  rw [stroll]
  simp only [short, if_false]
  cases found : t.entry? (here ++ [name]) with
  | none => exact ⟨_, rfl⟩
  | some e =>
      obtain ⟨bytes, rfl⟩ := there e found
      exact ⟨_, rfl⟩

/-- Behind a directory a stroll goes on from there. A link in front of something is followed. -/
theorem stroll_append (rest : List Part) (onward : more = [] → follow = true) :
    (∀ place, t.stroll true here rest = .ok (.place place) → t.entry? place = some .directory →
      t.stroll follow here (rest ++ more) = t.stroll follow place more) ∧
    ∀ directory target left, t.stroll true here rest = .ok (.link directory target left) →
      t.stroll follow here (rest ++ more) = .ok (.link directory target (left ++ more)) := by
  induction rest generalizing here with
  | nil =>
      refine ⟨fun place found _ => ?_, nofun⟩
      cases found
      rfl
  | cons part rest ih =>
      cases part with
      | normal name =>
          by_cases long : 255 < name.utf8ByteSize
          · rw [stroll_long long]
            exact ⟨nofun, nofun⟩
          · rcases there : t.entry? (here ++ [name]) with _ | (bytes | _ | target)
            case some.directory =>
              rw [List.cons_append, stroll_directory long there, stroll_directory long there]
              exact ih
            case some.link =>
              have goes : ((rest ++ more).isEmpty && !follow) = false := by
                rw [Bool.and_eq_false_iff, List.isEmpty_eq_false_iff]
                by_cases none : more = []
                · exact .inr (by rw [onward none]; rfl)
                · exact .inl (List.append_ne_nil_of_right_ne_nil rest none)
              rw [List.cons_append, stroll_link long there, stroll_link long there, goes]
              simp
            all_goals
              obtain ⟨kind, ends⟩ := stroll_end (t := t) rest true long
                fun e found => by rw [there] at found; cases found <;> exact ⟨_, rfl⟩
              rw [ends]
              constructor
              · intro place found directory
                split at found <;> cases found
                rw [there] at directory
                cases directory
              · intro directory target left found
                split at found <;> cases found
      | root => exact ih
      | current => exact ih
      | parent => exact ih

/-- Where a stroll gets past the end of a path that ends in a slash, it gets to the end of the path
without the slash. -/
theorem stroll_current (rest : List Part) :
    (∀ place, t.stroll true here (rest ++ [.current]) = .ok (.place place) →
      t.stroll true here rest = .ok (.place place)) ∧
    ∀ directory target left,
      t.stroll true here (rest ++ [.current]) = .ok (.link directory target left) →
        ∃ left', left = left' ++ [.current] ∧
          t.stroll true here rest = .ok (.link directory target left') := by
  induction rest generalizing here with
  | nil => exact ⟨fun place found => found, nofun⟩
  | cons part rest ih =>
      cases part with
      | normal name =>
          rw [List.cons_append]
          by_cases long : 255 < name.utf8ByteSize
          · rw [stroll_long long]
            exact ⟨nofun, nofun⟩
          · rcases there : t.entry? (here ++ [name]) with _ | (bytes | _ | target)
            case some.directory =>
              rw [stroll_directory long there, stroll_directory long there]
              exact ih
            case some.link =>
              rw [stroll_link long there, stroll_link long there]
              refine ⟨fun place found => by simp at found, fun directory target' left found => ?_⟩
              simp only [Bool.not_true, Bool.and_false, Bool.false_eq_true, if_false,
                Except.ok.injEq, Reach.link.injEq] at found ⊢
              obtain ⟨rfl, rfl, rfl⟩ := found
              exact ⟨rest, rfl, rfl, rfl, rfl⟩
            all_goals
              obtain ⟨kind, ends⟩ := stroll_end (t := t) (rest ++ [.current]) true long
                fun e found => by rw [there] at found; cases found <;> exact ⟨_, rfl⟩
              rw [ends, if_neg (by simp)]
              exact ⟨nofun, nofun⟩
      | root => exact ih
      | current => exact ih
      | parent => exact ih

theorem resolve_current {links : Nat}
    (found : t.resolve true links here (rest ++ [.current]) = .ok place) :
    t.resolve true links here rest = .ok place := by
  induction links generalizing here rest with
  | zero =>
      unfold resolve at found ⊢
      obtain ⟨reach, strolled, found⟩ := ok_of_bind found
      cases reach with
      | place there =>
          rw [(stroll_current rest).1 _ strolled]
          exact found
      | link directory target left => cases found
  | succ links ih =>
      unfold resolve at found ⊢
      obtain ⟨reach, strolled, found⟩ := ok_of_bind found
      cases reach with
      | place there =>
          rw [(stroll_current rest).1 _ strolled]
          exact found
      | link directory target left =>
          obtain ⟨_, checked, found⟩ := ok_of_bind found
          obtain ⟨left', rfl, strolled'⟩ := (stroll_current rest).2 _ _ _ strolled
          rw [strolled']
          show (checkText target >>= fun _ =>
            t.resolve true links directory (steps ⟨target⟩ ++ left')) = .ok place
          rw [checked]
          exact ih (by rw [List.append_assoc]; exact found)

/-- Behind a path to a directory there are no links to follow if there are none behind the
directory. -/
theorem resolve_append {links : Nat} (onward : more = [] → follow = true)
    (found : t.resolve true links here rest = .ok place)
    (directory : t.entry? place = some .directory) {reached : Except FileErrorKind Place}
    (goes : t.stroll follow place more = reached.map Reach.place) :
    t.resolve follow links here (rest ++ more) = reached := by
  induction links generalizing here rest with
  | zero =>
      unfold resolve at found ⊢
      obtain ⟨reach, strolled, found⟩ := ok_of_bind found
      cases reach with
      | place there =>
          cases found
          rw [(stroll_append rest onward).1 _ strolled directory, goes]
          cases reached <;> rfl
      | link directory target left => cases found
  | succ links ih =>
      unfold resolve at found ⊢
      obtain ⟨reach, strolled, found⟩ := ok_of_bind found
      cases reach with
      | place there =>
          cases found
          rw [(stroll_append rest onward).1 _ strolled directory, goes]
          cases reached <;> rfl
      | link directory target left =>
          obtain ⟨_, checked, found⟩ := ok_of_bind found
          rw [(stroll_append rest onward).2 _ _ _ strolled]
          show (checkText target >>= fun _ =>
            t.resolve follow links directory (steps ⟨target⟩ ++ (left ++ more))) = reached
          rw [checked, ← List.append_assoc]
          exact ih found

end

/-! ## Steps of joined paths -/

theorem stepsFrom_slash (front rest segment : List Char) :
    stepsFrom (front ++ '/' :: rest) segment = stepsFrom front segment ++ stepsFrom rest [] := by
  induction front generalizing segment with
  | nil => simp [stepsFrom]
  | cons c front ih =>
      rw [List.cons_append, stepsFrom, stepsFrom]
      split
      · rw [ih]
        rfl
      · exact ih _

theorem stepsFrom_segment {chars : List Char} (plain : '/' ∉ chars) (segment : List Char) :
    stepsFrom chars segment = [stepOf (segment.reverse ++ chars)] := by
  induction chars generalizing segment with
  | nil => rw [stepsFrom, List.append_nil]
  | cons c chars ih =>
      rw [List.mem_cons, not_or] at plain
      rw [stepsFrom, if_neg (Ne.symm plain.1), ih plain.2, List.reverse_cons, List.append_assoc]
      rfl

theorem stepOf_name (proper : ProperName name) : stepOf name.toList = .normal name := by
  obtain ⟨-, full, dot, dots⟩ := proper
  unfold stepOf
  split
  · exact absurd ‹_› full
  · exact absurd ‹_› dot
  · exact absurd ‹_› dots
  · rw [String.ofList_toList]

theorem stepsFrom_names (proper : Place.Proper names) (many : names ≠ []) :
    stepsFrom ("/".intercalate names).toList [] = names.map .normal := by
  induction names with
  | nil => exact absurd rfl many
  | cons name rest ih =>
      obtain ⟨own, others⟩ := List.forall_mem_cons.1 proper
      have first : stepsFrom name.toList [] = [.normal name] := by
        rw [stepsFrom_segment own.1]
        exact congrArg (· :: []) (stepOf_name own)
      cases rest with
      | nil =>
          rw [String.intercalate_singleton]
          exact first
      | cons next rest =>
          rw [String.intercalate_cons_cons, String.toList_append, String.toList_append,
            List.append_assoc]
          refine (stepsFrom_slash name.toList _ []).trans ?_
          rw [first]
          exact congrArg (Part.normal name :: ·) (ih others (List.cons_ne_nil _ _))

theorem steps_relative {p : Path} {c : Char} {chars : List Char} (own : p.text.toList = c :: chars)
    (relative : c ≠ '/') : steps p = stepsFrom (c :: chars) [] := by
  unfold steps
  rw [own]
  split
  · exact absurd (List.cons.inj ‹_›).1 relative
  · rfl

theorem steps_slash {p q : Path} {before rest : List Char} (many : before ≠ [])
    (front : p.text.toList = before) (whole : q.text.toList = before ++ '/' :: rest) :
    steps q = steps p ++ stepsFrom rest [] := by
  obtain ⟨c, chars, rfl⟩ := List.exists_cons_of_ne_nil many
  by_cases root : c = '/'
  · subst root
    unfold steps
    rw [front, whole]
    exact congrArg (Part.root :: ·) (stepsFrom_slash chars rest [])
  · rw [steps_relative front root, steps_relative whole root]
    exact stepsFrom_slash (c :: chars) rest []

/-- The steps of a path with names behind it. A slash at its end is no step any more. -/
theorem steps_join (full : base.text ≠ "") (proper : Place.Proper names) (many : names ≠ []) :
    ∃ above, (steps base = above ∨ steps base = above ++ [.current]) ∧
      steps (base.join (Path.ofNames names)) = above ++ names.map .normal := by
  have text := Path.toList_join full proper
  have chars : base.text.toList ≠ [] := by simpa using full
  rw [← stepsFrom_names proper many]
  split at text
  · rename_i slash
    obtain ⟨before, ends⟩ := List.getLast?_eq_some_iff.1 slash
    rw [ends] at text
    by_cases root : before = []
    · subst root
      refine ⟨[.root], .inr ?_, ?_⟩
      · unfold steps
        rw [ends]
        rfl
      · unfold steps
        rw [text]
        rfl
    · refine ⟨steps ⟨String.ofList before⟩, .inr ?_, ?_⟩
      · exact steps_slash root String.toList_ofList ends
      · exact steps_slash root String.toList_ofList
          (text.trans (List.append_assoc before ['/'] _))
  · exact ⟨steps base, .inl rfl,
      steps_slash chars rfl (text.trans (List.append_assoc _ ['/'] _))⟩

theorem text_ne {x : Place × Entry} {follow : Bool} (found : t.entryAt base follow = .ok x) :
    base.text ≠ "" := by
  intro empty
  simp [entryAt, locate, checkText, empty, bind, Except.bind] at found

/-- The steps to the names below a directory come through the place of the directory. -/
theorem resolve_above (root : t.entryAt base true = .ok (place, .directory))
    (proper : Place.Proper names) (many : names ≠ []) :
    ∃ above, steps (base.join (Path.ofNames names)) = above ++ names.map .normal ∧
      t.resolve true linkBudget [] above = .ok place ∧ t.entry? place = some .directory := by
  obtain ⟨-, directory⟩ := entryAt_proper root
  have full := text_ne root
  unfold entryAt locate at root
  obtain ⟨place', located, found⟩ := ok_of_bind root
  obtain ⟨_, checked, resolved⟩ := ok_of_bind located
  have same : place' = place := by
    cases there' : t.entry? place' with
    | none =>
        rw [there'] at found
        cases found
    | some e' =>
        rw [there'] at found
        cases found
        rfl
  subst same
  obtain ⟨above, own, joined⟩ := steps_join full proper many
  refine ⟨above, joined, ?_, directory⟩
  rcases own with same | slash
  · rw [same] at resolved
    exact resolved
  · rw [slash] at resolved
    exact resolve_current resolved

/-- Below a directory, a path of names leads to the file with these names, unless a text is too
long. -/
theorem entryAt_join (root : t.entryAt base true = .ok (place, .directory))
    (file : t.HasFile place names) (there : t.entry? (place ++ names) = some e) :
    t.entryAt (base.join (Path.ofNames names)) true = (do
      checkText (base.join (Path.ofNames names)).text
      if names.any (255 < ·.utf8ByteSize) then .error .invalidName
      else .ok (place ++ names, e)) := by
  obtain ⟨above, joined, resolved, directory⟩ := resolve_above root file.proper file.ne_nil
  have goes : t.stroll true place (names.map .normal) =
      (if names.any (255 < ·.utf8ByteSize) then .error .invalidName
        else .ok (place ++ names) : Except FileErrorKind Place).map Reach.place := by
    rw [file.stroll]
    split <;> rfl
  have whole := resolve_append (fun _ => rfl) resolved directory goes
  unfold entryAt locate
  rw [joined, whole]
  cases checkText (base.join (Path.ofNames names)).text with
  | error kind => rfl
  | ok _ =>
      by_cases long : names.any (255 < ·.utf8ByteSize) = true
      · rw [if_pos long, if_pos long]
        rfl
      · rw [if_neg long, if_neg long]
        dsimp only [bind, Except.bind]
        rw [there]

/-! ## Trees with more directories -/

theorem HasFile.extends (h : t.Extends u) (file : t.HasFile place names) :
    u.HasFile place names := by
  induction file with
  | file own there => exact .file own (h.entry there)
  | inside own directory rest ih => exact .inside own (h.entry directory) ih

/-- New directories give no way to files that there was no way to. -/
theorem HasFile.of_extends (closed : t.Closed) (h : t.Extends u) (file : u.HasFile place names)
    (proper : place.Proper) : t.HasFile place names := by
  induction file with
  | @file place name bytes own there =>
      have kept : t.entry? (place ++ [name]) = some (.file bytes) := by
        rcases h (place ++ [name]) with same | ⟨-, made⟩
        · rw [← same, there]
        · rw [made] at there
          cases there
      exact .file own kept
  | @inside place name names own directory rest ih =>
      have next : Place.Proper (place ++ [name]) :=
        List.forall_mem_append.2 ⟨proper, List.forall_mem_singleton.2 own⟩
      have further {n : String} (own' : ProperName n) :
          Place.Proper (place ++ [name] ++ [n]) :=
        List.forall_mem_append.2 ⟨next, List.forall_mem_singleton.2 own'⟩
      have before := ih next
      refine .inside own ?_ before
      cases before with
      | file own' there => exact closed _ _ _ (further own') there
      | inside own' directory' _ => exact closed _ _ _ (further own') directory'

/-- What a path below the root of a walk leads to, does not change where directories are made. -/
theorem entryAt_extends (h : t.Extends u) (root : t.entryAt base true = .ok (place, .directory))
    (file : t.HasFile place names) :
    u.entryAt (base.join (Path.ofNames names)) true =
      t.entryAt (base.join (Path.ofNames names)) true := by
  obtain ⟨bytes, there⟩ := file.entry
  rw [entryAt_join root file there, entryAt_join (entryAt_of_thins h.thins root).1
    (file.extends h) (h.entry there)]

/-! ## Links that are not followed -/

/-- Where a path ends at a link, something is there also for those who do not follow it. -/
theorem stroll_unfollowed (t : FileTree) (here : Place) (rest : List Part) :
    t.stroll false here rest = t.stroll true here rest ∨
      ∃ place directory target, t.stroll true here rest = .ok (.link directory target []) ∧
        t.stroll false here rest = .ok (.place place) ∧ t.entry? place = some (.link target) := by
  induction rest generalizing here with
  | nil => exact .inl rfl
  | cons part rest ih =>
      cases part with
      | normal name =>
          by_cases long : 255 < name.utf8ByteSize
          · exact .inl ((stroll_long long).trans (stroll_long long).symm)
          · rcases there : t.entry? (here ++ [name]) with _ | (bytes | _ | target)
            case some.directory =>
              rw [stroll_directory long there, stroll_directory long there]
              exact ih _
            case some.link =>
              rw [stroll_link long there, stroll_link long there]
              cases rest with
              | nil => exact .inr ⟨_, _, _, rfl, rfl, there⟩
              | cons next rest => exact .inl rfl
            all_goals
              refine .inl ?_
              rw [stroll, stroll]
              simp [there]
      | root => exact ih _
      | current => exact ih _
      | parent => exact ih _

theorem resolve_unfollowed {links : Nat} {rest : List Part}
    (found : t.resolve true links here rest = .ok place) (there : t.entry? place = some e) :
    ∃ place' e', t.resolve false links here rest = .ok place' ∧ t.entry? place' = some e' := by
  induction links generalizing here rest with
  | zero =>
      unfold resolve at found ⊢
      obtain ⟨reach, strolled, found⟩ := ok_of_bind found
      cases reach with
      | place here' =>
          cases found
          rcases stroll_unfollowed t here rest with same | ⟨_, _, _, link, -⟩
          · rw [same, strolled]
            exact ⟨_, e, rfl, there⟩
          · rw [link] at strolled
            cases strolled
      | link directory target left => cases found
  | succ links ih =>
      unfold resolve at found ⊢
      obtain ⟨reach, strolled, found⟩ := ok_of_bind found
      rcases stroll_unfollowed t here rest with
        same | ⟨place', _, target, -, stays, link⟩
      · rw [same, strolled]
        cases reach with
        | place here' =>
            cases found
            exact ⟨_, e, rfl, there⟩
        | link directory target left =>
            obtain ⟨_, checked, found⟩ := ok_of_bind found
            obtain ⟨place', e', resolved, there'⟩ := ih found
            refine ⟨place', e', ?_, there'⟩
            show (checkText target >>= fun _ =>
              t.resolve false links directory (steps ⟨target⟩ ++ left)) = .ok place'
            rw [checked]
            exact resolved
      · rw [stays]
        exact ⟨place', _, rfl, link⟩

theorem entryAt_unfollowed {x : Place × Entry} (found : t.entryAt base true = .ok x) :
    ∃ y, t.entryAt base false = .ok y := by
  unfold entryAt locate at found ⊢
  obtain ⟨place', located, found⟩ := ok_of_bind found
  obtain ⟨_, checked, resolved⟩ := ok_of_bind located
  cases there : t.entry? place' with
  | none =>
      rw [there] at found
      cases found
  | some e =>
      obtain ⟨place'', e', resolved', there'⟩ := resolve_unfollowed resolved there
      refine ⟨(place'', e'), ?_⟩
      rw [checked]
      show (t.resolve false linkBudget [] (steps base) >>= _) = _
      rw [resolved']
      dsimp only [bind, Except.bind]
      rw [there']

end FileTree
end TemplateCache
