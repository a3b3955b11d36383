import Mathlib.Data.List.TakeWhile
import TemplateCache.Proofs.Files.Ways

/-!
# Directories by their paths

Whether a path leads to a directory depends on its parts alone, not on the slashes and dots between
them. Where the path above the last part of a path leads to a directory, nothing on the way to it is
missing. So making a directory and those above it never fails because one is missing, and when it
succeeds the path leads to a directory.
-/

namespace TemplateCache

theorem FileTree.stepOf_other {chars : List Char} (full : chars ≠ []) (dot : chars ≠ ['.'])
    (dots : chars ≠ ['.', '.']) : stepOf chars = .normal (String.ofList chars) := by
  unfold stepOf
  split
  · exact absurd rfl full
  · exact absurd rfl dot
  · exact absurd rfl dots
  · rfl

namespace Path

variable {p q : Path} {s : Span} {before after : List Span} {chars segment : List Char}
  {start : Nat}

/-! ## Texts up to a part -/

theorem close_eq (spans : spansFrom.close start segment = before ++ s :: after) :
    before = [] ∧ after = [] ∧ s.stop = start + segment.length ∧ s.part ≠ .root ∧
      (s.part = .current → start = 0) ∧ FileTree.stepOf segment.reverse = s.part := by
  have single {x : Span} (spans : [x] = before ++ s :: after) :
      before = [] ∧ after = [] ∧ s = x := by
    cases before with
    | nil =>
        cases spans
        exact ⟨rfl, rfl, rfl⟩
    | cons _ _ => simp at spans
  have length : segment.length = segment.reverse.length := List.length_reverse.symm
  rw [length]
  unfold spansFrom.close at spans
  dsimp only at spans
  split at spans
  · simp at spans
  · rename_i dot
    split at spans
    · rename_i first
      obtain ⟨rfl, rfl, rfl⟩ := single spans
      rw [dot, first]
      exact ⟨rfl, rfl, rfl, by simp, fun _ => rfl, rfl⟩
    · simp at spans
  · rename_i dots
    obtain ⟨rfl, rfl, rfl⟩ := single spans
    rw [dots, length, dots]
    exact ⟨rfl, rfl, rfl, by simp, by simp, rfl⟩
  · rename_i full dot dots
    obtain ⟨rfl, rfl, rfl⟩ := single spans
    exact ⟨rfl, rfl, by rw [length], by simp, by simp, FileTree.stepOf_other full dot dots⟩

/-- A text that is cut behind one of its parts has the parts so far, and that one is its last
step. -/
structure Cut (chars : List Char) (start : Nat) (segment : List Char) (before : List Span)
    (s : Span) : Prop where
  stop : start + segment.length ≤ s.stop
  unrooted : s.part ≠ .root
  dot : s.part = .current → start = 0 ∧ before = []
  spans : spansFrom (chars.take (s.stop - (start + segment.length))) start segment = before ++ [s]
  steps : ∃ front, FileTree.stepsFrom (chars.take (s.stop - (start + segment.length))) segment =
    front ++ [s.part]

theorem cut_close (spans : spansFrom.close start segment = before ++ s :: after) :
    Cut chars start segment before s := by
  obtain ⟨rfl, rfl, stop, unrooted, dot, step⟩ := close_eq spans
  have none : chars.take (s.stop - (start + segment.length)) = [] := by
    rw [stop, Nat.sub_self, List.take_zero]
  refine ⟨Nat.le_of_eq stop.symm, unrooted, fun current => ⟨dot current, rfl⟩, ?_, [], ?_⟩
  · rw [none]
    exact spans
  · rw [none, FileTree.stepsFrom, step]
    rfl

theorem cut_of_spans (spans : spansFrom chars start segment = before ++ s :: after) :
    Cut chars start segment before s := by
  induction chars generalizing start segment before with
  | nil => exact cut_close spans
  | cons c rest ih =>
      rw [spansFrom] at spans
      split at spans
      · rename_i slash
        -- The part ends in front of the slash, or it is behind it.
        have behind {between : List Span} (own : before = spansFrom.close start segment ++ between)
            (spans : spansFrom rest (start + segment.length + 1) [] = between ++ s :: after) :
            Cut (c :: rest) start segment before s := by
          obtain ⟨stop, unrooted, dot, taken, front, steps⟩ := ih spans
          rw [List.length_nil, Nat.add_zero] at stop taken steps
          have more : s.stop - (start + segment.length) =
              s.stop - (start + segment.length + 1) + 1 := by omega
          refine ⟨by omega, unrooted, fun current => absurd (dot current).1 (by omega), ?_, ?_⟩
          · rw [more, List.take_succ_cons, spansFrom, if_pos slash, taken, own, List.append_assoc]
          · rw [more, List.take_succ_cons, FileTree.stepsFrom, if_pos slash, steps]
            exact ⟨FileTree.stepOf segment.reverse :: front, rfl⟩
        rcases List.append_eq_append_iff.1 spans with
          ⟨between, own, later⟩ | ⟨between, own, later⟩
        · exact behind own later
        · cases between with
          | nil =>
              rw [List.append_nil] at own
              exact behind (own.symm.trans (List.append_nil _).symm) later.symm
          | cons x between =>
              cases later
              exact cut_close own
      · rename_i other
        obtain ⟨stop, unrooted, dot, taken, front, steps⟩ := ih spans
        rw [List.length_cons] at stop taken steps
        have more : s.stop - (start + segment.length) =
            s.stop - (start + (segment.length + 1)) + 1 := by omega
        refine ⟨by omega, unrooted, dot, ?_, ?_⟩
        · rw [more, List.take_succ_cons, spansFrom, if_neg other, taken]
        · rw [more, List.take_succ_cons, FileTree.stepsFrom, if_neg other, steps]
          exact ⟨front, rfl⟩

theorem spans_of_absolute {rest : List Char} (absolute : p.text.toList = '/' :: rest) :
    p.spans = ⟨.root, 0, 1⟩ :: spansFrom rest 1 [] := by
  unfold spans
  rw [absolute]
  rfl

theorem steps_of_absolute {rest : List Char} (absolute : p.text.toList = '/' :: rest) :
    FileTree.steps p = .root :: FileTree.stepsFrom rest [] := by
  unfold FileTree.steps
  rw [absolute]
  rfl

theorem steps_of_relative (relative : ∀ rest, p.text.toList ≠ '/' :: rest) :
    FileTree.steps p = FileTree.stepsFrom p.text.toList [] := by
  unfold FileTree.steps
  split
  · exact absurd ‹_› (relative _)
  · rfl

theorem toList_slice (p : Path) (stop : Nat) :
    (p.slice 0 stop).text.toList = p.text.toList.take stop := by
  unfold slice
  rw [String.toList_ofList, List.drop_zero]

/-- The path up to one of its parts. -/
theorem spans_slice (spans : p.spans = before ++ s :: after) :
    (p.slice 0 s.stop).spans = before ++ [s] ∧ (s.part = .current → before = []) ∧
      (s.part = .root ∧ before = [] ∧ (p.slice 0 s.stop).text = "/" ∨
        s.part ≠ .root ∧ ∃ front, FileTree.steps (p.slice 0 s.stop) = front ++ [s.part]) := by
  by_cases absolute : ∃ rest, p.text.toList = '/' :: rest
  · obtain ⟨rest, text⟩ := absolute
    rw [spans_of_absolute text] at spans
    cases before with
    | nil =>
        cases spans
        have root : p.slice 0 1 = ⟨"/"⟩ := by
          unfold slice
          rw [text]
          rfl
        dsimp only
        rw [root]
        exact ⟨rfl, by simp, .inl ⟨rfl, rfl, rfl⟩⟩
    | cons first before =>
        obtain ⟨same, later⟩ := List.cons.inj spans
        subst same
        obtain ⟨stop, unrooted, dot, taken, front, steps⟩ := cut_of_spans later
        rw [List.length_nil, Nat.add_zero] at stop taken steps
        have sliced : (p.slice 0 s.stop).text.toList = '/' :: rest.take (s.stop - 1) := by
          have more : s.stop = s.stop - 1 + 1 := by omega
          rw [toList_slice, text, more, List.take_succ_cons, Nat.add_sub_cancel]
        refine ⟨?_, fun current => absurd (dot current).1 (by omega), .inr ⟨unrooted, ?_⟩⟩
        · rw [spans_of_absolute sliced, taken]
          rfl
        · rw [steps_of_absolute sliced, steps]
          exact ⟨.root :: front, rfl⟩
  · have relative : ∀ rest, p.text.toList ≠ '/' :: rest := fun rest text => absolute ⟨rest, text⟩
    rw [spans_relative relative] at spans
    obtain ⟨stop, unrooted, dot, taken, steps⟩ := cut_of_spans spans
    rw [List.length_nil, Nat.zero_add, Nat.sub_zero, ← toList_slice] at taken steps
    have relative' : ∀ rest, (p.slice 0 s.stop).text.toList ≠ '/' :: rest := by
      intro rest text
      rw [toList_slice] at text
      cases whole : p.text.toList with
      | nil =>
          rw [whole, List.take_nil] at text
          cases text
      | cons c more =>
          rw [whole] at text
          cases count : s.stop with
          | zero =>
              rw [count] at text
              cases text
          | succ n =>
              rw [count] at text
              cases text
              exact relative more whole
    refine ⟨?_, fun current => (dot current).2, .inr ⟨unrooted, ?_⟩⟩
    · rw [spans_relative relative']
      exact taken
    · rw [steps_of_relative relative']
      exact steps

theorem slice_slice (p : Path) (stop : Nat) : (p.slice 0 stop).slice 0 stop = p.slice 0 stop := by
  show (⟨_⟩ : Path) = _
  rw [toList_slice, List.take_take, Nat.min_self]
  rfl

/-! ## Paths above a path -/

/-- Nothing is behind the last part. -/
def Firm (p : Path) : Prop :=
  p.text = "" ∨ ∃ before s, p.spans = before ++ [s] ∧ p = p.slice 0 s.stop

/-- A path has one more part than the path above it. -/
theorem parent_spec (above : p.parent? = some q) :
    q.Firm ∧ ∃ last, p.parts = q.parts ++ [last] ∧ (last = .current → q.parts = []) := by
  unfold parent? at above
  obtain ⟨reversed, same⟩ : ∃ reversed, p.spans.reverse = reversed := ⟨_, rfl⟩
  rw [same] at above
  have spans : p.spans = reversed.reverse := by rw [← same, List.reverse_reverse]
  cases reversed with
  | nil => cases above
  | cons s rest =>
      rw [List.reverse_cons] at spans
      have parts : p.parts = rest.reverse.map (·.part) ++ [s.part] := by
        unfold parts
        rw [spans, List.map_append]
        rfl
      have dot := (spans_slice spans).2.1
      unfold aboveSpans at above
      split at above
      · cases above
      · cases rest with
        | nil =>
            cases above
            exact ⟨.inl rfl, s.part, parts, fun _ => rfl⟩
        | cons previous rest =>
            cases above
            rw [List.reverse_cons] at spans
            have spans : p.spans = rest.reverse ++ previous :: [s] := by
              rw [spans, List.append_assoc]
              rfl
            have own := (spans_slice spans).1
            refine ⟨.inr ⟨_, previous, own, (slice_slice p previous.stop).symm⟩, s.part, ?_,
              fun current => ?_⟩
            · rw [parts]
              unfold Path.parts
              rw [own, List.reverse_cons]
            · have none := dot current
              simp at none

theorem parent_none (none : p.parent? = none) :
    p.parts = [] ∨ ∃ front, p.parts = front ++ [.root] := by
  unfold parent? at none
  obtain ⟨reversed, same⟩ : ∃ reversed, p.spans.reverse = reversed := ⟨_, rfl⟩
  rw [same] at none
  have spans : p.spans = reversed.reverse := by rw [← same, List.reverse_reverse]
  unfold parts
  rw [spans]
  cases reversed with
  | nil => exact .inl rfl
  | cons s rest =>
      unfold aboveSpans at none
      split at none
      · rename_i root
        refine .inr ⟨rest.reverse.map (·.part), ?_⟩
        rw [List.reverse_cons, List.map_append, List.map_singleton, eq_of_beq root]
      · cases rest <;> cases none

/-- A path has one part more than another one, and nothing behind that. -/
structure Above (q p : Path) (last : Part) : Prop where
  parts : p.parts = q.parts ++ [last]
  steps : ∃ front, FileTree.steps p = front ++ [last]
  dot : last = .current → q.parts = []
  unrooted : last ≠ .root

/-- Each path is above the one before it, up to a root or a path without parts. -/
inductive Climbs : List Path → Prop where
  | empty {p : Path} (none : p.parts = []) : Climbs [p]
  | root {p : Path} (text : p.text = "/") : Climbs [p]
  | next {p q : Path} {last : Part} {more : List Path} (above : q.Above p last)
      (rest : Climbs (q :: more)) : Climbs (p :: q :: more)

theorem climbs_slices {reversed : List Span}
    (spans : p.spans = reversed.reverse ++ s :: after) :
    Climbs (p.slice 0 s.stop :: p.aboveSpans (s :: reversed)) := by
  obtain ⟨own, dot, ends⟩ := spans_slice spans
  have parts : (p.slice 0 s.stop).parts = reversed.reverse.map (·.part) ++ [s.part] := by
    unfold Path.parts
    rw [own, List.map_append]
    rfl
  induction reversed generalizing s after with
  | nil =>
      unfold aboveSpans
      rcases ends with ⟨root, -, text⟩ | ⟨unrooted, steps⟩
      · rw [root]
        exact .root text
      · rw [if_neg (by simpa using unrooted)]
        exact .next ⟨parts, steps, fun _ => rfl, unrooted⟩ (.empty rfl)
  | cons previous reversed ih =>
      rcases ends with ⟨-, none, -⟩ | ⟨unrooted, steps⟩
      · simp at none
      · have spans' : p.spans = reversed.reverse ++ previous :: s :: after := by
          rw [spans, List.reverse_cons, List.append_assoc]
          rfl
        obtain ⟨own', dot', ends'⟩ := spans_slice spans'
        have parts' : (p.slice 0 previous.stop).parts =
            reversed.reverse.map (·.part) ++ [previous.part] := by
          unfold Path.parts
          rw [own', List.map_append]
          rfl
        unfold aboveSpans
        rw [if_neg (by simpa using unrooted)]
        refine .next ⟨?_, steps, fun current => ?_, unrooted⟩ (ih spans' own' dot' ends' parts')
        · rw [parts, parts', List.reverse_cons, List.map_append]
          rfl
        · have none := dot current
          simp at none

theorem climbs_ancestors (firm : p.Firm) : Climbs p.ancestors := by
  rcases firm with empty | ⟨before, s, spans, same⟩
  · obtain rfl : p = ⟨""⟩ := by
      cases p
      exact congrArg Path.mk empty
    exact .empty rfl
  · have slices : Climbs (p.slice 0 s.stop :: p.aboveSpans (s :: before.reverse)) :=
      climbs_slices (by rw [List.reverse_reverse, spans])
    unfold ancestors
    rw [spans, List.reverse_append]
    rw [← same] at slices
    exact slices

end Path

namespace FileTree

variable {t u : FileTree} {p q : Path} {here place : Place} {name : String} {rest rest' : List Part}
  {links : Nat} {last : Part} {front : List Part} {follow : Bool}

/-! ## Parts that make no difference -/

/-- All but single dots. -/
def solid (rest : List Part) : List Part := rest.filter (· ≠ .current)

theorem solid_append (rest more : List Part) : solid (rest ++ more) = solid rest ++ solid more :=
  List.filter_append rest more

theorem solid_close (start : Nat) (segment : List Char) :
    solid ((Path.spansFrom.close start segment).map (·.part)) =
      solid [stepOf segment.reverse] := by
  unfold Path.spansFrom.close
  dsimp only
  generalize segment.reverse = chars
  split
  · rfl
  · split <;> rfl
  · rfl
  · rename_i full dot dots
    rw [stepOf_other full dot dots]
    rfl

theorem solid_stepsFrom (chars segment : List Char) (start : Nat) :
    solid (stepsFrom chars segment) =
      solid ((Path.spansFrom chars start segment).map (·.part)) := by
  induction chars generalizing segment start with
  | nil => exact (solid_close start segment).symm
  | cons c chars ih =>
      rw [stepsFrom, Path.spansFrom]
      split
      · rw [List.map_append, solid_append, solid_close, ← ih, ← solid_append]
        rfl
      · exact ih _ _

/-- The steps of a path are its parts, but for single dots. -/
theorem solid_steps (p : Path) : solid (steps p) = solid p.parts := by
  unfold Path.parts
  by_cases absolute : ∃ rest, p.text.toList = '/' :: rest
  · obtain ⟨rest, text⟩ := absolute
    rw [Path.spans_of_absolute text, Path.steps_of_absolute text]
    exact congrArg (Part.root :: ·) (solid_stepsFrom rest [] 1)
  · have relative : ∀ rest, p.text.toList ≠ '/' :: rest := fun rest text => absolute ⟨rest, text⟩
    rw [Path.spans_relative relative, Path.steps_of_relative relative]
    exact solid_stepsFrom _ [] 0

theorem parts_proper (p : Path) : ProperSteps p.parts := by
  intro name there
  have own : Part.normal name ∈ solid p.parts := List.mem_filter.2 ⟨there, by simp⟩
  rw [← solid_steps] at own
  exact steps_proper p name (List.mem_of_mem_filter own)

/-- Single dots do not keep steps from a directory. -/
theorem stroll_solid (rest : List Part) :
    (∀ place, t.entry? place = some .directory →
      (t.stroll true here rest = .ok (.place place) ↔
        t.stroll true here (solid rest) = .ok (.place place))) ∧
    (∀ directory target left, t.stroll true here rest = .ok (.link directory target left) →
      t.stroll true here (solid rest) = .ok (.link directory target (solid left))) ∧
    ∀ directory target left, t.stroll true here (solid rest) = .ok (.link directory target left) →
      ∃ left', t.stroll true here rest = .ok (.link directory target left') ∧
        solid left' = left := by
  induction rest generalizing here with
  | nil => exact ⟨fun _ _ => .rfl, by simp [stroll], by simp [stroll, solid]⟩
  | cons part rest ih =>
      cases part with
      | normal name =>
          have own : solid (.normal name :: rest) = .normal name :: solid rest := rfl
          rw [own]
          by_cases long : 255 < name.utf8ByteSize
          · rw [stroll_long long, stroll_long long]
            exact ⟨fun _ _ => .rfl, by simp, by simp⟩
          · rcases there : t.entry? (here ++ [name]) with _ | (bytes | _ | target)
            case some.directory =>
              rw [stroll_directory long there, stroll_directory long there]
              exact ih
            case some.link =>
              rw [stroll_link long there, stroll_link long there]
              simp only [Bool.not_true, Bool.and_false, Bool.false_eq_true, if_false]
              refine ⟨by simp, ?_, ?_⟩
              · intro directory target left found
                cases found
                rfl
              · intro directory target left found
                cases found
                exact ⟨rest, rfl, rfl⟩
            all_goals
              have ended : ∀ e, t.entry? (here ++ [name]) = some e → ∃ bytes, e = .file bytes := by
                intro e found
                rw [there] at found
                cases found <;> exact ⟨_, rfl⟩
              -- Behind a file or nothing is no directory.
              have ends (rest : List Part) :
                  (∀ place, t.entry? place = some .directory →
                    t.stroll true here (.normal name :: rest) ≠ .ok (.place place)) ∧
                  ∀ directory target left,
                    t.stroll true here (.normal name :: rest) ≠
                      .ok (.link directory target left) := by
                obtain ⟨kind, ends⟩ := stroll_end (t := t) rest true long ended
                rw [ends]
                constructor
                · intro place directory found
                  split at found <;> cases found
                  rw [there] at directory
                  cases directory
                · intro directory target left found
                  split at found <;> cases found
              exact ⟨fun place directory => iff_of_false ((ends rest).1 place directory)
                  ((ends (solid rest)).1 place directory),
                fun _ _ _ found => absurd found ((ends rest).2 _ _ _),
                fun _ _ _ found => absurd found ((ends (solid rest)).2 _ _ _)⟩
      | root => exact ih
      | current => exact ih
      | parent => exact ih

theorem Leads.alike (leads : t.Leads true links here rest place)
    (directory : t.entry? place = some .directory) (same : solid rest' = solid rest) :
    t.Leads true links here rest' place := by
  induction leads generalizing rest' with
  | place strolled =>
      have strolled := ((stroll_solid _).1 _ directory).1 strolled
      rw [← same] at strolled
      exact .place (((stroll_solid _).1 _ directory).2 strolled)
  | link strolled checked onward ih =>
      have strolled := (stroll_solid _).2.1 _ _ _ strolled
      rw [← same] at strolled
      obtain ⟨left, strolled, alike⟩ := (stroll_solid _).2.2 _ _ _ strolled
      refine .link strolled checked (ih directory ?_)
      rw [solid_append, solid_append, alike]

/-- Where steps lead to something that is no link, none is left to follow. -/
theorem Leads.followed (leads : t.Leads false links here rest place)
    (real : ∀ target, t.entry? place ≠ some (.link target)) :
    t.Leads true links here rest place := by
  induction leads with
  | place strolled =>
      rcases stroll_unfollowed t _ _ with same | ⟨_, _, target, -, stays, link⟩
      · exact .place (same.symm.trans strolled)
      · cases strolled.symm.trans stays
        exact absurd link (real target)
  | link strolled checked onward ih =>
      rcases stroll_unfollowed t _ _ with same | ⟨_, _, _, -, stays, -⟩
      · exact .link (same.symm.trans strolled) checked (ih real)
      · cases strolled.symm.trans stays

/-! ## Paths to directories -/

/-- The parts of a path lead to a directory. -/
def HasDir (t : FileTree) (p : Path) : Prop :=
  ∃ place, t.Leads true linkBudget [] p.parts place ∧ t.entry? place = some .directory

theorem HasDir.of_ways (has : t.HasDir p) (ways : t.WaysIn u) : u.HasDir p := by
  obtain ⟨place, leads, directory⟩ := has
  have proper : place.Proper := resolve_proper _ _ (fun _ there => absurd there List.not_mem_nil)
    (parts_proper p) leads.resolve
  exact ⟨place, leads.kept ways (parts_proper p),
    (ways.rooted proper (leads.rooted directory)).entry⟩

theorem HasDir.of_same (has : t.HasDir p) (same : p.same q = true) : t.HasDir q := by
  unfold HasDir at *
  rw [← eq_of_beq same]
  exact has

theorem hasDir_of_empty (none : p.parts = []) : t.HasDir p := by
  refine ⟨[], .place ?_, rfl⟩
  rw [none]
  rfl

theorem Leads.hasDir (leads : t.Leads true linkBudget [] rest place)
    (directory : t.entry? place = some .directory) (same : solid rest = solid (steps p)) :
    t.HasDir p :=
  ⟨place, leads.alike directory ((solid_steps p).symm.trans same.symm), directory⟩

theorem entryAt_ok {e : Entry} :
    t.entryAt p follow = .ok (place, e) ↔
      t.locate p follow = .ok place ∧ t.entry? place = some e := by
  unfold entryAt
  constructor
  · intro found
    obtain ⟨place', located, found⟩ := ok_of_bind found
    split at found
    · rename_i there
      cases found
      exact ⟨located, there⟩
    · cases found
  · rintro ⟨located, there⟩
    rw [located]
    dsimp only [bind, Except.bind]
    rw [there]

theorem hasDir_of_isDir (found : t.isDir p = true) : t.HasDir p := by
  unfold isDir status at found
  cases there : t.entryAt p true with
  | error kind =>
      rw [there] at found
      cases found
  | ok x =>
      obtain ⟨place, e⟩ := x
      rw [there] at found
      cases e with
      | directory =>
          obtain ⟨located, directory⟩ := entryAt_ok.1 there
          exact (locate_ok.1 located).2.hasDir directory rfl
      | _ => cases found

/-! ## Slashes at the end -/

theorem solid_slashes {chars : List Char} (slashes : ∀ c ∈ chars, c = '/') :
    solid (stepsFrom chars []) = [] := by
  induction chars with
  | nil => rfl
  | cons c chars ih =>
      obtain ⟨slash, more⟩ := List.forall_mem_cons.1 slashes
      rw [stepsFrom, if_pos slash]
      exact ih more

theorem withoutSlashes_cases (p : Path) :
    withoutSlashes p = p ∨ ∃ before slashes, before ≠ [] ∧ (∀ c ∈ slashes, c = '/') ∧
      p.text.toList = before ++ slashes ∧ withoutSlashes p = ⟨String.ofList before⟩ := by
  unfold withoutSlashes
  split
  · exact .inl rfl
  · rename_i some
    refine .inr ⟨_, (p.text.toList.reverse.takeWhile (· == '/')).reverse, ?_, ?_, ?_, rfl⟩
    · intro none
      refine some (List.all_eq_true.2 fun c there => ?_)
      exact List.dropWhile_eq_nil_iff.1 (List.reverse_eq_nil_iff.1 none) c
        (List.mem_reverse.2 there)
    · intro c there
      simpa using List.mem_takeWhile_imp (List.mem_reverse.1 there)
    · rw [← List.reverse_append, List.takeWhile_append_dropWhile, List.reverse_reverse]

theorem solid_withoutSlashes (p : Path) : solid (steps (withoutSlashes p)) = solid (steps p) := by
  rcases withoutSlashes_cases p with same | ⟨before, slashes, some, all, text, same⟩
  · rw [same]
  · rw [same]
    cases slashes with
    | nil =>
        rw [List.append_nil] at text
        rw [← text, String.ofList_toList]
    | cons c slashes =>
        obtain ⟨rfl, more⟩ := List.forall_mem_cons.1 all
        have whole : steps p = steps ⟨String.ofList before⟩ ++ stepsFrom slashes [] :=
          steps_slash some String.toList_ofList text
        rw [whole, solid_append, solid_slashes more, List.append_nil]

theorem withoutSlashes_ne (full : p.text ≠ "") : (withoutSlashes p).text ≠ "" := by
  rcases withoutSlashes_cases p with same | ⟨before, _, some, -, -, same⟩
  · rw [same]
    exact full
  · rw [same]
    simpa using some

theorem withoutSlashes_eq (slashless : endsInSlash p = false) : withoutSlashes p = p := by
  have plain : p.text.toList.getLast? ≠ some '/' := beq_eq_false_iff_ne.1 slashless
  unfold withoutSlashes
  split
  · rfl
  · cases reversed : p.text.toList.reverse with
    | nil =>
        have none := List.reverse_eq_nil_iff.1 reversed
        simp [none] at *
    | cons c more =>
        have other : (c == '/') = false := by
          rw [beq_eq_false_iff_ne]
          rintro rfl
          rw [List.getLast?_eq_head?_reverse, reversed] at plain
          exact plain rfl
        rw [List.dropWhile_cons, if_neg (Bool.eq_false_iff.1 other), ← reversed,
          List.reverse_reverse, String.ofList_toList]

theorem steps_of_slash (slash : endsInSlash p = true) : ∃ front, steps p = front ++ [.current] := by
  obtain ⟨before, text⟩ := List.getLast?_eq_some_iff.1 (eq_of_beq slash)
  by_cases some : before = []
  · subst some
    exact ⟨[.root], by rw [Path.steps_of_absolute text]; rfl⟩
  · exact ⟨_, steps_slash some String.toList_ofList text⟩

/-- Where a path ends in a step that is none for its dot, no slash is behind it. -/
theorem withoutSlashes_of_steps (steps : steps p = front ++ [last]) (real : last ≠ .current) :
    withoutSlashes p = p ∧ endsInSlash p = false := by
  have slashless : endsInSlash p = false := by
    refine Bool.eq_false_iff.2 fun slash => ?_
    obtain ⟨front', dotted⟩ := steps_of_slash slash
    exact real (List.cons.inj (List.append_inj' (steps.symm.trans dotted) rfl).2).1
  exact ⟨withoutSlashes_eq slashless, slashless⟩

/-! ## The last part of a path -/

theorem text_of_checkText {text : String} (missing : checkText text = .error .notFound) :
    text = "" := by
  unfold checkText at missing
  split at missing
  · cases missing
  · split at missing
    · rename_i empty
      exact String.isEmpty_iff.1 empty
    · split at missing <;> cases missing

theorem checkText_found (steps : steps p = front ++ [last]) (real : last ≠ .current) :
    checkText p.text ≠ .error .notFound := by
  intro missing
  have empty := text_of_checkText missing
  have dotted : FileTree.steps p = [] ++ [.current] := by
    unfold FileTree.steps
    rw [empty]
    rfl
  have same := (List.append_inj' (steps.symm.trans dotted) rfl).2
  exact real (List.cons.inj same).1

theorem stroll_dots (dots : solid rest = []) : t.stroll follow here rest = .ok (.place here) := by
  induction rest with
  | nil => rfl
  | cons part rest ih =>
      cases part with
      | current => exact ih dots
      | _ => cases dots

theorem HasDir.locate (has : t.HasDir q) (above : q.Above p last) :
    ∃ directory, t.Rooted directory ∧ ∀ (follow : Bool) (reached : Except FileErrorKind Place),
      t.stroll follow directory [last] = reached.map Reach.place →
        t.locate p follow = checkText p.text >>= fun _ => reached := by
  obtain ⟨directory, leads, there⟩ := has
  obtain ⟨front, steps⟩ := above.steps
  have same : solid front = solid q.parts := by
    have whole := solid_steps p
    rw [steps, above.parts, solid_append, solid_append] at whole
    exact List.append_cancel_right whole
  have resolved := (leads.alike there same).resolve
  refine ⟨directory, leads.rooted there, fun follow reached goes => ?_⟩
  unfold FileTree.locate
  rw [steps, resolve_append (by simp) resolved there goes]

/-- Only a name that is too long does not lead on from a directory. -/
theorem stroll_last (t : FileTree) (here : Place) (name : String) :
    ∃ reached : Except FileErrorKind Place,
      t.stroll false here [.normal name] = reached.map Reach.place ∧
        reached ≠ .error .notFound := by
  by_cases long : 255 < name.utf8ByteSize
  · exact ⟨.error .invalidName, stroll_long long, by simp⟩
  · refine ⟨.ok (here ++ [name]), ?_, by simp⟩
    rcases there : t.entry? (here ++ [name]) with _ | (bytes | _ | target)
    case some.directory =>
      rw [stroll_directory long there]
      rfl
    case some.link =>
      rw [stroll_link long there]
      rfl
    all_goals
      obtain ⟨kind, ends⟩ := stroll_end (t := t) [] false long
        fun e found => by rw [there] at found; cases found <;> exact ⟨_, rfl⟩
      rw [ends]
      rfl

/-- Nothing on the way is missing where the path above leads to a directory. -/
theorem HasDir.create_found (has : t.HasDir q) (above : q.Above p last) (e : Entry) :
    t.create p e ≠ .error .notFound := by
  intro missing
  unfold create at missing
  obtain ⟨front, steps⟩ := above.steps
  by_cases dot : last = .current
  · have none : solid (FileTree.steps (withoutSlashes p)) = [] := by
      rw [solid_withoutSlashes, solid_steps, above.parts, above.dot dot, dot]
      rfl
    have full : p.text ≠ "" := by
      intro empty
      have parts := above.parts
      rw [show p = ⟨""⟩ from congrArg Path.mk empty] at parts
      simp [Path.parts, Path.spans, Path.spansFrom, Path.spansFrom.close] at parts
    have resolved : t.resolve false linkBudget [] (FileTree.steps (withoutSlashes p)) = .ok [] :=
      (Leads.place (stroll_dots none)).resolve
    unfold FileTree.locate at missing
    rw [resolved] at missing
    cases checked : checkText (withoutSlashes p).text with
    | error kind =>
        rw [checked] at missing
        cases missing
        exact withoutSlashes_ne full (text_of_checkText checked)
    | ok _ =>
        rw [checked] at missing
        cases missing
  · obtain ⟨directory, -, locates⟩ := has.locate above
    obtain ⟨reached, goes, found⟩ : ∃ reached : Except FileErrorKind Place,
        t.stroll false directory [last] = reached.map Reach.place ∧
          reached ≠ .error .notFound := by
      cases last with
      | root => exact absurd rfl above.unrooted
      | current => exact absurd rfl dot
      | parent => exact ⟨.ok directory.dropLast, rfl, by simp⟩
      | normal name => exact stroll_last t directory name
    rw [(withoutSlashes_of_steps steps dot).1, locates _ _ goes] at missing
    cases checked : checkText p.text with
    | error kind =>
        rw [checked] at missing
        cases missing
        exact checkText_found steps dot checked
    | ok _ =>
        rw [checked] at missing
        cases reached with
        | error kind =>
            cases missing
            exact found rfl
        | ok place =>
            dsimp only [bind, Except.bind] at missing
            split at missing <;> cases missing

/-- Where the path above leads to a directory, a file is missing its place only behind a link. -/
theorem HasDir.write_found {bytes : List UInt8} (has : t.HasDir q)
    (above : q.Above p (.normal name)) (missing : t.write p bytes = .error .notFound) :
    ∃ place target, t.entryAt p false = .ok (place, .link target) := by
  obtain ⟨front, steps⟩ := above.steps
  have real : Part.normal name ≠ .current := by simp
  unfold write at missing
  rw [(withoutSlashes_of_steps steps real).2, if_neg Bool.false_ne_true] at missing
  cases located : t.locate p true with
  | ok place =>
      rw [located] at missing
      dsimp only [bind, Except.bind] at missing
      split at missing <;> cases missing
  | error kind =>
      rw [located] at missing
      cases missing
      obtain ⟨directory, -, locates⟩ := has.locate above
      cases checked : checkText p.text with
      | error kind =>
          unfold FileTree.locate at located
          rw [checked] at located
          cases located
          exact absurd checked (checkText_found steps real)
      | ok _ =>
          rw [checked] at locates
          by_cases long : 255 < name.utf8ByteSize
          · cases located.symm.trans (locates _ (.error .invalidName) (stroll_long long))
          · rcases there : t.entry? (directory ++ [name]) with _ | (bytes | _ | target)
            case some.link =>
              have found := locates false (.ok (directory ++ [name])) (stroll_link long there)
              exact ⟨_, target, entryAt_ok.2 ⟨found, there⟩⟩
            case some.directory =>
              cases located.symm.trans (locates _ (.ok (directory ++ [name]))
                (stroll_directory long there))
            all_goals
              obtain ⟨kind, ends⟩ := stroll_end (t := t) [] true long
                fun e found => by rw [there] at found; cases found <;> exact ⟨_, rfl⟩
              cases located.symm.trans (locates _ (.ok (directory ++ [name])) ends)

theorem above_of_steps (steps : steps p = front ++ [.normal name]) :
    ∃ q, p.parent? = some q ∧ q.Firm ∧ q.Above p (.normal name) := by
  have whole : solid front ++ [.normal name] = solid p.parts := by
    rw [← solid_steps, steps, solid_append]
    rfl
  cases above : p.parent? with
  | none =>
      rcases Path.parent_none above with none | ⟨front', root⟩
      · rw [none] at whole
        simp [solid] at whole
      · rw [root, solid_append] at whole
        have same := (List.append_inj' whole rfl).2
        cases same
  | some q =>
      obtain ⟨firm, last, parts, dot⟩ := Path.parent_spec above
      have real : last ≠ .current := by
        rintro rfl
        rw [parts, dot rfl] at whole
        simp [solid] at whole
      have own : solid [last] = [last] := List.filter_eq_self.2 (by simpa using real)
      rw [parts, solid_append, own] at whole
      cases (List.append_inj' whole rfl).2
      refine ⟨q, rfl, firm, parts, ⟨front, steps⟩, fun current => absurd current real, ?_⟩
      intro root
      cases root

/-! ## Making directories -/

theorem hasDir_makeDir (made : t.makeDir p = .ok u) : u.HasDir p := by
  have grown := extends_makeDir made
  unfold makeDir create at made
  obtain ⟨place, located, made⟩ := ok_of_bind made
  split at made
  · cases made
  · rename_i free
    cases made
    have leads := (locate_ok.1 located).2.kept grown.waysIn (steps_proper _)
    have there : FileTree.entry? (t.put place .directory) place = some .directory := by
      rw [entry_put, if_pos]
      refine ⟨?_, rfl⟩
      rintro rfl
      cases free
    exact (leads.followed fun target link => by cases there.symm.trans link).hasDir there
      (solid_withoutSlashes p)

theorem attempt_ok {change : Except FileErrorKind FileTree}
    (done : t.attempt change = (.ok (), u)) : change = .ok u := by
  cases change with
  | ok v =>
      cases done
      rfl
  | error kind => cases done

theorem attempt_error {change : Except FileErrorKind FileTree} {kind : FileErrorKind}
    (failed : t.attempt change = (.error kind, u)) : change = .error kind ∧ u = t := by
  cases change with
  | ok v => cases failed
  | error kind' =>
      cases failed
      exact ⟨rfl, rfl⟩

theorem orDirectory_ok {result : Except FileErrorKind Unit × FileTree}
    (done : orDirectory p result = (.ok (), u)) : result = (.ok (), u) ∨ u.HasDir p := by
  rcases result with ⟨kind | _, v⟩
  · unfold orDirectory at done
    dsimp only at done
    split at done
    · rename_i directory
      cases done
      exact .inr (hasDir_of_isDir directory)
    · cases done
  · exact .inl done

theorem orDirectory_error {result : Except FileErrorKind Unit × FileTree} {kind : FileErrorKind}
    (failed : orDirectory p result = (.error kind, u)) : result = (.error kind, u) := by
  rcases result with ⟨kind' | _, v⟩
  · unfold orDirectory at failed
    dsimp only at failed
    split at failed
    · cases failed
    · exact failed
  · cases failed

theorem hasDir_orDirectory
    (made : orDirectory p (t.attempt (t.makeDir p)) = (.ok (), u)) : u.HasDir p := by
  rcases orDirectory_ok made with made | has
  · exact hasDir_makeDir (attempt_ok made)
  · exact has

theorem hasDir_makeChain {above : List Path} (made : t.makeChain (p :: above) = (.ok (), u)) :
    u.HasDir p := by
  unfold makeChain at made
  split at made
  · rename_i none
    exact hasDir_of_empty (List.isEmpty_iff.1 none)
  · split at made
    · split at made
      · exact hasDir_orDirectory made
      · rename_i failed
        exact absurd made (failed _)
    · exact hasDir_orDirectory made

/-- Directories are made from the first one that is there. -/
theorem makeChain_found {paths : List Path} {kind : FileErrorKind} (climbs : Path.Climbs paths)
    (failed : t.makeChain paths = (.error kind, u)) : kind ≠ .notFound := by
  rintro rfl
  induction climbs generalizing t u with
  | @empty p none =>
      unfold makeChain at failed
      rw [none] at failed
      cases failed
  | @root p text =>
      -- The root is there.
      have there : t.attempt (t.makeDir p) = (.error .alreadyExists, t) := by
        have own : p = ⟨"/"⟩ := congrArg Path.mk text
        have slash : withoutSlashes ⟨"/"⟩ = ⟨"/"⟩ := by decide
        have located : t.locate ⟨"/"⟩ false = .ok [] := locate_ok.2 ⟨by rfl, .place rfl⟩
        unfold makeDir create
        rw [own, slash, located]
        rfl
      unfold makeChain at failed
      rw [there] at failed
      split at failed
      · cases failed
      · cases orDirectory_error failed
  | @next p q last more above rest ih =>
      unfold makeChain at failed
      split at failed
      · cases failed
      · split at failed
        · split at failed
          · rename_i made
            have has := hasDir_makeChain made
            exact has.create_found above .directory (attempt_error (orDirectory_error failed)).1
          · exact ih failed
        · rename_i other
          exact other _ (orDirectory_error failed)

theorem makeDirs_found {kind : FileErrorKind} (firm : p.Firm)
    (failed : t.makeDirs p = (.error kind, u)) : kind ≠ .notFound :=
  makeChain_found (Path.climbs_ancestors firm) failed

theorem hasDir_makeDirs (made : t.makeDirs p = (.ok (), u)) : u.HasDir p := hasDir_makeChain made

theorem hasDir_makeTempDir {parent : Path} {start : String}
    (made : t.makeTempDir parent start = .ok (p, u)) : u.HasDir p := by
  unfold makeTempDir at made
  obtain ⟨v, created, made⟩ := ok_of_bind made
  cases made
  exact (hasDir_makeDir created).of_ways fun _ _ _ _ => .inl rfl

theorem stepOf_letter {chars : List Char} (letter : ∃ c ∈ chars, c ≠ '.') :
    stepOf chars = .normal (String.ofList chars) := by
  obtain ⟨c, there, other⟩ := letter
  apply stepOf_other
  · rintro rfl
    cases there
  · rintro rfl
    exact other (List.mem_singleton.1 there)
  · rintro rfl
    simp [other] at there

theorem stepsFrom_tail {tail : List Char} (plain : '/' ∉ tail) (letter : ∃ c ∈ tail, c ≠ '.')
    (chars segment : List Char) :
    ∃ front name, stepsFrom (chars ++ tail) segment = front ++ [.normal name] := by
  induction chars generalizing segment with
  | nil =>
      obtain ⟨c, there, other⟩ := letter
      refine ⟨[], String.ofList (segment.reverse ++ tail), ?_⟩
      rw [List.nil_append, stepsFrom_segment plain,
        stepOf_letter ⟨c, List.mem_append_right _ there, other⟩]
      rfl
  | cons c chars ih =>
      rw [List.cons_append, stepsFrom]
      split
      · obtain ⟨front, name, steps⟩ := ih []
        exact ⟨stepOf segment.reverse :: front, name, by rw [steps]; rfl⟩
      · exact ih (c :: segment)

/-- The text of a path ends in a name. -/
theorem steps_tail {before tail : List Char} (text : p.text.toList = before ++ tail)
    (plain : '/' ∉ tail) (letter : ∃ c ∈ tail, c ≠ '.') :
    ∃ front name, steps p = front ++ [.normal name] := by
  by_cases absolute : ∃ rest, p.text.toList = '/' :: rest
  · obtain ⟨rest, slash⟩ := absolute
    rw [Path.steps_of_absolute slash]
    cases before with
    | nil =>
        refine absurd ?_ plain
        rw [List.nil_append] at text
        rw [← text, slash]
        exact List.mem_cons_self
    | cons c before =>
        rw [List.cons_append, slash] at text
        obtain ⟨-, same⟩ := List.cons.inj text
        obtain ⟨front, name, steps⟩ := stepsFrom_tail plain letter before []
        exact ⟨.root :: front, name, by rw [same, steps]; rfl⟩
  · have relative : ∀ rest, p.text.toList ≠ '/' :: rest := fun rest text => absolute ⟨rest, text⟩
    rw [Path.steps_of_relative relative, text]
    exact stepsFrom_tail plain letter before []

theorem text_join (p q : Path) : ∃ before, (p.join q).text.toList = before ++ q.text.toList := by
  unfold Path.join
  split
  · exact ⟨[], rfl⟩
  · split
    · exact ⟨[], rfl⟩
    · split
      · exact ⟨_, String.toList_append⟩
      · exact ⟨_, String.toList_append⟩

/-- A temporary directory is missing its place only if the path above it leads to no directory. -/
theorem makeTempDir_found {parent : Path} {start : String}
    (missing : t.makeTempDir parent start = .error .notFound) :
    ∃ above, (parent.join ⟨tempName start t.fresh⟩).parent? = some above ∧
      ¬t.HasDir above := by
  obtain ⟨before, text⟩ := text_join parent ⟨tempName start t.fresh⟩
  have own : (tempName start t.fresh).toList =
      start.toList ++ ('z' :: 'Q' :: Duration.padded 4 t.fresh) := by
    simp only [tempName, String.toList_append, String.toList_ofList, List.append_assoc]
    rfl
  have plain : '/' ∉ 'z' :: 'Q' :: Duration.padded 4 t.fresh := by
    intro there
    rcases List.mem_cons.1 there with same | there
    · cases same
    rcases List.mem_cons.1 there with same | there
    · cases same
    rcases List.mem_append.1 there with zero | digit
    · cases List.eq_of_mem_replicate zero
    · cases Nat.isDigit_of_mem_toDigits (by decide) (Nat.le_refl 10) digit
  rw [own, ← List.append_assoc] at text
  obtain ⟨front, name, steps⟩ := steps_tail text plain ⟨'z', List.mem_cons_self, by decide⟩
  obtain ⟨above, nearest, -, is⟩ := above_of_steps steps
  refine ⟨above, nearest, fun has => has.create_found is .directory ?_⟩
  unfold makeTempDir makeDir at missing
  dsimp only at missing
  cases made : t.create (parent.join ⟨tempName start t.fresh⟩) .directory with
  | ok u =>
      rw [made] at missing
      cases missing
  | error kind =>
      rw [made] at missing
      cases missing
      rfl

end FileTree
end TemplateCache
