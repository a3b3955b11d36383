import TemplateCache.Proofs.Files.Below
import TemplateCache.Proofs.Files.Nested
import TemplateCache.Proofs.Store.Repetition

/-!
# What a clearance takes

A clearance removes the output directory, and the temporary ones if it clears for all. Each of them
is taken with all that it holds, and nothing else is. A path that two dots end names a directory
that is emptied but stays; of a link the link is taken; and a directory whose path leads through
another one that goes first is not found any more, which counts as removed.
-/

namespace TemplateCache

namespace FileTree

variable {t u v : FileTree} {p : Path} {place here : Place} {e : Entry} {paths more : List Path}
  {gone gone' : Place → Prop}

/-! ## What a removal takes -/

/-- The removal of a directory takes what is at its path and below. What two dots at the end of a
path name is emptied only, and so is the root. -/
def Takes (t : FileTree) (p : Path) (place : Place) : Prop :=
  place ≠ [] ∧ ∃ here e, t.entryAt p false = .ok (here, e) ∧ here <+: place ∧
    (place = here → (steps (withoutSlashes p)).getLast? ≠ some .parent)

/-- Whatever of some places is gone, a path leads where it led. -/
def Stands (t : FileTree) (gone : Place → Prop) (p : Path) : Prop :=
  ∀ u, t.Thins u → (∀ place : Place, place.Proper → ¬gone place →
    u.entry? place = t.entry? place) → u.entryAt p false = t.entryAt p false

theorem Takes.of_thins (takes : u.Takes p place) (thins : t.Thins u) : t.Takes p place := by
  obtain ⟨under, here, e, found, below, own⟩ := takes
  exact ⟨under, here, e, (entryAt_of_thins thins found).1, below, own⟩

theorem Stands.mono (stands : t.Stands gone p) (fewer : ∀ place, gone' place → gone place) :
    t.Stands gone' p :=
  fun u thins same => stands u thins fun place proper kept => same place proper (kept ∘ fewer _)

/-- A path that stands whatever is gone, stands when some of it is gone. -/
theorem Stands.onward (stands : t.Stands gone p) (thins : t.Thins u)
    (same : ∀ place : Place, place.Proper → ¬gone place → u.entry? place = t.entry? place) :
    u.Stands gone p := by
  intro v thins' same'
  rw [stands u thins same]
  refine stands v (thins.trans thins') fun place proper kept => ?_
  rw [same' place proper kept, same place proper kept]

theorem entry_empty (proper : place.Proper) (under : place ≠ []) :
    FileTree.entry? (t.empty here) place =
      if here <+: place ∧ place ≠ here then none else t.entry? place := by
  rw [empty, entry_removeWhere _ under]
  unfold below?
  rw [Path.normalNames_text proper]
  by_cases prior : here <+: place
  · rw [if_pos (List.isPrefixOf_iff_prefix.2 prior)]
    by_cases own : place = here <;> simp [own, prior]
  · rw [if_neg (fun test => prior (List.isPrefixOf_iff_prefix.1 test))]
    simp [prior]

/-- A removal that succeeds, or finds nothing, takes what it takes and nothing else. -/
theorem removeDir_takes
    (fine : (t.removeDir p).1 = .ok () ∨ (t.removeDir p).1 = .error .notFound)
    (proper : place.Proper) :
    (t.Takes p place → entry? (t.removeDir p).2 place = none) ∧
      (¬t.Takes p place → entry? (t.removeDir p).2 place = t.entry? place) := by
  by_cases under : place = []
  · subst under
    exact ⟨fun takes => absurd rfl takes.1, fun _ => rfl⟩
  cases found : t.entryAt p false with
  | error kind =>
      have same : (t.removeDir p).2 = t := by
        unfold removeDir
        rw [found]
      refine ⟨?_, fun _ => by rw [same]⟩
      rintro ⟨-, here, e, found', -⟩
      cases found.symm.trans found'
  | ok reached =>
      obtain ⟨here, e⟩ := reached
      have takes_iff : t.Takes p place ↔ here <+: place ∧
          (place = here → (steps (withoutSlashes p)).getLast? ≠ some .parent) := by
        constructor
        · rintro ⟨-, here', e', found', below⟩
          cases found.symm.trans found'
          exact below
        · rintro below
          exact ⟨under, here, e, found, below⟩
      rw [takes_iff]
      -- How the path ends decides whether the directory goes itself.
      obtain ⟨named, removed⟩ | ⟨parent, emptied⟩ := removeDir_fine found fine
      · rw [removed, entry_remove proper under]
        constructor
        · intro takes
          rw [if_pos takes.1]
        · intro apart
          rw [if_neg fun below => apart ⟨below, fun _ => named⟩]
      · rw [emptied, entry_empty proper under]
        constructor
        · rintro ⟨below, own⟩
          rw [if_pos ⟨below, fun same => own same parent⟩]
        · intro apart
          rw [if_neg]
          rintro ⟨below, other⟩
          exact apart ⟨below, fun same => absurd same other⟩

/-- The places that the removals of some paths take, but for the paths with given parts. -/
def OthersTake (t : FileTree) (among : Path → Prop) (parts : List Part) (place : Place) : Prop :=
  ∃ q, among q ∧ q.parts ≠ parts ∧ t.Takes q place

/-- Removals one after the other take nothing but what each of them takes, and all of that where
the others leave the way to it. Of paths with the same parts one stands for all. -/
structure Taking (among : Path → Prop) (t u : FileTree) : Prop where
  thins : t.Thins u
  kept : ∀ place : Place, place.Proper → (∀ p, among p → ¬t.Takes p place) →
    u.entry? place = t.entry? place
  taken : ∀ p, among p → ∃ q, among q ∧ q.parts = p.parts ∧
    (t.Stands (t.OthersTake among p.parts) q →
      ∀ place : Place, place.Proper → t.Takes q place → u.entry? place = none)

theorem Taking.nil (t : FileTree) : Taking (· ∈ []) t t :=
  ⟨.refl t, fun _ _ _ => rfl, fun _ there => absurd there List.not_mem_nil⟩

theorem Taking.append (first : Taking (· ∈ paths) t u) (second : Taking (· ∈ more) u v) :
    Taking (· ∈ paths ++ more) t v where
  thins := first.thins.trans second.thins
  kept place proper apart := by
    rw [second.kept place proper, first.kept place proper]
    · exact fun p there => apart p (List.mem_append_left _ there)
    · exact fun p there takes =>
        apart p (List.mem_append_right _ there) (takes.of_thins first.thins)
  taken p there := by
    -- Of the paths with these parts, the first one that is removed stands for all.
    by_cases before : ∃ r ∈ paths, r.parts = p.parts
    · obtain ⟨r, among, alike⟩ := before
      obtain ⟨q, among', same, taken⟩ := first.taken r among
      rw [alike] at same taken
      refine ⟨q, List.mem_append_left _ among', same, fun stands place proper takes => ?_⟩
      have missing := taken (stands.mono fun place ⟨r, among, other, takes⟩ =>
        ⟨r, List.mem_append_left _ among, other, takes⟩) place proper takes
      exact (second.thins place).elim id fun same => same.trans missing
    · have after : p ∈ more :=
        (List.mem_append.1 there).resolve_left fun own => before ⟨p, own, rfl⟩
      obtain ⟨q, among', same, taken⟩ := second.taken p after
      refine ⟨q, List.mem_append_right _ among', same, fun stands place proper takes => ?_⟩
      -- What is gone by now was taken by others.
      have kept (place : Place) (proper : place.Proper)
          (apart : ¬t.OthersTake (· ∈ paths ++ more) p.parts place) :
          u.entry? place = t.entry? place :=
        first.kept place proper fun r among takes =>
          apart ⟨r, List.mem_append_left _ among, fun alike => before ⟨r, among, alike⟩, takes⟩
      refine taken ((stands.onward first.thins kept).mono fun place ⟨r, among, other, takes⟩ =>
        ⟨r, List.mem_append_right _ among, other, takes.of_thins first.thins⟩) place proper ?_
      obtain ⟨under, here, e, found, below⟩ := takes
      exact ⟨under, here, e, (stands u first.thins kept).trans found, below⟩

theorem Taking.one
    (fine : (t.removeDir p).1 = .ok () ∨ (t.removeDir p).1 = .error .notFound) :
    Taking (· ∈ [p]) t (t.removeDir p).2 where
  thins := thins_removeDir
  kept place proper apart := (removeDir_takes fine proper).2 (apart p (List.mem_singleton_self p))
  taken q there := by
    cases List.mem_singleton.1 there
    exact ⟨p, there, rfl, fun _ place proper => (removeDir_takes fine proper).1⟩

/-- The order of removals makes no difference, nor do paths with the same parts. -/
theorem Taking.of_dedup {among : Path → Prop} (listed : ∀ p, p ∈ paths ↔ among p)
    (taking : Taking (· ∈ Path.dedup (Path.sort paths)) t u) : Taking among t u := by
  have listed' {p : Path} (there : p ∈ Path.dedup (Path.sort paths)) : among p :=
    (listed p).1 (Path.mem_sort.1 (Path.mem_of_mem_dedup there))
  refine ⟨taking.thins, fun place proper apart => ?_, fun p chosen => ?_⟩
  · exact taking.kept place proper fun p there => apart p (listed' there)
  · obtain ⟨r, there, alike⟩ := Path.exists_mem_dedup _ p (Path.mem_sort.2 ((listed p).2 chosen))
    obtain ⟨q, there', same, taken⟩ := taking.taken r there
    rw [eq_of_beq alike] at same taken
    refine ⟨q, listed' there', same, fun stands => taken (stands.mono ?_)⟩
    rintro place ⟨r', among', other, takes⟩
    exact ⟨r', listed' among', other, takes⟩

/-! ## Real directories -/

/-- Where all on the way are real directories, only a name that is too long is in the way. -/
theorem Rooted.stroll_names {names : List String} (rooted : t.Rooted (here ++ names))
    (follow : Bool) :
    t.stroll follow here (names.map .normal) =
      (if names.any (255 < ·.utf8ByteSize) then .error .invalidName else .ok (here ++ names) :
        Except FileErrorKind Place).map Reach.place := by
  induction names generalizing here with
  | nil =>
      rw [List.append_nil]
      rfl
  | cons name rest ih =>
      rw [List.append_cons] at rooted
      by_cases long : 255 < name.utf8ByteSize
      · rw [List.map_cons, stroll_long long, List.any_cons, decide_eq_true long, Bool.true_or]
        rfl
      · rw [List.map_cons, stroll_directory long (rooted _ (List.prefix_append _ rest)), ih rooted,
          List.any_cons, decide_eq_false long, Bool.false_or, List.append_cons here name rest]

/-- The path of a real directory leads there, if it and its names are not too long. -/
theorem entryAt_path (proper : place.Proper) (many : place ≠ []) (rooted : t.Rooted place) :
    t.entryAt place.path false = (checkText place.path.text >>= fun _ =>
      if place.any (255 < ·.utf8ByteSize) then .error .invalidName else .ok (place, .directory)) := by
  have steps : steps place.path = [.root] ++ place.map .normal := by
    have text : place.path.text.toList = '/' :: ("/".intercalate place).toList :=
      String.toList_append
    rw [Path.steps_of_absolute text, stepsFrom_names proper many]
    rfl
  have real : t.Rooted ([] ++ place) := rooted
  have resolved : t.resolve false linkBudget [] ([.root] ++ place.map .normal) =
      if place.any (255 < ·.utf8ByteSize) then .error .invalidName else .ok place :=
    resolve_append (fun none => absurd (List.map_eq_nil_iff.1 none) many) (Leads.place rfl).resolve
      rfl (Rooted.stroll_names real false)
  unfold entryAt locate
  rw [steps, resolved]
  cases checkText place.path.text with
  | error kind => rfl
  | ok _ =>
      by_cases long : place.any (255 < ·.utf8ByteSize) = true
      · rw [if_pos long]
        dsimp only [bind, Except.bind]
        rw [if_pos long]
      · rw [if_neg long]
        dsimp only [bind, Except.bind]
        rw [rooted.entry, if_neg long]

/-- The path of a real directory leads there as long as the directory is there. -/
theorem stands_of_rooted (proper : place.Proper) (many : place ≠ []) (rooted : t.Rooted place)
    (apart : ∀ above, above <+: place → ¬gone above) : t.Stands gone place.path := by
  intro u thins same
  have rooted' : u.Rooted place := fun above prior => by
    rw [same above (fun name there => proper name (prior.subset there)) (apart above prior)]
    exact rooted above prior
  rw [entryAt_path proper many rooted, entryAt_path proper many rooted']

end FileTree

namespace Store

namespace Files

open FileTree

/-! ## Clearances -/

theorem removing_taking :
    Removing FileTree.removeDir fun paths => Taking (· ∈ paths) :=
  ⟨Taking.nil, Taking.append, Taking.one⟩

/-- A clearance that succeeds has emptied the overlay and knows no directory but the output
directory that is set. Of the output directory and, if it clears for all, the real directories where
temporary ones are made that are named like them, it has taken all that a removal takes: what is at
the path and below. Nothing else has changed. What is left is a directory that two dots at the end
of its path name, which is only emptied; what a link leads to; and a directory to which the way is
taken with another one. -/
theorem clearance_takes_its_directories (sources : Sources) (all : Bool) (token : Token)
    (s t : Site Output)
    (ends : ((files sources).clear all token).run.finish s = some (.ok (), t)) :
    t.overlay = ∅ ∧ t.own = { dir := sources.settings.outputDir, made := [] } ∧
      Taking (Clears sources.settings s.own.dir all s.environment.files)
        s.environment.files t.environment.files := by
  obtain ⟨overlay, own⟩ := memory_of_clear (Job.runs_alone (fun _ => rfl) (fun _ _ => rfl) ends)
  refine ⟨overlay, own, ?_⟩
  have taken : Job.Succeeds ((files sources).clear all token) (fun _ u =>
      Taking (Clears sources.settings s.own.dir all s.environment.files)
        s.environment.files u.environment.files) s :=
    removing_taking.clear sources all token s fun _ _ => Taking.of_dedup
  exact taken.finish ends

end Files

namespace Sample

/-- The order of removals, in a form that can be evaluated where there are at most two. -/
def couple : List Path → List Path
  | [] => []
  | [p] => [p]
  | [p, q] =>
    let (first, second) := if q.lt p then (q, p) else (p, q)
    if first.same second then [first] else [first, second]
  | paths => Path.dedup (Path.sort paths)

theorem couple_eq (paths : List Path) : Path.dedup (Path.sort paths) = couple paths := by
  rcases paths with _ | ⟨p, _ | ⟨q, _ | ⟨r, rest⟩⟩⟩
  · simp [Path.sort, Path.dedup, couple]
  · simp [Path.sort, Path.dedup, couple]
  · by_cases before : q.lt p <;>
      simp [Path.sort, Path.dedup, couple, List.mergeSort, before]
  · rfl

/-- A directory with another one in it, a link to it, and a temporary directory with a file. -/
def rooms : FileTree where
  entries := .ofPairs [("/out", .directory), ("/out/sub", .directory), ("/link", .link "out"),
    ("/tmp", .directory), ("/tmp/quill-a", .directory), ("/tmp/quill-a/a", .file [])]

theorem closed_rooms : rooms.Closed := FileTree.closed_of_entries (by decide)

def lodger (dir : String) : Site Output where
  own := { dir := some ⟨dir⟩ }
  environment := { files := rooms }

/-- Clears a store with an output directory. -/
def vacate (dir : String) (all : Bool) : Storing Output Unit :=
  (fileStore (some ⟨dir⟩)).clear all ⟨[0], none⟩

/-- A clearance that succeeds, by what it leaves at a place. -/
theorem vacated {dir : String} {all : Bool} {place : Place} {left : Option Entry}
    (ends : ((vacate dir all).run.finish (lodger dir)).map
      (fun (r, t) => (r.toOption, t.environment.files.entry? place)) = some (some (), left)) :
    ∃ t, (vacate dir all).run.finish (lodger dir) = some (.ok (), t) ∧
      t.environment.files.entry? place = left := by
  obtain ⟨⟨r, t⟩, ends, same⟩ := Option.map_eq_some_iff.1 ends
  cases r with
  | error e => exact nomatch same
  | ok _ => exact ⟨t, ends, (Prod.mk.inj same).2⟩

open FileTree in
theorem list_rooms : rooms.list ⟨"/tmp"⟩ = .ok [("quill-a", .directory)] := by
  simp only [FileTree.list, children_eq]
  decide +kernel

/-- The two directories that are removed from the tree. -/
def Room (place : Place) : Prop := place = ["out"] ∨ place = ["tmp", "quill-a"]

theorem Room.proper {place : Place} (room : Room place) : place.Proper := by
  rcases room with rfl | rfl <;> unfold Place.Proper <;> decide

theorem Room.many {place : Place} (room : Room place) : place ≠ [] := by
  rcases room with rfl | rfl <;> decide

theorem Room.rooted {place : Place} (room : Room place) : rooms.Rooted place := by
  refine FileTree.rooted_of_closed closed_rooms room.proper ?_
  rcases room with rfl | rfl <;> decide

theorem Room.entryAt {place : Place} (room : Room place) :
    rooms.entryAt place.path false = .ok (place, .directory) := by
  rw [FileTree.entryAt_path room.proper room.many room.rooted]
  rcases room with rfl | rfl <;> decide

theorem Room.eq_of_prefix {place place' : Place} (room : Room place) (room' : Room place')
    (below : place <+: place') : place = place' := by
  rcases room with rfl | rfl <;> rcases room' with rfl | rfl <;> revert below <;> decide

theorem Room.eq_of_parts {place place' : Place} (room : Room place) (room' : Room place')
    (same : place.path.parts = place'.path.parts) : place = place' := by
  rcases room with rfl | rfl <;> rcases room' with rfl | rfl <;> revert same <;> decide

section

open FileTree Files

/-- What a clearance of the sample removes. -/
abbrev Vacates : Path → Prop :=
  Clears { sourceDir := ⟨"/in"⟩, outputDir := some ⟨"/out"⟩, tempRoot := some ⟨"/tmp"⟩ }
    (some ⟨"/out"⟩) true rooms

theorem vacates_iff {p : Path} : Vacates p ↔ ∃ place, Room place ∧ p = place.path := by
  constructor
  · rintro (own | ⟨-, found, name, listed, there, -, rfl⟩)
    · cases own
      exact ⟨["out"], .inl rfl, rfl⟩
    · cases list_rooms.symm.trans listed
      cases List.mem_singleton.1 there
      exact ⟨["tmp", "quill-a"], .inr rfl, rfl⟩
  · rintro ⟨place, rfl | rfl, rfl⟩
    · exact .inl rfl
    · exact .inr ⟨rfl, _, "quill-a", list_rooms, List.mem_singleton_self _, by decide, rfl⟩

/-- A directory of the sample is removed with what is in it. -/
theorem Room.taken {place : Place} {u : FileTree} {name : String} (room : Room place)
    (taking : Taking Vacates rooms u) (named : ProperName name) :
    u.entry? (place ++ [name]) = none := by
  obtain ⟨q, chosen, same, taken⟩ := taking.taken _ (vacates_iff.2 ⟨place, room, rfl⟩)
  obtain ⟨place', room', rfl⟩ := vacates_iff.1 chosen
  cases room'.eq_of_parts room same
  refine taken ?_ _ ?_ ?_
  · refine stands_of_rooted room.proper room.many room.rooted ?_
    rintro above prior ⟨q, chosen, other, -, here, e, found, below, -⟩
    obtain ⟨place', room', rfl⟩ := vacates_iff.1 chosen
    cases room'.entryAt.symm.trans found
    cases room'.eq_of_prefix room (below.trans prior)
    exact other rfl
  · intro n there
    rcases List.mem_append.1 there with before | own
    · exact room.proper n before
    · rwa [List.mem_singleton.1 own]
  · exact ⟨by simp, place, .directory, room.entryAt, List.prefix_append _ _, by simp⟩

end

end Sample

open FileTree Files Store.Sample

/-- The output directory and a temporary one are removed with what is in them, and a link to the
output directory is as before. -/
theorem both_directories_are_taken :
    ∃ t, (vacate "/out" true).run.finish (lodger "/out") = some (.ok (), t) ∧
      t.environment.files.entry? ["out", "sub"] = none ∧
      t.environment.files.entry? ["tmp", "quill-a", "a"] = none ∧
      t.environment.files.entry? ["link"] = some (.link "out") := by
  obtain ⟨t, ends, -⟩ : ∃ t, (vacate "/out" true).run.finish (lodger "/out") = some (.ok (), t) ∧
      t.environment.files.entry? [] = some .directory := by
    refine vacated ?_
    unfold vacate fileStore files
    simp only [couple_eq, tempDirs, FileTree.list, children_eq]
    decide +kernel
  obtain ⟨-, -, taking⟩ := clearance_takes_its_directories _ true ⟨[0], none⟩ _ _ ends
  replace taking : Taking Vacates rooms t.environment.files := taking
  refine ⟨t, ends, Room.taken (.inl rfl) taking (by decide),
    Room.taken (.inr rfl) taking (by decide), ?_⟩
  rw [taking.kept ["link"] (by unfold Place.Proper; decide)]
  · decide
  · rintro p chosen ⟨-, here, e, found, below, -⟩
    obtain ⟨place, room, rfl⟩ := vacates_iff.1 chosen
    cases room.entryAt.symm.trans found
    rcases room with rfl | rfl <;> revert below <;> decide

/-- Clearances that succeed leave no directory to which one of their paths leads, if the path is
a good one. -/
def LeaveNone (good : FileTree → Path → Prop) : Prop :=
  ∀ (sources : Sources) (all : Bool) (token : Token) (s t : Site Output),
    s.environment.files.Closed → ((files sources).clear all token).run.finish s = some (.ok (), t) →
      ∀ p, Clears sources.settings s.own.dir all s.environment.files p →
        good s.environment.files p → ∀ place,
          s.environment.files.entryAt p true = .ok (place, .directory) →
            t.environment.files.entry? place = none

theorem not_leaveNone {good : FileTree → Path → Prop} (dir : String) (all : Bool)
    (ends : ((vacate dir all).run.finish (lodger dir)).map
      (fun (r, t) => (r.toOption, t.environment.files.entry? ["out"])) =
        some (some (), some .directory))
    (fits : good rooms ⟨dir⟩) (leads : rooms.entryAt ⟨dir⟩ true = .ok (["out"], .directory)) :
    ¬LeaveNone good := by
  intro none
  obtain ⟨t, ends, left⟩ := vacated ends
  have gone := none _ all _ (lodger dir) t closed_rooms ends ⟨dir⟩ (.inl rfl) fits _ leads
  exact nomatch left.symm.trans gone

/-- A directory stays that two dots name, one that a link leads to, and one to which the way has
been taken with another one. -/
theorem clearances_leave_directories :
    ¬LeaveNone (fun _ p => (steps (withoutSlashes p)).getLast? = some .parent) ∧
    ¬LeaveNone (fun t p => ∃ place target, t.entryAt p false = .ok (place, .link target)) ∧
    ¬LeaveNone (fun t p => (steps (withoutSlashes p)).getLast? ≠ some .parent ∧
      ∃ place, t.entryAt p false = .ok (place, .directory)) := by
  refine ⟨not_leaveNone "/out/sub/.." false ?_ (by decide +kernel) (by decide +kernel),
    not_leaveNone "/link" false ?_ ⟨["link"], "out", by decide +kernel⟩
      (by decide +kernel),
    not_leaveNone "/tmp/quill-a/../../out" true ?_
      ⟨by decide +kernel, ["out"], by decide +kernel⟩ (by decide +kernel)⟩
  all_goals
    unfold vacate fileStore files
    simp only [couple_eq, tempDirs, FileTree.list, children_eq]
    decide +kernel

end Store
end TemplateCache
