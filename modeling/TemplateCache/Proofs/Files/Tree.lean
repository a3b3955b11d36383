import TemplateCache.Proofs.Path

/-!
# Removing from a tree of files

A tree that lost entries leads nowhere that the full tree did not lead, so what has been removed
stays removed whatever else is removed after it.
-/

namespace TemplateCache

namespace FileTree

variable {t u v : FileTree} {p : Path} {place here : Place} {e : Entry} {follow : Bool}

/-- Entries may be gone, but none is new. -/
def Thins (t u : FileTree) : Prop :=
  ∀ place, u.entry? place = none ∨ u.entry? place = t.entry? place

theorem Thins.refl (t : FileTree) : t.Thins t := fun _ => .inr rfl

theorem Thins.trans (h : t.Thins u) (h' : u.Thins v) : t.Thins v := by
  intro place
  rcases h' place with gone | same
  · exact .inl gone
  · rw [same]
    exact h place

theorem Thins.entry (h : t.Thins u) (found : u.entry? place = some e) :
    t.entry? place = some e := by
  rcases h place with gone | same
  · rw [gone] at found
    exact nomatch found
  · rw [← same, found]

theorem entry_removeWhere (chosen? : String → Option Place) (rooted : place ≠ []) :
    entry? (t.removeWhere chosen?) place =
      if (chosen? (Place.text place)).isNone then t.entry? place else none := by
  cases place with
  | nil => exact absurd rfl rooted
  | cons name rest =>
      show (t.entries.filter fun text _ => (chosen? text).isNone).get? _ =
        if _ then t.entries.get? _ else none
      rw [KeyMap.get?_filter]
      cases t.entries.get? (Place.text (name :: rest)) with
      | none => simp
      | some found => rfl

theorem thins_removeWhere (chosen? : String → Option Place) :
    t.Thins (t.removeWhere chosen?) := by
  intro place
  by_cases root : place = []
  · subst root
    exact .inr rfl
  · rw [entry_removeWhere chosen? root]
    split
    · exact .inr rfl
    · exact .inl rfl

/-! ## Paths in a thinner tree -/

/-- A stroll through the thinner tree that ends at an entry or a link is one through the full
tree. -/
theorem stroll_of_thins (h : t.Thins u) (rest : List Part) :
    (∀ place e, u.stroll follow here rest = .ok (.place place) → u.entry? place = some e →
      t.stroll follow here rest = .ok (.place place)) ∧
    ∀ directory target left, u.stroll follow here rest = .ok (.link directory target left) →
      t.stroll follow here rest = .ok (.link directory target left) := by
  induction rest generalizing here with
  | nil => exact ⟨fun _ _ found _ => found, fun _ _ _ found => found⟩
  | cons part rest ih =>
      cases part with
      | normal name =>
          unfold stroll
          dsimp only
          split
          · exact ⟨nofun, nofun⟩
          · rcases h (here ++ [name]) with gone | same
            · rw [gone]
              dsimp only
              split
              · refine ⟨fun place e found there => ?_, nofun⟩
                cases found
                rw [gone] at there
                exact nomatch there
              · exact ⟨nofun, nofun⟩
            · rw [same]
              split
              · exact ih
              · exact ⟨fun _ _ found _ => found, fun _ _ _ found => found⟩
              · exact ⟨fun _ _ found _ => found, fun _ _ _ found => found⟩
              · exact ⟨fun _ _ found _ => found, fun _ _ _ found => found⟩
      | _ => exact ih

/-- What succeeds in two steps, succeeds in each. -/
theorem ok_of_bind {α β : Type} {x : Except FileErrorKind α} {f : α → Except FileErrorKind β}
    {w : β} (h : (x >>= f) = .ok w) : ∃ a, x = .ok a ∧ f a = .ok w := by
  cases x with
  | ok a => exact ⟨a, rfl, h⟩
  | error kind => exact nomatch h

theorem resolve_of_thins (h : t.Thins u) (links : Nat) (rest : List Part)
    (found : u.resolve follow links here rest = .ok place) (there : u.entry? place = some e) :
    t.resolve follow links here rest = .ok place := by
  induction links generalizing here rest with
  | zero =>
      unfold resolve at found ⊢
      obtain ⟨reach, strolled, found⟩ := ok_of_bind found
      cases reach with
      | place here' =>
          cases found
          rw [(stroll_of_thins h rest).1 _ _ strolled there]
          rfl
      | link directory target left => exact nomatch found
  | succ links ih =>
      unfold resolve at found ⊢
      obtain ⟨reach, strolled, found⟩ := ok_of_bind found
      cases reach with
      | place here' =>
          cases found
          rw [(stroll_of_thins h rest).1 _ _ strolled there]
          rfl
      | link directory target left =>
          obtain ⟨_, checked, found⟩ := ok_of_bind found
          rw [(stroll_of_thins h rest).2 _ _ _ strolled]
          show (checkText target >>= fun _ =>
            t.resolve follow links directory (steps ⟨target⟩ ++ left)) = .ok place
          rw [checked]
          exact ih _ found

/-- What a path leads to in the thinner tree, it leads to in the full one. -/
theorem entryAt_of_thins (h : t.Thins u) (found : u.entryAt p follow = .ok (place, e)) :
    t.entryAt p follow = .ok (place, e) ∧ u.entry? place = some e := by
  unfold entryAt locate at *
  obtain ⟨place', located, found⟩ := ok_of_bind found
  obtain ⟨_, checked, resolved⟩ := ok_of_bind located
  cases there : u.entry? place' with
  | none =>
      rw [there] at found
      exact nomatch found
  | some e' =>
      rw [there] at found
      cases found
      refine ⟨?_, there⟩
      rw [checked]
      show (t.resolve follow linkBudget [] (steps p) >>= _) = _
      rw [resolve_of_thins h _ _ resolved there]
      dsimp only [bind, Except.bind]
      rw [h.entry there]

/-! ## The places of paths -/

theorem stepOf_proper {segment : List Char} {name : String} (plain : '/' ∉ segment)
    (normal : stepOf segment = .normal name) : ProperName name := by
  unfold stepOf at normal
  split at normal
  · exact nomatch normal
  · exact nomatch normal
  · exact nomatch normal
  · rename_i full dot dots
    cases normal
    unfold ProperName
    rw [String.toList_ofList]
    exact ⟨plain, full, dot, dots⟩

def ProperSteps (rest : List Part) : Prop := ∀ name, Part.normal name ∈ rest → ProperName name

theorem stepsFrom_proper (chars segment : List Char) (plain : '/' ∉ segment) :
    ProperSteps (stepsFrom chars segment) := by
  induction chars generalizing segment with
  | nil =>
      intro name there
      exact stepOf_proper (by simpa using plain) (List.mem_singleton.1 there).symm
  | cons c chars ih =>
      unfold stepsFrom
      split
      · intro name there
        rcases List.mem_cons.1 there with here | later
        · exact stepOf_proper (by simpa using plain) here.symm
        · exact ih [] (by simp) name later
      · rename_i other
        refine ih (c :: segment) ?_
        rw [List.mem_cons, not_or]
        exact ⟨Ne.symm other, plain⟩

theorem steps_proper (p : Path) : ProperSteps (steps p) := by
  unfold steps
  split
  · intro name there
    rcases List.mem_cons.1 there with root | later
    · exact nomatch root
    · exact stepsFrom_proper _ [] (by simp) name later
  · exact stepsFrom_proper _ [] (by simp)

theorem stroll_proper (rest : List Part) (start : here.Proper) (proper : ProperSteps rest) :
    (∀ place, t.stroll follow here rest = .ok (.place place) → place.Proper) ∧
    ∀ directory target left, t.stroll follow here rest = .ok (.link directory target left) →
      directory.Proper ∧ ProperSteps left := by
  induction rest generalizing here with
  | nil =>
      refine ⟨fun place found => ?_, nofun⟩
      cases found
      exact start
  | cons part rest ih =>
      have later : ProperSteps rest := fun name there => proper name (List.mem_cons_of_mem _ there)
      cases part with
      | normal name =>
          have next : Place.Proper (here ++ [name]) := by
            intro n there
            rcases List.mem_append.1 there with before | own
            · exact start n before
            · rw [List.mem_singleton.1 own]
              exact proper name List.mem_cons_self
          unfold stroll
          dsimp only
          split
          · exact ⟨nofun, nofun⟩
          · split
            · exact ih next later
            · split
              · refine ⟨fun place found => ?_, nofun⟩
                cases found
                exact next
              · refine ⟨nofun, fun directory target left found => ?_⟩
                cases found
                exact ⟨start, later⟩
            · split
              · refine ⟨fun place found => ?_, nofun⟩
                cases found
                exact next
              · exact ⟨nofun, nofun⟩
            · split
              · refine ⟨fun place found => ?_, nofun⟩
                cases found
                exact next
              · exact ⟨nofun, nofun⟩
      | root => exact ih (fun _ => nofun) later
      | current => exact ih start later
      | parent => exact ih (fun name there => start name (List.dropLast_subset _ there)) later

theorem resolve_proper (links : Nat) (rest : List Part) (start : here.Proper)
    (proper : ProperSteps rest) (found : t.resolve follow links here rest = .ok place) :
    place.Proper := by
  induction links generalizing here rest with
  | zero =>
      unfold resolve at found
      obtain ⟨reach, strolled, found⟩ := ok_of_bind found
      cases reach with
      | place here' =>
          cases found
          exact (stroll_proper rest start proper).1 _ strolled
      | link directory target left => exact nomatch found
  | succ links ih =>
      unfold resolve at found
      obtain ⟨reach, strolled, found⟩ := ok_of_bind found
      cases reach with
      | place here' =>
          cases found
          exact (stroll_proper rest start proper).1 _ strolled
      | link directory target left =>
          obtain ⟨_, -, found⟩ := ok_of_bind found
          obtain ⟨there, later⟩ := (stroll_proper rest start proper).2 _ _ _ strolled
          refine ih _ there (fun name mem => ?_) found
          rcases List.mem_append.1 mem with target' | left'
          · exact steps_proper _ name target'
          · exact later name left'

theorem entryAt_proper (found : t.entryAt p follow = .ok (place, e)) :
    place.Proper ∧ t.entry? place = some e := by
  unfold entryAt locate at found
  obtain ⟨place', located, found⟩ := ok_of_bind found
  obtain ⟨_, -, resolved⟩ := ok_of_bind located
  cases there : t.entry? place' with
  | none =>
      rw [there] at found
      exact nomatch found
  | some e' =>
      rw [there] at found
      cases found
      exact ⟨resolve_proper _ _ (fun _ there => absurd there List.not_mem_nil) (steps_proper p)
        resolved, there⟩

/-! ## Removing files -/

/-- Nothing is at a path. A slash at its end does not count. -/
def Lacks (t : FileTree) (p : Path) : Prop :=
  ∀ found, t.entryAt (withoutSlashes p) false ≠ .ok found

theorem Lacks.thins (lacks : t.Lacks p) (h : t.Thins u) : u.Lacks p :=
  fun ⟨_, _⟩ found => lacks _ (entryAt_of_thins h found).1

/-- What is removed is what the path leads to, which is no directory. -/
theorem removeFile_eq (removed : t.removeFile p = .ok u) :
    ∃ place e, t.entryAt (withoutSlashes p) false = .ok (place, e) ∧ e ≠ .directory ∧
      u = t.remove place := by
  unfold removeFile at removed
  obtain ⟨⟨place, e⟩, found, removed⟩ := ok_of_bind removed
  cases e with
  | directory => exact nomatch removed
  | _ =>
      replace removed : (if endsInSlash p then .error .notADirectory
        else .ok (t.remove place) : Except FileErrorKind FileTree) = .ok u := removed
      split at removed
      · exact nomatch removed
      · cases removed
        exact ⟨place, _, found, nofun, rfl⟩

theorem removeFile_lacks (removed : t.removeFile p = .ok u) : t.Thins u ∧ u.Lacks p := by
  obtain ⟨place, e, found, file, rfl⟩ := removeFile_eq removed
  obtain ⟨proper, there⟩ := entryAt_proper found
  refine ⟨thins_removeWhere _, ?_⟩
  rintro ⟨place', e'⟩ found'
  obtain ⟨before, kept⟩ := entryAt_of_thins (thins_removeWhere _) found'
  cases before.symm.trans found
  have rooted : place ≠ [] := by
    rintro rfl
    cases there
    exact file rfl
  rw [entry_removeWhere _ rooted, if_neg] at kept
  · exact nomatch kept
  · unfold below?
    rw [Path.normalNames_text proper]
    simp

/-- A path that leads nowhere has nothing to remove. -/
theorem lacks_of_notFound (missing : t.removeFile p = .error .notFound) : t.Lacks p := by
  rintro ⟨place, e⟩ found
  unfold removeFile at missing
  rw [found] at missing
  cases e with
  | directory => exact nomatch missing
  | _ =>
      replace missing : (if endsInSlash p then .error .notADirectory
        else .ok (t.remove place) : Except FileErrorKind FileTree) = .error .notFound := missing
      split at missing
      · exact nomatch missing
      · exact nomatch missing

/-- The places of some paths, and what is below them. -/
def Covers (t : FileTree) (paths : List Path) (place : Place) : Prop :=
  ∃ p ∈ paths, ∃ here e, t.entryAt (withoutSlashes p) false = .ok (here, e) ∧
    (below? here place.text).isSome = true

theorem removeFile_keeps (removed : t.removeFile p = .ok u) (apart : ¬t.Covers [p] place) :
    u.entry? place = t.entry? place := by
  obtain ⟨here, e, found, -, rfl⟩ := removeFile_eq removed
  by_cases root : place = []
  · subst root
    rfl
  · unfold remove
    rw [entry_removeWhere _ root, if_pos]
    rw [Option.isNone_iff_eq_none]
    cases below : below? here place.text with
    | none => rfl
    | some names =>
        exact absurd ⟨p, List.mem_singleton_self p, here, e, found, by simp [below]⟩ apart

/-! ## Removing directories -/

/-- What is at some paths, and what is below that. Links at the end of a path are followed where it
ends in a slash. -/
def Holds (t : FileTree) (paths : List Path) (place : Place) : Prop :=
  ∃ p ∈ paths, ∃ here e, t.entryAt p false = .ok (here, e) ∧
    (below? here place.text).isSome = true

/-- Nothing is left of a directory. Only the root, and a directory that a path names by two dots at
its end, may be left without anything in it. -/
def Cleared (t : FileTree) (p : Path) : Prop :=
  ∀ place e, t.entryAt p false = .ok (place, e) →
    (place = [] ∨ (steps (withoutSlashes p)).getLast? = some .parent) ∧
      ∀ below : Place, below.Proper → below ≠ [] → t.entry? (place ++ below) = none

theorem Holds.of_thins {paths : List Path} (holds : u.Holds paths place) (thins : t.Thins u) :
    t.Holds paths place := by
  obtain ⟨p, there, here, e, found, below⟩ := holds
  exact ⟨p, there, here, e, (entryAt_of_thins thins found).1, below⟩

theorem Cleared.thins (cleared : t.Cleared p) (h : t.Thins u) : u.Cleared p := by
  intro place e found
  obtain ⟨left, gone⟩ := cleared place e (entryAt_of_thins h found).1
  refine ⟨left, fun below proper full => ?_⟩
  rcases h (place ++ below) with missing | same
  · exact missing
  · rw [same]
    exact gone below proper full

/-- All that a removal may do is to remove a directory, or what is in it. -/
theorem removeDir_eq (t : FileTree) (p : Path) :
    (t.removeDir p).2 = t ∨ ∃ place e, t.entryAt p false = .ok (place, e) ∧
      ((t.removeDir p).2 = t.remove place ∨ (t.removeDir p).2 = t.empty place) := by
  unfold removeDir
  split
  · exact .inl rfl
  · exact .inl rfl
  · rename_i place e _ found
    refine .inr ⟨place, e, found, ?_⟩
    split
    · exact .inr rfl
    · exact .inr rfl
    · split
      · exact .inr rfl
      · exact .inl rfl
    · exact .inl rfl

theorem thins_removeDir : t.Thins (t.removeDir p).2 := by
  rcases removeDir_eq t p with same | ⟨here, e, -, removed | emptied⟩
  · rw [same]
    exact .refl t
  · rw [removed]
    exact thins_removeWhere _
  · rw [emptied]
    exact thins_removeWhere _

theorem removeDir_keeps (apart : ¬t.Holds [p] place) :
    entry? (t.removeDir p).2 place = t.entry? place := by
  rcases removeDir_eq t p with same | ⟨here, e, found, changed⟩
  · rw [same]
  · by_cases root : place = []
    · subst root
      rfl
    · have outside : below? here place.text = none := by
        cases below : below? here place.text with
        | none => rfl
        | some names =>
            exact absurd ⟨p, List.mem_singleton_self p, here, e, found, by simp [below]⟩ apart
      rcases changed with removed | emptied
      · rw [removed, remove, entry_removeWhere _ root, outside]
        rfl
      · rw [emptied, empty, entry_removeWhere _ root, outside]
        rfl

/-- What lies below a place, is found below it by its text. -/
theorem below?_append {below : Place} (proper : here.Proper) (proper' : below.Proper) :
    below? here (Place.text (here ++ below)) = some (here ++ below) := by
  have all : Place.Proper (here ++ below) := by
    intro name there
    rcases List.mem_append.1 there with above | under
    · exact proper name above
    · exact proper' name under
  unfold below?
  rw [Path.normalNames_text all, if_pos]
  exact List.isPrefixOf_iff_prefix.2 (List.prefix_append here below)

/-- A removal that succeeds removes the directory, or what is in it where two dots name it. -/
theorem removeDir_fine (found : t.entryAt p false = .ok (place, e))
    (fine : (t.removeDir p).1 = .ok () ∨ (t.removeDir p).1 = .error .notFound) :
    (steps (withoutSlashes p)).getLast? ≠ some .parent ∧ (t.removeDir p).2 = t.remove place ∨
      (steps (withoutSlashes p)).getLast? = some .parent ∧
        (t.removeDir p).2 = t.empty place := by
  unfold removeDir at *
  rw [found] at fine ⊢
  cases e with
  | file bytes => simp at fine
  | _ =>
      dsimp only at fine ⊢
      split at fine
      · simp at fine
      · rename_i parent
        exact .inr ⟨parent, rfl⟩
      · rename_i named
        split at fine
        · simp at fine
        · rename_i slash
          rw [if_neg slash]
          exact .inl ⟨named, rfl⟩
      · rename_i named _
        exact .inl ⟨named, rfl⟩

/-- A removal that succeeds, or finds nothing, leaves nothing. -/
theorem removeDir_cleared
    (fine : (t.removeDir p).1 = .ok () ∨ (t.removeDir p).1 = .error .notFound) :
    (t.removeDir p).2.Cleared p := by
  intro place e found'
  obtain ⟨found, still⟩ := entryAt_of_thins thins_removeDir found'
  obtain ⟨proper, -⟩ := entryAt_proper found
  rcases removeDir_fine found fine with ⟨-, removed⟩ | ⟨parent, emptied⟩
  · rw [removed] at still ⊢
    refine ⟨?_, fun below proper' full => ?_⟩
    · by_cases root : place = []
      · exact .inl root
      · have own : below? place (Place.text (place ++ [])) = some (place ++ []) :=
          below?_append proper fun _ there => by cases there
        rw [List.append_nil] at own
        rw [remove, entry_removeWhere _ root, own] at still
        cases still
    · rw [remove, entry_removeWhere _ (by simp [full]), below?_append proper proper']
      rfl
  · rw [emptied]
    refine ⟨.inr parent, fun below proper' full => ?_⟩
    rw [empty, entry_removeWhere _ (by simp [full]), below?_append proper proper']
    simp [full]

end FileTree
end TemplateCache
