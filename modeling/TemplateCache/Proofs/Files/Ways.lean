import Mathlib.Data.List.Induction
import TemplateCache.Proofs.Files.Location

/-!
# Ways through a tree of files

Directories and links are the ways through a tree; what files hold, and which files there are, only
matters at the end of a path. A path leads to the same place in two trees with the same ways, so
what has been written at a path is what is read there, and what other paths lead to stays as it was.
-/

namespace TemplateCache

namespace FileTree

variable {t u v : FileTree} {p : Path} {place here : Place} {name : String} {follow : Bool}
  {rest : List Part} {links : Nat}

/-! ## Where steps lead -/

/-- Steps lead to a place, through no more than the given number of links. -/
inductive Leads (t : FileTree) (follow : Bool) : Nat → Place → List Part → Place → Prop where
  | place {links : Nat} {here place : Place} {rest : List Part}
      (strolled : t.stroll follow here rest = .ok (.place place)) :
      Leads t follow links here rest place
  | link {links : Nat} {here directory place : Place} {target : String} {rest left : List Part}
      (strolled : t.stroll follow here rest = .ok (.link directory target left))
      (checked : checkText target = .ok ())
      (onward : Leads t follow links directory (steps ⟨target⟩ ++ left) place) :
      Leads t follow (links + 1) here rest place

theorem leads_of_resolve (found : t.resolve follow links here rest = .ok place) :
    t.Leads follow links here rest place := by
  induction links generalizing here rest with
  | zero =>
      unfold resolve at found
      obtain ⟨reach, strolled, found⟩ := ok_of_bind found
      cases reach with
      | place there =>
          cases found
          exact .place strolled
      | link directory target left => cases found
  | succ links ih =>
      unfold resolve at found
      obtain ⟨reach, strolled, found⟩ := ok_of_bind found
      cases reach with
      | place there =>
          cases found
          exact .place strolled
      | link directory target left =>
          obtain ⟨_, checked, found⟩ := ok_of_bind found
          exact .link strolled checked (ih found)

theorem Leads.resolve (leads : t.Leads follow links here rest place) :
    t.resolve follow links here rest = .ok place := by
  induction leads with
  | @place links _ _ _ strolled =>
      cases links <;>
      · unfold FileTree.resolve
        rw [strolled]
        rfl
  | link strolled checked onward ih =>
      unfold FileTree.resolve
      rw [strolled]
      dsimp only [bind, Except.bind]
      rw [checked]
      exact ih

theorem locate_ok : t.locate p follow = .ok place ↔
    checkText p.text = .ok () ∧ t.Leads follow linkBudget [] (steps p) place := by
  unfold locate
  constructor
  · intro found
    obtain ⟨_, checked, found⟩ := ok_of_bind found
    exact ⟨checked, leads_of_resolve found⟩
  · rintro ⟨checked, leads⟩
    rw [checked]
    exact leads.resolve

/-! ## Directories on the way -/

/-- At a place is no way to other entries: a file, or nothing. -/
def Ends (t : FileTree) (place : Place) : Prop :=
  ∀ e, t.entry? place = some e → ∃ bytes, e = .file bytes

theorem ends_of_none (free : t.entry? place = none) : t.Ends place := by
  intro e there
  cases free.symm.trans there

theorem ends_of_file {bytes : List UInt8} (there : t.entry? place = some (.file bytes)) :
    t.Ends place := by
  intro e there'
  cases there.symm.trans there'
  exact ⟨bytes, rfl⟩

theorem Ends.not_directory (ended : t.Ends place) : t.entry? place ≠ some .directory := by
  intro there
  obtain ⟨bytes, same⟩ := ended _ there
  cases same

theorem Ends.not_link {target : String} (ended : t.Ends place) :
    t.entry? place ≠ some (.link target) := by
  intro there
  obtain ⟨bytes, same⟩ := ended _ there
  cases same

/-- A place and all above it are directories. -/
def Rooted (t : FileTree) (here : Place) : Prop :=
  ∀ above, above <+: here → t.entry? above = some .directory

theorem rooted_nil : t.Rooted [] := by
  intro above start
  rw [List.prefix_nil.1 start]
  rfl

theorem Rooted.entry (rooted : t.Rooted here) : t.entry? here = some .directory :=
  rooted here (List.prefix_refl here)

theorem Rooted.dropLast (rooted : t.Rooted here) : t.Rooted here.dropLast :=
  fun above start => rooted above (start.trans (List.dropLast_prefix here))

theorem Rooted.next (rooted : t.Rooted here)
    (there : t.entry? (here ++ [name]) = some .directory) : t.Rooted (here ++ [name]) := by
  intro above start
  rcases List.prefix_concat_iff.1 start with rfl | before
  · exact there
  · exact rooted above before

/-- Where links are followed to the end, there is no link there. -/
def Settles (t : FileTree) (place : Place) : Prop :=
  t.Rooted place ∨
    ∃ here name, place = here ++ [name] ∧ t.Rooted here ∧ t.Ends place

theorem stroll_rooted (rest : List Part) (rooted : t.Rooted here) :
    (∀ place, t.stroll true here rest = .ok (.place place) → t.Settles place) ∧
    ∀ directory target left,
      t.stroll follow here rest = .ok (.link directory target left) → t.Rooted directory := by
  induction rest generalizing here with
  | nil =>
      constructor
      · intro place found
        cases found
        exact .inl rooted
      · intro directory target left found
        cases found
  | cons part rest ih =>
      cases part with
      | normal name =>
          by_cases long : 255 < name.utf8ByteSize
          · rw [stroll_long long, stroll_long long]
            constructor
            · intro place found
              cases found
            · intro directory target left found
              cases found
          · rcases there : t.entry? (here ++ [name]) with _ | (bytes | _ | target)
            case some.directory =>
              rw [stroll_directory long there, stroll_directory long there]
              exact ih (rooted.next there)
            case some.link =>
              rw [stroll_link long there, stroll_link long there]
              constructor
              · intro place found
                simp at found
              · intro directory target' left found
                split at found <;> cases found
                exact rooted
            all_goals
              have ended : t.Ends (here ++ [name]) := by
                intro e found
                rw [there] at found
                cases found <;> exact ⟨_, rfl⟩
              constructor
              · intro place found
                obtain ⟨kind, ends⟩ := stroll_end rest true long ended
                rw [ends] at found
                split at found <;> cases found
                exact .inr ⟨here, name, rfl, rooted, ended⟩
              · intro directory target left found
                obtain ⟨kind, ends⟩ := stroll_end rest follow long ended
                rw [ends] at found
                split at found <;> cases found
      | root => exact ih rooted_nil
      | current => exact ih rooted
      | parent => exact ih rooted.dropLast

theorem Leads.settles (leads : t.Leads true links here rest place) (rooted : t.Rooted here) :
    t.Settles place := by
  induction leads with
  | place strolled => exact (@stroll_rooted t _ true _ rooted).1 _ strolled
  | link strolled checked onward ih => exact ih ((stroll_rooted _ rooted).2 _ _ _ strolled)

/-- On the way to a directory that steps lead to are directories. -/
theorem Leads.rooted (leads : t.Leads true links [] rest place)
    (directory : t.entry? place = some .directory) : t.Rooted place := by
  rcases leads.settles rooted_nil with rooted | ⟨_, _, -, -, ended⟩
  · exact rooted
  · exact absurd directory ended.not_directory

theorem locate_settles (found : t.locate p true = .ok place) : t.Settles place :=
  (locate_ok.1 found).2.settles rooted_nil

/-! ## Trees with the ways of others -/

/-- Directories and links that can be reached stay, and no link takes the place of a file or of
nothing. -/
def WaysIn (t u : FileTree) : Prop :=
  ∀ here name, Place.Proper (here ++ [name]) → t.Rooted here →
    u.entry? (here ++ [name]) = t.entry? (here ++ [name]) ∨
      t.Ends (here ++ [name]) ∧ ∀ target, u.entry? (here ++ [name]) ≠ some (.link target)

theorem WaysIn.refl (t : FileTree) : t.WaysIn t := fun _ _ _ _ => .inl rfl

theorem WaysIn.rooted (ways : t.WaysIn u) (proper : here.Proper) (rooted : t.Rooted here) :
    u.Rooted here := by
  induction here using List.reverseRecOn with
  | nil => exact rooted_nil
  | append_singleton here name ih =>
      have before : t.Rooted here := fun above start =>
        rooted above (start.trans (List.prefix_append here [name]))
      refine (ih (List.forall_mem_append.1 proper).1 before).next ?_
      rcases ways here name proper before with same | ⟨ended, -⟩
      · rw [same]
        exact rooted.entry
      · exact absurd rooted.entry ended.not_directory

theorem WaysIn.trans (h : t.WaysIn u) (h' : u.WaysIn v) : t.WaysIn v := by
  intro here name proper rooted
  have rooted' := h.rooted (List.forall_mem_append.1 proper).1 rooted
  rcases h here name proper rooted with same | ⟨ended, unlinked⟩
  · rcases h' here name proper rooted' with same' | ⟨ended, unlinked⟩
    · exact .inl (same'.trans same)
    · exact .inr ⟨fun e there => ended e (same.trans there), unlinked⟩
  · refine .inr ⟨ended, fun target there => ?_⟩
    rcases h' here name proper rooted' with same' | ⟨-, unlinked'⟩
    · exact unlinked target (same' ▸ there)
    · exact unlinked' target there

theorem stroll_of_ways (ways : t.WaysIn u) (rest : List Part) (start : here.Proper)
    (proper : ProperSteps rest) (rooted : t.Rooted here) :
    (∀ place, t.stroll follow here rest = .ok (.place place) →
      u.stroll follow here rest = .ok (.place place)) ∧
    ∀ directory target left, t.stroll follow here rest = .ok (.link directory target left) →
      u.stroll follow here rest = .ok (.link directory target left) := by
  induction rest generalizing here with
  | nil =>
      constructor
      · intro place found
        exact found
      · intro directory target left found
        cases found
  | cons part rest ih =>
      have later : ProperSteps rest := fun name there => proper name (List.mem_cons_of_mem _ there)
      cases part with
      | normal name =>
          have next : Place.Proper (here ++ [name]) := List.forall_mem_append.2
            ⟨start, List.forall_mem_singleton.2 (proper name List.mem_cons_self)⟩
          by_cases long : 255 < name.utf8ByteSize
          · rw [stroll_long long, stroll_long long]
            exact ⟨fun _ found => found, fun _ _ _ found => found⟩
          · by_cases ended : t.Ends (here ++ [name])
            · -- A way of the first tree ends here, if it ends here at all.
              have ends {reach : Reach} (found : t.stroll follow here (.normal name :: rest) =
                  .ok reach) : rest = [] ∧ reach = .place (here ++ [name]) := by
                obtain ⟨kind, ends⟩ := stroll_end rest follow long ended
                rw [ends] at found
                split at found <;> cases found
                exact ⟨List.isEmpty_iff.1 ‹_›, rfl⟩
              constructor
              · intro place found
                obtain ⟨rfl, same⟩ := ends found
                cases same
                rcases there : u.entry? (here ++ [name]) with _ | (bytes | _ | target)
                case some.directory =>
                  rw [stroll_directory long there]
                  rfl
                case some.link =>
                  rcases ways here name next rooted with same | ⟨-, unlinked⟩
                  · exact absurd (same.symm.trans there) ended.not_link
                  · exact absurd there (unlinked target)
                all_goals
                  obtain ⟨kind, ends⟩ := stroll_end [] follow long fun e found => by
                    rw [there] at found
                    cases found <;> exact ⟨_, rfl⟩
                  rw [ends]
                  rfl
              · intro directory target left found
                cases (ends found).2
            · have same : u.entry? (here ++ [name]) = t.entry? (here ++ [name]) :=
                (ways here name next rooted).resolve_right fun other => ended other.1
              rcases there : t.entry? (here ++ [name]) with _ | (bytes | _ | target)
              case some.directory =>
                rw [stroll_directory long there, stroll_directory long (same.trans there)]
                exact ih next later (rooted.next there)
              case some.link =>
                rw [stroll_link long there, stroll_link long (same.trans there)]
                exact ⟨fun _ found => found, fun _ _ _ found => found⟩
              case none => exact absurd (ends_of_none there) ended
              case some.file => exact absurd (ends_of_file there) ended
      | root => exact ih (fun _ there => absurd there List.not_mem_nil) later rooted_nil
      | current => exact ih start later rooted
      | parent =>
          exact ih (fun name there => start name (List.dropLast_subset _ there)) later
            rooted.dropLast

theorem Leads.of_ways (ways : t.WaysIn u) (leads : t.Leads follow links here rest place)
    (start : here.Proper) (proper : ProperSteps rest) (rooted : t.Rooted here) :
    u.Leads follow links here rest place := by
  induction leads with
  | place strolled => exact .place ((stroll_of_ways ways _ start proper rooted).1 _ strolled)
  | link strolled checked onward ih =>
      obtain ⟨start', proper'⟩ := (stroll_proper _ start proper).2 _ _ _ strolled
      refine .link ((stroll_of_ways ways _ start proper rooted).2 _ _ _ strolled) checked
        (ih start' ?_ ((stroll_rooted _ rooted).2 _ _ _ strolled))
      exact fun name there => (List.mem_append.1 there).elim (steps_proper _ name) (proper' name)

/-- Where steps from the root lead, they lead in every tree with the same ways. -/
theorem Leads.kept (ways : t.WaysIn u) (leads : t.Leads follow links [] rest place)
    (proper : ProperSteps rest) : u.Leads follow links [] rest place :=
  leads.of_ways ways (fun _ there => absurd there List.not_mem_nil) proper rooted_nil

/-- Where a path leads, it leads in every tree with the same ways. -/
theorem locate_of_ways (ways : t.WaysIn u) (found : t.locate p follow = .ok place) :
    u.locate p follow = .ok place := by
  obtain ⟨checked, leads⟩ := locate_ok.1 found
  exact locate_ok.2 ⟨checked, leads.kept ways (steps_proper p)⟩

theorem Extends.waysIn (h : t.Extends u) : t.WaysIn u := by
  intro here name _ _
  rcases h (here ++ [name]) with same | ⟨free, made⟩
  · exact .inl same
  · rw [free, made]
    exact .inr ⟨ends_of_none free, fun _ absent => by cases absent⟩

/-! ## Writing files -/

/-- A text stands for one place. Nothing but a directory is at the root. -/
theorem entry_put (place : Place) (e : Entry) (other : Place) :
    FileTree.entry? (t.put place e) other =
      if other ≠ [] ∧ other.text = place.text then some e else t.entry? other := by
  cases other with
  | nil => rfl
  | cons first more =>
      show (t.entries.insert place.text e).get? _ = _
      rw [KeyMap.get?_insert]
      by_cases same : Place.text (first :: more) = place.text
      · rw [if_pos same, if_pos ⟨List.cons_ne_nil first more, same⟩]
      · rw [if_neg same, if_neg fun both => same both.2]
        rfl

theorem entry_of_text {other : Place} (under : place ≠ []) (under' : other ≠ [])
    (same : other.text = place.text) : t.entry? other = t.entry? place := by
  cases place with
  | nil => exact absurd rfl under
  | cons _ _ =>
      cases other with
      | nil => exact absurd rfl under'
      | cons _ _ => exact congrArg t.entries.get? same

/-- Writing a file gives and takes no ways. -/
theorem waysIn_put {bytes : List UInt8} (under : place ≠ []) (ended : t.Ends place) :
    t.WaysIn (t.put place (.file bytes)) ∧ (t.put place (.file bytes)).WaysIn t := by
  have alike (other : Place) :
      FileTree.entry? (t.put place (.file bytes)) other = t.entry? other ∨
        FileTree.entry? (t.put place (.file bytes)) other = some (.file bytes) ∧ t.Ends other := by
    rw [entry_put]
    split
    · rename_i both
      refine .inr ⟨rfl, fun e there => ended e ?_⟩
      rw [← there, entry_of_text under both.1 both.2]
    · exact .inl rfl
  constructor
  · intro here name _ _
    rcases alike (here ++ [name]) with same | ⟨written, ended⟩
    · exact .inl same
    · rw [written]
      exact .inr ⟨ended, fun _ file => by cases file⟩
  · intro here name _ _
    rcases alike (here ++ [name]) with same | ⟨written, ended⟩
    · exact .inl same.symm
    · exact .inr ⟨ends_of_file written, fun _ => ended.not_link⟩

theorem write_ok {bytes : List UInt8} (written : t.write p bytes = .ok u) :
    ∃ place, t.locate p true = .ok place ∧ place ≠ [] ∧ t.Ends place ∧
      u = t.put place (.file bytes) := by
  unfold write at written
  split at written
  · obtain ⟨_, -, failed⟩ := ok_of_bind written
    cases failed
  · obtain ⟨place, located, written⟩ := ok_of_bind written
    refine ⟨place, located, ?_⟩
    split at written
    · cases written
    · rename_i undirected
      cases written
      rcases locate_settles located with rooted | ⟨here, name, rfl, -, ended⟩
      · exact absurd rooted.entry undirected
      · exact ⟨by simp, ended, rfl⟩

/-- What has been written at a path is read there. -/
theorem read_write {bytes : List UInt8} (written : t.write p bytes = .ok u) :
    u.read p = .ok bytes := by
  obtain ⟨place, located, under, ended, rfl⟩ := write_ok written
  have ways : t.WaysIn (t.put place (.file bytes)) := (waysIn_put under ended).1
  have located' := locate_of_ways ways located
  have there : FileTree.entry? (t.put place (.file bytes)) place = some (.file bytes) := by
    rw [entry_put, if_pos ⟨under, rfl⟩]
  unfold read status entryAt
  rw [located']
  dsimp only [bind, Except.bind]
  rw [there]
  rfl

/-! ## Removing files -/

theorem entry_remove (proper : place.Proper) (under : place ≠ []) :
    FileTree.entry? (t.remove here) place = if here <+: place then none else t.entry? place := by
  have chosen : (below? here place.text).isNone = !decide (here <+: place) := by
    unfold below?
    rw [Path.normalNames_text proper]
    by_cases start : here <+: place
    · simp [start]
    · simp [start]
  unfold remove
  rw [entry_removeWhere _ under, chosen]
  by_cases start : here <+: place <;> simp [start]

/-- Removing a file takes no ways. -/
theorem waysIn_remove (ended : t.Ends place) : t.WaysIn (t.remove place) := by
  intro here name proper rooted
  rw [entry_remove proper (by simp)]
  split
  · rename_i start
    rcases List.prefix_concat_iff.1 start with rfl | above
    · exact .inr ⟨ended, fun target gone => by cases gone⟩
    · exact absurd (rooted _ above) ended.not_directory
  · exact .inl rfl

/-- A link is gone. -/
def Unlinks (t u : FileTree) : Prop :=
  ∃ place target, t.entry? place = some (.link target) ∧ u.entry? place = none

theorem Unlinks.mono {w : FileTree} (h : u.Unlinks v) (before : t.Thins u) (after : v.Thins w) :
    t.Unlinks w := by
  obtain ⟨place, target, there, gone⟩ := h
  refine ⟨place, target, before.entry there, ?_⟩
  rcases after place with none | same
  · exact none
  · rw [same, gone]

/-- Ways are only taken with links. -/
theorem removeFile_ways (removed : t.removeFile p = .ok u) : t.WaysIn u ∨ t.Unlinks u := by
  obtain ⟨place, e, found, file, rfl⟩ := removeFile_eq removed
  obtain ⟨proper, there⟩ := entryAt_proper found
  cases e with
  | file bytes => exact .inl (waysIn_remove (ends_of_file there))
  | directory => exact absurd rfl file
  | link target =>
      have under : place ≠ [] := by
        rintro rfl
        cases there
      refine .inr ⟨place, target, there, ?_⟩
      rw [entry_remove proper under, if_pos (List.prefix_refl place)]

end FileTree
end TemplateCache
