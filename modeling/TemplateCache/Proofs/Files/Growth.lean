import TemplateCache.Proofs.Files.Tree
import TemplateCache.Proofs.KeyMap

/-!
# Adding directories to a tree of files

A tree with more directories leads wherever the tree led, and what is readable stays so. Where every
entry lies in a directory, new directories give a way to nothing that there was no way to.
-/

namespace TemplateCache.FileTree

variable {t u v : FileTree} {p : Path} {place : Place} {e : Entry}

/-- What was there is there, and what is new are directories. -/
def Extends (t u : FileTree) : Prop :=
  ∀ place, u.entry? place = t.entry? place ∨
    t.entry? place = none ∧ u.entry? place = some .directory

/-- Every entry lies in a directory. -/
def Closed (t : FileTree) : Prop :=
  ∀ (place : Place) (name : String) (e : Entry), Place.Proper (place ++ [name]) →
    t.entry? (place ++ [name]) = some e → t.entry? place = some .directory

theorem closed_of_entries (h : ∀ x ∈ t.entries.entries,
    t.entry? (Path.normalNames ⟨x.1⟩).dropLast = some .directory) : t.Closed := by
  intro place name e proper there
  have listed : (Place.text (place ++ [name]), e) ∈ t.entries.entries := by
    refine KeyMap.mem_entries.2 ?_
    cases place <;> exact there
  have above := h _ listed
  dsimp only at above
  rw [Path.normalNames_text proper, List.dropLast_concat] at above
  exact above

theorem Extends.refl (t : FileTree) : t.Extends t := fun _ => .inl rfl

theorem Extends.trans (h : t.Extends u) (h' : u.Extends v) : t.Extends v := by
  intro place
  rcases h' place with same | ⟨free, made⟩
  · rw [same]
    exact h place
  · rcases h place with same | ⟨free', made'⟩
    · rw [same] at free
      exact .inr ⟨free, made⟩
    · rw [free] at made'
      cases made'

theorem Extends.thins (h : t.Extends u) : u.Thins t := by
  intro place
  rcases h place with same | ⟨free, -⟩
  · exact .inr same.symm
  · exact .inl free

theorem Extends.entry (h : t.Extends u) (there : t.entry? place = some e) :
    u.entry? place = some e := h.thins.entry there

/-- What is readable in a tree is so in one with more entries. -/
theorem readText_of_thins (h : t.Thins u) {text : String} (found : u.readText p = .ok text) :
    t.readText p = .ok text := by
  have same : t.entryAt p true = u.entryAt p true := by
    cases there : u.entryAt p true with
    | error kind =>
        simp only [readText, read, status, there] at found
        exact nomatch found
    | ok entry => exact (entryAt_of_thins h there).1
  unfold readText read status at *
  rw [same, found]

/-! ## Making directories -/

theorem extends_put (free : t.entry? place = none) : t.Extends (t.put place .directory) := by
  intro other
  cases other with
  | nil => exact .inl rfl
  | cons name rest =>
      cases place with
      | nil => exact nomatch free
      | cons first more =>
          show (t.entries.insert _ .directory).get? _ = t.entries.get? _ ∨
            t.entries.get? _ = none ∧ (t.entries.insert _ .directory).get? _ = some .directory
          rw [KeyMap.get?_insert]
          split
          · rename_i same
            rw [same]
            exact .inr ⟨free, rfl⟩
          · exact .inl rfl

theorem extends_makeDir (made : t.makeDir p = .ok u) : t.Extends u := by
  unfold makeDir create at made
  obtain ⟨place, -, made⟩ := ok_of_bind made
  split at made
  · exact nomatch made
  · cases made
    exact extends_put ‹_›

section

variable {keeps : FileTree → Prop}

theorem kept_attempt (start : keeps t) (each : ∀ u, t.makeDir p = .ok u → keeps u) :
    keeps (t.attempt (t.makeDir p)).2 := by
  unfold attempt
  split
  · exact each _ ‹_›
  · exact start

theorem kept_orDirectory {result : Except FileErrorKind Unit × FileTree} (kept : keeps result.2) :
    keeps (orDirectory p result).2 := by
  unfold orDirectory
  split
  · split
    · exact kept
    · exact kept
  · exact kept

/-- Making several directories keeps what making each of them keeps. -/
theorem kept_makeChain {paths : List Path}
    (each : ∀ p ∈ paths, ∀ t u, keeps t → t.makeDir p = .ok u → keeps u) (start : keeps t) :
    keeps (t.makeChain paths).2 := by
  induction paths generalizing t with
  | nil => exact start
  | cons p above ih =>
      obtain ⟨own, others⟩ := List.forall_mem_cons.1 each
      have first : keeps (t.attempt (t.makeDir p)).2 := kept_attempt start fun u => own t u start
      unfold makeChain
      split
      · exact start
      · split
        · rename_i u missing
          rw [missing] at first
          have rest : keeps (u.makeChain above).2 := ih others first
          split
          · rename_i v made
            rw [made] at rest
            exact kept_orDirectory (kept_attempt rest fun w => own v w rest)
          · exact rest
        · exact kept_orDirectory first

end

theorem extends_makeChain (paths : List Path) : t.Extends (t.makeChain paths).2 :=
  kept_makeChain (fun _ _ _ _ grown made => grown.trans (extends_makeDir made)) (.refl t)

theorem extends_makeTempDir {parent : Path} {start : String}
    (made : t.makeTempDir parent start = .ok (p, u)) : t.Extends u := by
  unfold makeTempDir at made
  obtain ⟨v, created, made⟩ := ok_of_bind made
  have grown : t.Extends v := extends_makeDir created
  cases made
  exact grown

end TemplateCache.FileTree
