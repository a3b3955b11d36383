import TemplateCache.Job

/-!
# Families of tokens

Tokens are drawn one after the other, each without a parent or as a child of an earlier one.
Cancelling a token reaches itself and those that descend from it. Its parent is not among these, and
neither are the other children of its parent.
-/

namespace TemplateCache

/-- Tokens in the order in which they are drawn, by the parent of each. There is no last one. -/
structure Family where
  parent? : Nat → Option Nat
  older : ∀ {i p}, parent? i = some p → p < i

namespace Family

variable {f : Family} {i j p n : Nat}

/-- Draws one more token, as a child of an earlier one if it has a parent. -/
def drawNext (tokens : List Token) (clock : Clock) (parent : Option Nat) : Token × Clock :=
  match parent.bind (tokens[·]?) with
  | none => clock.newToken none
  | some parent => clock.child parent

/-- Draws a number of tokens. -/
def draw (f : Family) : Nat → List Token × Clock
  | 0 => ([], {})
  | n + 1 =>
    let (tokens, clock) := f.draw n
    let (token, clock) := drawNext tokens clock (f.parent? n)
    (tokens ++ [token], clock)

def token (f : Family) (i : Nat) : Token := (f.draw (i + 1)).1.getD i default

/-- One token is the other, or was drawn as a child of one that descends from the other. -/
inductive Descends (f : Family) : Nat → Nat → Prop where
  | refl (i : Nat) : Descends f i i
  | up {i p j : Nat} (child : f.parent? i = some p) (rest : Descends f p j) : Descends f i j

/-! ## Drawing -/

@[simp] theorem length_draw (f : Family) (n : Nat) : (f.draw n).1.length = n := by
  induction n with
  | zero => rfl
  | succ n ih => simp [draw, ih]

@[simp] theorem fresh_draw (f : Family) (n : Nat) : (f.draw n).2.fresh = n := by
  induction n with
  | zero => rfl
  | succ n ih =>
      dsimp only [draw, drawNext]
      split
      · exact congrArg (· + 1) ih
      · exact congrArg (· + 1) ih

theorem token_eq (f : Family) (i : Nat) :
    f.token i = (drawNext (f.draw i).1 (f.draw i).2 (f.parent? i)).1 := by
  rw [token, draw, List.getD_eq_getElem?_getD, List.getElem?_append_right (by simp)]
  simp

/-- Tokens that are drawn later do not change the earlier ones. -/
theorem getElem?_draw (drawn : i < n) : (f.draw n).1[i]? = some (f.token i) := by
  induction n with
  | zero => exact absurd drawn (Nat.not_lt_zero i)
  | succ n ih =>
      rw [draw]
      rcases Nat.lt_succ_iff_lt_or_eq.1 drawn with earlier | rfl
      · rw [List.getElem?_append_left (by simpa using earlier), ih earlier]
      · rw [List.getElem?_append_right (by simp), token_eq]
        simp

/-- A token is cancelled with itself and with whatever its parent is cancelled with. -/
theorem lineage_token (f : Family) (i : Nat) : (f.token i).lineage =
    i :: (f.parent? i).elim [] fun p => (f.token p).lineage := by
  rw [token_eq]
  unfold drawNext
  cases parent : f.parent? i with
  | none =>
      show [(f.draw i).2.fresh] = _
      rw [fresh_draw]
      rfl
  | some p =>
      rw [Option.bind_some, getElem?_draw (f.older parent)]
      show (f.draw i).2.fresh :: _ = _
      rw [fresh_draw]
      rfl

/-! ## Descent -/

theorem Descends.le (h : f.Descends i j) : j ≤ i := by
  induction h with
  | refl i => exact Nat.le_refl i
  | up child _ ih => exact Nat.le_trans ih (Nat.le_of_lt (f.older child))

theorem mem_lineage (f : Family) (i j : Nat) : j ∈ (f.token i).lineage ↔ f.Descends i j := by
  induction i using Nat.strongRecOn with
  | ind i ih =>
      rw [lineage_token, List.mem_cons]
      cases parent : f.parent? i with
      | none =>
          refine ⟨fun own => ?_, fun descends => ?_⟩
          · rcases own with rfl | there
            · exact .refl _
            · exact nomatch there
          · cases descends with
            | refl => exact .inl rfl
            | up child _ => exact nomatch parent.symm.trans child
      | some p =>
          refine ⟨fun own => ?_, fun descends => ?_⟩
          · rcases own with rfl | there
            · exact .refl _
            · exact .up parent ((ih p (f.older parent)).1 there)
          · cases descends with
            | refl => exact .inl rfl
            | up child rest =>
                cases parent.symm.trans child
                exact .inr ((ih p (f.older parent)).2 rest)

theorem not_descends_of_parent (child : f.parent? j = some p) : ¬f.Descends p j :=
  fun descends => Nat.not_lt.2 descends.le (f.older child)

/-- A child of the same parent descends from the parent and not from the other child. -/
theorem not_descends_of_sibling (child : f.parent? j = some p) (other : f.parent? i = some p)
    (apart : i ≠ j) : ¬f.Descends i j := by
  intro descends
  cases descends with
  | refl => exact apart rfl
  | up child' rest =>
      cases other.symm.trans child'
      exact not_descends_of_parent child rest

/-! ## Cancelling -/

/-- What is cancelled with a token is what descends from it. -/
theorem isCancelled_cancel (f : Family) (c : Clock) (i j : Nat) :
    (c.cancel (f.token j)).isCancelled (f.token i) = true ↔
      f.Descends i j ∨ c.isCancelled (f.token i) = true := by
  have reach (d : Clock) :
      d.isCancelled (f.token i) = true ↔ ∃ k ∈ d.cancelled, f.Descends i k := by
    simp only [Clock.isCancelled, List.any_eq_true, mem_lineage, List.contains_iff_mem]
    exact exists_congr fun k => And.comm
  have own : (c.cancel (f.token j)).cancelled = j :: c.cancelled := by
    unfold Clock.cancel
    rw [lineage_token]
  rw [reach, reach, own]
  simp only [List.mem_cons, exists_eq_or_imp]

/-- A token that does not descend from a cancelled one is as it was. -/
theorem isCancelled_cancel_of_not (c : Clock) (apart : ¬f.Descends i j) :
    (c.cancel (f.token j)).isCancelled (f.token i) = c.isCancelled (f.token i) := by
  rw [Bool.eq_iff_iff, isCancelled_cancel]
  exact or_iff_right apart

end Family
end TemplateCache
