/-!
# Maps by text key

A map holds its entries in ascending order of their keys, so two maps are equal exactly when they
answer every key alike. `get?` is the view: one lemma per operation says what it does to it.
-/

namespace TemplateCache

structure KeyMap (α : Type) where
  entries : List (String × α)
  ascending : entries.Pairwise fun a b => a.1 < b.1

namespace KeyMap

variable {α β : Type}

/-! ## Sorted entries -/

def insertEntry (key : String) (value : α) : List (String × α) → List (String × α)
  | [] => [(key, value)]
  | e :: rest =>
    if key < e.1 then (key, value) :: e :: rest
    else if key = e.1 then (key, value) :: rest
    else e :: insertEntry key value rest

theorem mem_insertEntry {key : String} {value : α} {x : String × α} :
    ∀ {l : List (String × α)}, x ∈ insertEntry key value l → x = (key, value) ∨ x ∈ l
  | [], h => by simpa [insertEntry] using h
  | e :: rest, h => by
    unfold insertEntry at h
    split at h
    · simpa using h
    · split at h
      · simp only [List.mem_cons] at h ⊢
        exact h.imp id Or.inr
      · simp only [List.mem_cons] at h ⊢
        rcases h with h | h
        · exact Or.inr (Or.inl h)
        · exact (mem_insertEntry h).imp id Or.inr

theorem pairwise_insertEntry (key : String) (value : α) :
    ∀ {l : List (String × α)}, l.Pairwise (fun a b => a.1 < b.1) →
      (insertEntry key value l).Pairwise fun a b => a.1 < b.1
  | [], _ => by simp [insertEntry]
  | e :: rest, h => by
    have ⟨above, tail⟩ := List.pairwise_cons.1 h
    unfold insertEntry
    split
    · rename_i below
      refine List.pairwise_cons.2 ⟨fun x hx => ?_, h⟩
      rcases List.mem_cons.1 hx with rfl | hx
      · exact below
      · exact String.lt_trans below (above x hx)
    · split
      · rename_i same
        exact List.pairwise_cons.2 ⟨fun x hx => by simpa [same] using above x hx, tail⟩
      · rename_i notBelow notSame
        refine List.pairwise_cons.2 ⟨fun x hx => ?_, pairwise_insertEntry key value tail⟩
        rcases mem_insertEntry hx with rfl | hx
        · exact Std.lt_of_le_of_ne notBelow (Ne.symm notSame)
        · exact above x hx

/-! ## Operations -/

def empty : KeyMap α := ⟨[], .nil⟩

instance : EmptyCollection (KeyMap α) := ⟨empty⟩

instance : Inhabited (KeyMap α) := ⟨empty⟩

def get? (m : KeyMap α) (key : String) : Option α := m.entries.lookup key

def contains (m : KeyMap α) (key : String) : Bool := (m.get? key).isSome

/-- Puts a value under a key, in place of an earlier one. -/
def insert (m : KeyMap α) (key : String) (value : α) : KeyMap α :=
  ⟨insertEntry key value m.entries, pairwise_insertEntry key value m.ascending⟩

/-- Keeps the entries that pass a test. -/
def filter (m : KeyMap α) (keep : String → α → Bool) : KeyMap α :=
  ⟨m.entries.filter fun e => keep e.1 e.2, m.ascending.filter _⟩

def erase (m : KeyMap α) (key : String) : KeyMap α := m.filter fun k _ => k != key

/-- Inserts pairs in turn; of pairs with one key the last counts. -/
def ofPairs (pairs : List (String × α)) : KeyMap α :=
  pairs.foldl (fun m p => m.insert p.1 p.2) empty

def keys (m : KeyMap α) : List String := m.entries.map (·.1)

def values (m : KeyMap α) : List α := m.entries.map (·.2)

def size (m : KeyMap α) : Nat := m.entries.length

def isEmpty (m : KeyMap α) : Bool := m.entries.isEmpty

instance [DecidableEq α] : DecidableEq (KeyMap α) := fun m n =>
  match decEq m.entries n.entries with
  | isTrue h => isTrue (by cases m; cases n; cases h; rfl)
  | isFalse h => isFalse fun e => h (by rw [e])

/-! ## The view -/

theorem lookup_cons_of_ne {k n : String} (v : α) (rest : List (String × α)) (h : k ≠ n) :
    ((n, v) :: rest).lookup k = rest.lookup k := by
  simp [List.lookup_cons, beq_eq_false_iff_ne.2 h]

theorem lookup_eq_none_of_lt {key : String} :
    ∀ {l : List (String × α)}, (∀ x ∈ l, key < x.1) → l.lookup key = none
  | [], _ => rfl
  | (n, v) :: rest, h => by
    have : key ≠ n := fun eq => String.lt_irrefl key (by simpa [← eq] using h (n, v) (by simp))
    rw [lookup_cons_of_ne v rest this]
    exact lookup_eq_none_of_lt fun x hx => h x (List.mem_cons_of_mem _ hx)

theorem lookup_insertEntry (key k : String) (value : α) :
    ∀ l : List (String × α),
      (insertEntry key value l).lookup k = if k = key then some value else l.lookup k
  | [] => by
    by_cases h : k = key
    · simp [insertEntry, h]
    · simp [insertEntry, h, lookup_cons_of_ne]
  | (n, v) :: rest => by
    unfold insertEntry
    split
    · by_cases h : k = key
      · simp [h]
      · simp [h, lookup_cons_of_ne]
    · split
      · rename_i same
        by_cases h : k = key
        · simp [h]
        · have : k ≠ n := fun eq => h (eq.trans same.symm)
          simp [h, lookup_cons_of_ne, this]
      · rename_i notSame
        by_cases h : k = n
        · have : k ≠ key := fun eq => notSame (eq.symm.trans h)
          simp [h, Ne.symm notSame]
        · simp [lookup_cons_of_ne, h, lookup_insertEntry key k value rest]

@[simp] theorem get?_empty (k : String) : (empty : KeyMap α).get? k = none := rfl

@[simp] theorem get?_insert (m : KeyMap α) (key k : String) (value : α) :
    (m.insert key value).get? k = if k = key then some value else m.get? k :=
  lookup_insertEntry key k value m.entries

theorem lookup_filter (keep : String → α → Bool) (k : String) :
    ∀ {l : List (String × α)}, l.Pairwise (fun a b => a.1 < b.1) →
      (l.filter fun e => keep e.1 e.2).lookup k = (l.lookup k).filter (keep k)
  | [], _ => rfl
  | (n, v) :: rest, h => by
    have ⟨above, tail⟩ := List.pairwise_cons.1 h
    have ih := lookup_filter keep k tail
    by_cases same : k = n
    · subst same
      have : rest.lookup k = none := lookup_eq_none_of_lt above
      by_cases keeps : keep k v
      · simp [keeps, Option.filter]
      · simp [keeps, ih, this, Option.filter]
    · by_cases keeps : keep n v
      · simp [keeps, lookup_cons_of_ne, same, ih]
      · simp [keeps, lookup_cons_of_ne, same, ih]

@[simp] theorem get?_filter (m : KeyMap α) (keep : String → α → Bool) (k : String) :
    (m.filter keep).get? k = (m.get? k).filter (keep k) :=
  lookup_filter keep k m.ascending

@[simp] theorem get?_erase (m : KeyMap α) (key k : String) :
    (m.erase key).get? k = if k = key then none else m.get? k := by
  rw [erase, get?_filter]
  by_cases h : k = key
  · cases m.get? k <;> simp [h, Option.filter]
  · cases m.get? k <;> simp [h, Option.filter]

end KeyMap
end TemplateCache
