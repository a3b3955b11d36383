import TemplateCache.Proofs.Json.Number

/-!
# Values that come back

The text of a value whose numbers are integers is read as the same value. Its text is scanned to a
tree, and the tree `Spells` the value; the fuel of the scanner is at least the length of what is
left. What is read is not restricted by the scanner but by the room for open containers, and by the
name that makes an object stand for an embedded document.
-/

namespace TemplateCache.Json

namespace Value

/-! ## What can be read -/

mutual

/-- A value of a document whose numbers are integers: they have 64 bits, and the members of an
object ascend by name. -/
def Whole : Value → Prop
  | .number (.int n) => Number.IsWord n
  | .number (.real _) => False
  | .array items => WholeItems items
  | .object members => members.Pairwise (·.1 < ·.1) ∧ WholeMembers members
  | _ => True

def WholeItems : List Value → Prop
  | [] => True
  | item :: rest => item.Whole ∧ WholeItems rest

def WholeMembers : List (String × Value) → Prop
  | [] => True
  | (_, value) :: rest => value.Whole ∧ WholeMembers rest

end

mutual

/-- Containers are nested no deeper than there is room, and no object is taken for an embedded
document. -/
def Fits : (room : Nat) → Value → Prop
  | 0, .array _ => False
  | 0, .object _ => False
  | room + 1, .array items => FitsItems room items
  | room + 1, .object members =>
    members.head?.map (·.1) ≠ some embeddedName ∧ FitsMembers room members
  | _, _ => True

def FitsItems (room : Nat) : List Value → Prop
  | [] => True
  | item :: rest => item.Fits room ∧ FitsItems room rest

def FitsMembers (room : Nat) : List (String × Value) → Prop
  | [] => True
  | (_, value) :: rest => value.Fits room ∧ FitsMembers room rest

end

end Value

open Value
open Text (bytes)

/-- Something begins here: no blank comes first, and no container closes. -/
def Tree.Opens (bytes : List UInt8) : Prop :=
  ∃ b more, bytes = b :: more ∧ Tree.isBlank b = false ∧ b ≠ 0x5d ∧ b ≠ 0x7d

/-- The text of a value is scanned to the tree, and the tree is read as the value. -/
structure Spells (v : Value) (t : Tree) : Prop where
  opens : Tree.Opens (bytes v.text)
  scans : ∀ {fuel rest}, (bytes v.text).length ≤ fuel + 1 → Tree.Closes rest →
    Tree.scanValue (fuel + 1) (bytes v.text ++ rest) = some (t, rest)
  means : ∀ {read room}, v.Fits room → ofTreeWith? read room t = some v

/-- A member of an object is scanned to a quoted name and a tree. -/
def SpellsMember (m : String × Value) (t : List Piece × Tree) : Prop :=
  t.1 = Tree.quoted m.1 ∧ Spells m.2 t.2

namespace Tree

variable {fuel : Nat} {rest : List UInt8} {v : Value} {t : Tree}

theorem Opens.append {bytes : List UInt8} (opens : Opens bytes) (rest : List UInt8) :
    Opens (bytes ++ rest) := by
  obtain ⟨b, more, rfl, other⟩ := opens
  exact ⟨b, more ++ rest, rfl, other⟩

theorem Opens.skipBlanks {bytes : List UInt8} (opens : Opens bytes) :
    skipBlanks bytes = bytes := by
  obtain ⟨b, more, rfl, seen, -⟩ := opens
  exact List.dropWhile_cons_of_neg (by rw [seen]; exact Bool.false_ne_true)

theorem Opens.length_pos {bytes : List UInt8} (opens : Opens bytes) : 0 < bytes.length := by
  obtain ⟨b, more, rfl, -⟩ := opens
  exact Nat.succ_pos _

end Tree

namespace Spells

open TemplateCache.Json.Tree

variable {fuel : Nat} {rest : List UInt8} {v : Value} {t : Tree}

/-- A value is scanned with as much fuel as its text is long. -/
theorem scan (h : Spells v t) (enough : (bytes v.text).length ≤ fuel) (closes : Closes rest) :
    scanValue fuel (bytes v.text ++ rest) = some (t, rest) := by
  have positive := h.opens.length_pos
  obtain ⟨fuel, rfl⟩ := Nat.exists_eq_add_of_le' (Nat.le_trans positive enough)
  exact h.scans enough closes

theorem null : Spells .null .null where
  opens := ⟨0x6e, [0x75, 0x6c, 0x6c], (Text.bytes_eq "null").trans rfl, by decide⟩
  scans {fuel rest} _ _ := by
    have text : bytes (text .null) = [0x6e, 0x75, 0x6c, 0x6c] := (Text.bytes_eq "null").trans rfl
    rw [text, scanValue]
    rfl
  means _ := rfl

theorem bool (b : Bool) : Spells (.bool b) (.bool b) where
  opens := by
    cases b with
    | true => exact ⟨0x74, [0x72, 0x75, 0x65], (Text.bytes_eq "true").trans rfl, by decide⟩
    | false =>
        exact ⟨0x66, [0x61, 0x6c, 0x73, 0x65], (Text.bytes_eq "false").trans rfl, by decide⟩
  scans {fuel rest} _ _ := by
    cases b with
    | true =>
        have text : bytes (text (.bool true)) = [0x74, 0x72, 0x75, 0x65] :=
          (Text.bytes_eq "true").trans rfl
        rw [text, scanValue]
        rfl
    | false =>
        have text : bytes (text (.bool false)) = [0x66, 0x61, 0x6c, 0x73, 0x65] :=
          (Text.bytes_eq "false").trans rfl
        rw [text, scanValue]
        rfl
  means _ := rfl

theorem string (s : String) : Spells (.string s) (.text (quoted s)) where
  opens := by
    obtain ⟨inside, text, -⟩ := scanText_quote s []
    exact ⟨0x22, inside, text, by decide⟩
  scans {fuel rest} _ _ := by
    obtain ⟨inside, text, scanned⟩ := scanText_quote s rest
    replace text : bytes (Value.string s).text = 0x22 :: inside := text
    rw [text, List.cons_append, scanValue]
    show (scanText (inside ++ rest)).bind _ = _
    rw [scanned]
    rfl
  means _ := by
    unfold ofTreeWith?
    rw [string?_quoted]
    rfl

theorem int {n : Int} (word : Number.IsWord n) :
    Spells (.number (.int n)) (.number (Number.literal n)) where
  opens := by
    obtain ⟨b, more, text, first⟩ := opens_number n
    have unlike := not_mem_of_number first
    simp only [List.mem_cons, List.not_mem_nil, or_false, not_or] at unlike
    refine ⟨b, more, text, ?_⟩
    unfold isBlank
    simp [unlike]
  scans {fuel rest} _ closes := by
    obtain ⟨b, more, text, first⟩ := opens_number n
    have unlike := not_mem_of_number first
    simp only [List.mem_cons, List.not_mem_nil, or_false, not_or] at unlike
    have blank : isBlank b = false := by
      unfold isBlank
      simp [unlike]
    have scanned := scanNumber_text n closes
    rw [text, List.cons_append] at scanned
    replace text : bytes (Value.number (.int n)).text = b :: more := text
    have skipped : skipBlanks (b :: (more ++ rest)) = b :: (more ++ rest) :=
      List.dropWhile_cons_of_neg (by rw [blank]; exact Bool.false_ne_true)
    rw [text, List.cons_append, scanValue, skipped]
    simp only [beq_iff_eq, unlike, if_false, scanned]
    rfl
  means _ := by
    unfold ofTreeWith?
    rw [Number.value?_literal word]
    rfl

variable {items : List Value} {ts : List Tree} {fuel : Nat} {rest : List UInt8}

theorem bytes_array (items : List Value) :
    bytes (Value.array items).text = 0x5b :: (bytes (textItems items) ++ [0x5d]) := by
  show bytes ("[" ++ textItems items ++ "]") = _
  rw [Text.bytes_append, Text.bytes_append, Text.bytes_eq "[", Text.bytes_eq "]"]
  rfl

theorem opens_items (spelled : List.Forall₂ Spells items ts) (some : items ≠ []) :
    Opens (bytes (textItems items)) := by
  cases spelled with
  | nil => exact absurd rfl some
  | cons first others =>
      cases others with
      | nil => exact first.opens
      | cons second others =>
          show Opens (bytes (_ ++ "," ++ _))
          rw [Text.bytes_append, Text.bytes_append, List.append_assoc]
          exact first.opens.append _

theorem scanItems_text (spelled : List.Forall₂ Spells items ts) (some : items ≠ [])
    (enough : (bytes (textItems items)).length < fuel) :
    scanItems fuel (bytes (textItems items) ++ 0x5d :: rest) = Option.some (ts, rest) := by
  induction spelled generalizing fuel with
  | nil => exact absurd rfl some
  | @cons item t items ts first others ih =>
      obtain ⟨fuel, rfl⟩ := Nat.exists_eq_add_of_le' (Nat.zero_lt_of_lt enough)
      cases others with
      | nil =>
          have scanned : scanValue fuel (bytes item.text ++ 0x5d :: rest) =
              Option.some (t, 0x5d :: rest) :=
            first.scan (Nat.le_of_lt_succ enough) (by simp [Closes])
          rw [scanItems]
          show (scanValue fuel (bytes item.text ++ 0x5d :: rest)).bind _ = _
          rw [scanned]
          rfl
      | @cons next u items ts second others =>
          have text : bytes (textItems (item :: next :: items)) =
              bytes item.text ++ 0x2c :: bytes (textItems (next :: items)) := by
            show bytes (_ ++ "," ++ _) = _
            rw [Text.bytes_append, Text.bytes_append, List.append_assoc, Text.bytes_eq ","]
            rfl
          rw [text, List.length_append, List.length_cons] at enough
          have closes : Closes (0x2c :: (bytes (textItems (next :: items)) ++ 0x5d :: rest)) := by
            simp [Closes]
          have shorter : (bytes item.text).length ≤ fuel := by omega
          have later : scanItems fuel (bytes (textItems (next :: items)) ++ 0x5d :: rest) =
              Option.some (u :: ts, rest) := ih (List.cons_ne_nil _ _) (by omega)
          rw [text, scanItems, List.append_assoc, List.cons_append, first.scan shorter closes]
          show (scanItems fuel _).bind _ = _
          rw [later]
          rfl

theorem ofItems?_spelled {read : String → Option Value} {room : Nat}
    (spelled : List.Forall₂ Spells items ts) (fits : FitsItems room items) :
    ofItems? read room ts = some items := by
  induction spelled with
  | nil => rfl
  | cons first others ih =>
      rw [ofItems?, first.means fits.1, ih fits.2]
      rfl

theorem scanValue_bracket (fuel : Nat) (more : List UInt8) :
    scanValue (fuel + 1) (0x5b :: more) =
      match skipBlanks more with
      | 0x5d :: after => some (.array [], after)
      | more => (scanItems fuel more).bind fun (items, after) => some (.array items, after) := by
  rw [scanValue]
  rfl

theorem array (spelled : List.Forall₂ Spells items ts) : Spells (.array items) (.array ts) where
  opens := by
    rw [bytes_array]
    exact ⟨_, _, rfl, by decide⟩
  scans {fuel rest} enough _ := by
    rw [bytes_array] at enough ⊢
    rw [List.length_cons, List.length_append, List.length_singleton] at enough
    rw [List.cons_append, List.append_assoc, List.singleton_append, scanValue_bracket]
    by_cases empty : items = []
    · subst empty
      cases spelled
      have blank : bytes (textItems []) = [] := (Text.bytes_eq "").trans rfl
      rw [blank]
      rfl
    · have opens := (opens_items spelled empty).append (0x5d :: rest)
      have scanned : scanItems fuel (bytes (textItems items) ++ 0x5d :: rest) = some (ts, rest) :=
        scanItems_text spelled empty (by omega)
      rw [opens.skipBlanks]
      split
      · rename_i closed
        obtain ⟨b, more, text, -, inside, -⟩ := opens
        rw [text, List.cons.injEq] at closed
        exact absurd closed.1 inside
      · rw [scanned]
        rfl
  means {read room} fits := by
    cases room with
    | zero => exact fits.elim
    | succ room =>
        rw [ofTreeWith?]
        show (ofItems? read room ts).map _ = _
        rw [ofItems?_spelled spelled fits]
        rfl

/-! ### Objects -/

variable {members : List (String × Value)} {tms : List (List Piece × Tree)}

theorem bytes_object (members : List (String × Value)) :
    bytes (Value.object members).text = 0x7b :: (bytes (textMembers members) ++ [0x7d]) := by
  show bytes ("\x7b" ++ textMembers members ++ "\x7d") = _
  rw [Text.bytes_append, Text.bytes_append, Text.bytes_eq "\x7b", Text.bytes_eq "\x7d"]
  rfl

theorem bytes_member (name : String) (v : Value) :
    bytes (textMembers [(name, v)]) = bytes (quote name) ++ 0x3a :: bytes v.text := by
  show bytes (quote name ++ ":" ++ v.text) = _
  rw [Text.bytes_append, Text.bytes_append, List.append_assoc, Text.bytes_eq ":"]
  rfl

theorem bytes_members (m next : String × Value) (members : List (String × Value)) :
    bytes (textMembers (m :: next :: members)) =
      bytes (quote m.1) ++
        0x3a :: (bytes m.2.text ++ 0x2c :: bytes (textMembers (next :: members))) := by
  show bytes (quote m.1 ++ ":" ++ m.2.text ++ "," ++ textMembers (next :: members)) = _
  simp only [Text.bytes_append, List.append_assoc]
  rw [Text.bytes_eq ":", Text.bytes_eq ","]
  rfl

/-- One member is scanned up to the comma or the brace behind it. -/
theorem scanMembers_member {m : String × Value} {t : List Piece × Tree} {after : List UInt8}
    (spelled : SpellsMember m t) (enough : (bytes m.2.text).length ≤ fuel)
    (closes : Closes after) :
    scanMembers (fuel + 1) (bytes (quote m.1) ++ 0x3a :: (bytes m.2.text ++ after)) =
      match skipBlanks after with
      | 0x2c :: more => (scanMembers fuel more).bind fun (members, rest) =>
        some (t :: members, rest)
      | 0x7d :: rest => some ([t], rest)
      | _ => none := by
  obtain ⟨name, v⟩ := m
  obtain ⟨body, t⟩ := t
  obtain ⟨rfl, spelled⟩ := spelled
  obtain ⟨inside, quoted, named⟩ := scanText_quote name (0x3a :: (bytes v.text ++ after))
  have valued := spelled.scan enough closes
  rw [quoted, List.cons_append, scanMembers]
  show (scanText (inside ++ 0x3a :: (bytes v.text ++ after))).bind _ = _
  rw [named]
  show (scanValue fuel (bytes v.text ++ after)).bind _ = _
  rw [valued]
  rfl

theorem scanMembers_text (spelled : List.Forall₂ SpellsMember members tms)
    (some : members ≠ []) (enough : (bytes (textMembers members)).length < fuel) :
    scanMembers fuel (bytes (textMembers members) ++ 0x7d :: rest) = Option.some (tms, rest) := by
  induction spelled generalizing fuel with
  | nil => exact absurd rfl some
  | @cons m t members tms first others ih =>
      obtain ⟨fuel, rfl⟩ := Nat.exists_eq_add_of_le' (Nat.zero_lt_of_lt enough)
      cases others with
      | nil =>
          rw [bytes_member, List.length_append, List.length_cons] at enough
          rw [bytes_member, List.append_assoc, List.cons_append]
          exact scanMembers_member first (by omega) (by simp [Closes])
      | @cons next u members tms second others =>
          rw [bytes_members, List.length_append, List.length_cons, List.length_append,
            List.length_cons] at enough
          have later : scanMembers fuel (bytes (textMembers (next :: members)) ++ 0x7d :: rest) =
              Option.some (u :: tms, rest) := ih (List.cons_ne_nil _ _) (by omega)
          have closes : Closes
              (0x2c :: (bytes (textMembers (next :: members)) ++ 0x7d :: rest)) := by
            simp [Closes]
          rw [bytes_members]
          simp only [List.append_assoc, List.cons_append]
          refine (scanMembers_member first (by omega) closes).trans ?_
          show (scanMembers fuel (bytes (textMembers (next :: members)) ++ 0x7d :: rest)).bind _ = _
          rw [later]
          rfl

theorem opens_members (some : members ≠ []) : Opens (bytes (textMembers members)) := by
  obtain ⟨m, others, rfl⟩ := List.exists_cons_of_ne_nil some
  obtain ⟨inside, quoted, -⟩ := scanText_quote m.1 []
  have opens : Opens (bytes (quote m.1)) := ⟨0x22, inside, quoted, by decide⟩
  cases others with
  | nil =>
      rw [bytes_member]
      exact opens.append _
  | cons next members =>
      rw [bytes_members]
      exact opens.append _

theorem scanValue_brace (fuel : Nat) (more : List UInt8) :
    scanValue (fuel + 1) (0x7b :: more) =
      match skipBlanks more with
      | 0x7d :: after => some (.object [], after)
      | more =>
        (scanMembers fuel more).bind fun (members, after) => some (.object members, after) := by
  rw [scanValue]
  rfl

/-- The order of the members makes no difference to the scanner. -/
theorem scanValue_object (spelled : List.Forall₂ SpellsMember members tms)
    (enough : (bytes (Value.object members).text).length ≤ fuel + 1) :
    scanValue (fuel + 1) (bytes (Value.object members).text ++ rest) =
      some (.object tms, rest) := by
  rw [bytes_object] at enough ⊢
  rw [List.length_cons, List.length_append, List.length_singleton] at enough
  rw [List.cons_append, List.append_assoc, List.singleton_append, scanValue_brace]
  by_cases empty : members = []
  · subst empty
    cases spelled
    have blank : bytes (textMembers []) = [] := (Text.bytes_eq "").trans rfl
    rw [blank]
    rfl
  · have opens := (opens_members empty).append (0x7d :: rest)
    have scanned : scanMembers fuel (bytes (textMembers members) ++ 0x7d :: rest) =
        some (tms, rest) := scanMembers_text spelled empty (by omega)
    rw [opens.skipBlanks]
    split
    · rename_i closed
      obtain ⟨b, more, text, -, -, inside⟩ := opens
      rw [text, List.cons.injEq] at closed
      exact absurd closed.1 inside
    · rw [scanned]
      rfl

theorem insertMember_last {α : Type} {name : String} {value : α} {done : List (String × α)}
    (last : ∀ m ∈ done, m.1 < name) : insertMember name value done = done ++ [(name, value)] := by
  induction done with
  | nil => rfl
  | cons m more ih =>
      obtain ⟨below, others⟩ := List.forall_mem_cons.1 last
      rw [insertMember, if_neg fun above => Std.lt_irrefl (Std.lt_trans below above),
        if_neg (Std.ne_of_lt below).symm, ih others]
      rfl

/-- Members that ascend are read in their order. -/
theorem ofMembers?_spelled {read : String → Option Value} {room : Nat}
    {done : List (String × Value)} (spelled : List.Forall₂ SpellsMember members tms)
    (fits : FitsMembers room members) (ascending : (done ++ members).Pairwise (·.1 < ·.1)) :
    ofMembers? read room tms done = some (done ++ members) := by
  induction spelled generalizing done with
  | nil => rw [List.append_nil, ofMembers?]
  | @cons m t members tms first others ih =>
      obtain ⟨name, v⟩ := m
      obtain ⟨body, t⟩ := t
      obtain ⟨rfl, first⟩ := first
      have last : ∀ m ∈ done, m.1 < name := fun m there =>
        (List.pairwise_append.1 ascending).2.2 m there _ List.mem_cons_self
      have inserted : insertMember name v done = done ++ [(name, v)] := insertMember_last last
      have later : ofMembers? read room tms (done ++ [(name, v)]) =
          some (done ++ [(name, v)] ++ members) := ih fits.2 (by simpa using ascending)
      rw [ofMembers?, string?_quoted, first.means fits.1]
      show ofMembers? read room tms (insertMember name v done) = _
      rw [inserted, later]
      simp

theorem object (spelled : List.Forall₂ SpellsMember members tms)
    (ascending : members.Pairwise (·.1 < ·.1)) : Spells (.object members) (.object tms) where
  opens := by
    rw [bytes_object]
    exact ⟨_, _, rfl, by decide⟩
  scans enough _ := scanValue_object spelled enough
  means {read room} fits := by
    cases room with
    | zero => exact fits.elim
    | succ room =>
        obtain ⟨plain, fits⟩ := fits
        have own : isEmbedding tms = false := by
          cases spelled with
          | nil => rfl
          | cons first others =>
              rename_i m t _ _
              obtain ⟨name, v⟩ := m
              obtain ⟨body, t⟩ := t
              obtain ⟨rfl, first⟩ := first
              have other : name ≠ embeddedName := fun same => plain (congrArg some same)
              unfold isEmbedding
              simp [other]
        rw [ofTreeWith?, own]
        show (ofMembers? read room tms []).map _ = _
        have read : ofMembers? read room tms [] = some members :=
          ofMembers?_spelled spelled fits ascending
        rw [read]
        rfl

end Spells

/-! ## Reading back -/

mutual

theorem Value.Whole.spelled : ∀ {v : Value}, v.Whole → ∃ t, Spells v t
  | .null, _ => ⟨_, .null⟩
  | .bool b, _ => ⟨_, .bool b⟩
  | .number (.int _), word => ⟨_, .int word⟩
  | .number (.real _), real => real.elim
  | .string s, _ => ⟨_, .string s⟩
  | .array _, whole =>
    have ⟨_, spelled⟩ := wholeItems_spelled whole
    ⟨_, .array spelled⟩
  | .object _, ⟨ascending, whole⟩ =>
    have ⟨_, spelled⟩ := wholeMembers_spelled whole
    ⟨_, .object spelled ascending⟩

theorem wholeItems_spelled : ∀ {items : List Value}, WholeItems items →
    ∃ ts, List.Forall₂ Spells items ts
  | [], _ => ⟨_, .nil⟩
  | _ :: _, ⟨first, others⟩ =>
    have ⟨_, head⟩ := first.spelled
    have ⟨_, tail⟩ := wholeItems_spelled others
    ⟨_, .cons head tail⟩

theorem wholeMembers_spelled : ∀ {members : List (String × Value)}, WholeMembers members →
    ∃ ts, List.Forall₂ SpellsMember members ts
  | [], _ => ⟨_, .nil⟩
  | (name, _) :: _, ⟨first, others⟩ =>
    have ⟨t, head⟩ := first.spelled
    have ⟨ts, tail⟩ := wholeMembers_spelled others
    ⟨(Tree.quoted name, t) :: ts, .cons ⟨rfl, head⟩ tail⟩

end

theorem Tree.parse?_of_scan {bytes : List UInt8} {t : Tree}
    (scanned : ∀ fuel, bytes.length ≤ fuel + 1 →
      scanValue (fuel + 1) (bytes ++ []) = some (t, [])) : parse? bytes = some t := by
  have read := scanned (2 * bytes.length + 1) (by omega)
  rw [List.append_nil] at read
  unfold parse?
  rw [read]
  rfl

/-- A value that fits is read back from its text. -/
theorem Value.ofString?_text {v : Value} (whole : v.Whole) (fits : v.Fits depthLimit) :
    ofString? v.text = some v := by
  obtain ⟨t, spelled⟩ := whole.spelled
  have parsed : Tree.parse? (bytes v.text) = some t :=
    Tree.parse?_of_scan fun fuel enough => spelled.scans enough nofun
  show (Tree.parse? (bytes v.text)).bind _ = _
  rw [parsed]
  exact spelled.means fits

end TemplateCache.Json
