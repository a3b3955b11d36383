import Mathlib.Data.List.Basic
import TemplateCache.Proofs.Json.Text

/-!
# Numbers as text

The text of an integer is scanned to its digits, and their value is the integer again while it fits
64 bits.
-/

namespace TemplateCache.Json

namespace Literal

/-- The digits of a text. -/
def digits (chars : List Char) : List Nat := chars.map fun c => c.toNat - '0'.toNat

/-- Digits are taken while their value fits the word. -/
theorem extend_digits {chars : List Char} {front : Nat}
    (fits : Nat.ofDigitChars 10 chars front ≤ wordLimit) :
    extend front (digits chars) = (Nat.ofDigitChars 10 chars front, 0) := by
  induction chars generalizing front with
  | nil => rfl
  | cons c more ih =>
      rw [Nat.ofDigitChars_cons] at fits ⊢
      have next : front * 10 + (c.toNat - '0'.toNat) = 10 * front + (c.toNat - '0'.toNat) := by
        rw [Nat.mul_comm]
      have small : 10 * front + (c.toNat - '0'.toNat) ≤ wordLimit := by
        refine Nat.le_trans ?_ fits
        rw [Nat.ofDigitChars_eq_ofDigitChars_zero]
        exact Nat.le_trans (Nat.le_mul_of_pos_left _ (Nat.pow_pos (by decide)))
          (Nat.le_add_right _ _)
      rw [digits, List.map_cons, extend, next, if_neg (Nat.not_lt.2 small)]
      exact ih fits

theorem extend_toDigits {n : Nat} (fits : n ≤ wordLimit) :
    extend 0 (digits (Nat.toDigits 10 n)) = (n, 0) := by
  have value : Nat.ofDigitChars 10 (Nat.toDigits 10 n) 0 = n := Nat.ofDigitChars_ten_toDigits
  rw [extend_digits (value.symm ▸ fits), value]

end Literal

/-- The literal that an integer is written as. -/
def Number.literal (n : Int) : Literal :=
  ⟨n < 0, Literal.digits (Nat.toDigits 10 n.natAbs), none, none⟩

/-- An integer of 64 bits, with or without a sign. -/
def Number.IsWord (n : Int) : Prop := -(UInt64.size / 2 : Int) ≤ n ∧ n < UInt64.size

theorem Number.value?_literal {n : Int} (word : IsWord n) :
    (literal n).value? = some (.int n) := by
  obtain ⟨low, high⟩ := word
  have fits : n.natAbs ≤ Literal.wordLimit := by
    unfold Literal.wordLimit UInt64.size at *
    omega
  unfold literal Literal.value?
  rw [Literal.extend_toDigits fits]
  by_cases negative : n < 0
  · have small : ¬(n.natAbs = 0 ∨ UInt64.size / 2 < n.natAbs) := by
      unfold UInt64.size at *
      omega
    have same : -(n.natAbs : Int) = n := by omega
    rw [decide_eq_true negative]
    show (if n.natAbs = 0 ∨ UInt64.size / 2 < n.natAbs then Literal.real? true n.natAbs 0
      else some (.int (-(n.natAbs : Int)))) = _
    rw [if_neg small, same]
  · have same : (n.natAbs : Int) = n := by omega
    rw [decide_eq_false negative]
    show some (Number.int (n.natAbs : Int)) = _
    rw [same]

namespace Tree

variable {rest : List UInt8}

/-- What follows a value in a document: the end, a comma or a closing bracket or brace. -/
def Closes (rest : List UInt8) : Prop :=
  ∀ b ∈ rest.head?, b = 0x2c ∨ b = 0x5d ∨ b = 0x7d

/-- A positive number has no leading zero. -/
theorem head_toDigits {n : Nat} (positive : 0 < n) :
    ∃ c more, Nat.toDigits 10 n = c :: more ∧ c ≠ '0' := by
  induction n using Nat.strongRecOn with
  | ind n ih =>
      by_cases small : n < 10
      · have digit : ∀ n < 10, 0 < n → n.digitChar ≠ '0' := by decide
        exact ⟨n.digitChar, [], Nat.toDigits_of_lt_base small, digit n small positive⟩
      · obtain ⟨c, more, split, nonzero⟩ := ih (n / 10) (by omega) (by omega)
        rw [Nat.toDigits_of_base_le (by decide) (Nat.not_lt.1 small), split]
        exact ⟨c, _, rfl, nonzero⟩

theorem toDigits_cons (n : Nat) :
    ∃ c more, Nat.toDigits 10 n = c :: more ∧ (c = '0' → more = []) := by
  rcases Nat.eq_zero_or_pos n with rfl | positive
  · exact ⟨'0', [], Nat.toDigits_zero 10, fun _ => rfl⟩
  · obtain ⟨c, more, split, nonzero⟩ := head_toDigits positive
    exact ⟨c, more, split, fun zero => absurd zero nonzero⟩

/-- What closes a value is no digit, no point and no exponent. -/
theorem Closes.cases (closes : Closes rest) :
    rest = [] ∨ ∃ b more, rest = b :: more ∧ (b = 0x2c ∨ b = 0x5d ∨ b = 0x7d) := by
  cases rest with
  | nil => exact .inl rfl
  | cons b more => exact .inr ⟨b, more, rfl, closes b rfl⟩

theorem toNat_ofNat_digit {c : Char} (digit : c.isDigit = true) :
    (UInt8.ofNat c.toNat).toNat = c.toNat := by
  have byte : c.toNat < 256 :=
    Nat.lt_of_le_of_lt (Char.isDigit_iff_toNat.1 digit).2 (by decide)
  simpa using byte

theorem isDigit_ofNat {c : Char} (digit : c.isDigit = true) :
    isDigit (UInt8.ofNat c.toNat) = true := by
  unfold isDigit
  simp only [Bool.and_eq_true, decide_eq_true_eq, UInt8.le_iff_toNat_le, toNat_ofNat_digit digit]
  exact Char.isDigit_iff_toNat.1 digit

/-- Digits are scanned up to what closes the value. -/
theorem scanDigits_digits {chars : List Char} (ascii : ∀ c ∈ chars, c.isDigit = true)
    (closes : Closes rest) :
    scanDigits (chars.flatMap String.utf8EncodeChar ++ rest) = (Literal.digits chars, rest) := by
  induction chars with
  | nil =>
      obtain rfl | ⟨b, more, rfl, rfl | rfl | rfl⟩ := closes.cases
      all_goals rfl
  | cons c more ih =>
      obtain ⟨digit, others⟩ := List.forall_mem_cons.1 ascii
      have high := (Char.isDigit_iff_toNat.1 digit).2
      have inside := isDigit_ofNat digit
      have valued : digitValue (UInt8.ofNat c.toNat) = c.toNat - '0'.toNat := by
        unfold digitValue
        rw [toNat_ofNat_digit digit]
        rfl
      have rest := ih others
      unfold scanDigits at rest ⊢
      rw [Prod.mk.injEq] at rest
      have ascii : c.toNat ≤ 0x7f := Nat.le_trans high (by decide)
      rw [List.flatMap_cons, encode_ascii ascii, List.append_assoc, List.singleton_append,
        List.takeWhile_cons_of_pos inside, List.dropWhile_cons_of_pos inside, List.map_cons, rest.1,
        rest.2, valued]
      rfl

theorem isDigit_toDigits {n : Nat} {c : Char} (there : c ∈ Nat.toDigits 10 n) :
    c.isDigit = true :=
  Nat.isDigit_of_mem_toDigits (by decide) (Nat.le_refl 10) there

/-- Behind its sign, the text of an integer begins with a digit. -/
theorem opens_toDigits (n : Nat) :
    ∃ b more, (Nat.toDigits 10 n).flatMap String.utf8EncodeChar = b :: more ∧
      isDigit b = true := by
  obtain ⟨c, more, split, -⟩ := toDigits_cons n
  have digit : c.isDigit = true := isDigit_toDigits (n := n) (split ▸ List.mem_cons_self)
  have high := (Char.isDigit_iff_toNat.1 digit).2
  rw [split, List.flatMap_cons, encode_ascii (Nat.le_trans high (by decide))]
  exact ⟨_, _, rfl, isDigit_ofNat digit⟩

theorem digits_ne (n d : Nat) (ds : List Nat) :
    Literal.digits (Nat.toDigits 10 n) ≠ 0 :: d :: ds := by
  intro two
  obtain ⟨c, more, split, lone⟩ := toDigits_cons n
  have digit : c.isDigit = true := isDigit_toDigits (n := n) (split ▸ List.mem_cons_self)
  rw [split, Literal.digits, List.map_cons, List.cons.injEq] at two
  have zero : c = '0' := by
    have low := (Char.isDigit_iff_toNat.1 digit).1
    have same : c.toNat = '0'.toNat := Nat.le_antisymm (Nat.sub_eq_zero_iff_le.1 two.1) low
    exact Char.ext (UInt32.toNat_inj.1 same)
  rw [lone zero] at two
  exact nomatch two.2

/-- Reads a number literal behind its sign. -/
def scanUnsigned (negative : Bool) (unsigned : List UInt8) : Option (Literal × List UInt8) :=
  let (whole, rest) := scanDigits unsigned
  match whole with
  | [] => none
  | 0 :: _ :: _ => none
  | _ => do
    let (fraction, rest) ← scanFraction rest
    let (exponent, rest) ← scanExponent rest
    return (⟨negative, whole, fraction, exponent⟩, rest)

theorem scanNumber_minus (unsigned : List UInt8) :
    scanNumber (0x2d :: unsigned) = scanUnsigned true unsigned := rfl

theorem scanNumber_cons {b : UInt8} (unsigned : b ≠ 0x2d) (more : List UInt8) :
    scanNumber (b :: more) = scanUnsigned false (b :: more) := by
  unfold scanNumber
  split
  rename_i sign
  split at sign
  · rename_i same
    exact absurd (List.cons.inj same).1 unsigned
  · cases sign
    rfl
theorem scanUnsigned_digits {negative : Bool} {unsigned after : List UInt8} {whole : List Nat}
    (scanned : scanDigits unsigned = (whole, after)) (some : whole ≠ [])
    (lone : ∀ d ds, whole ≠ 0 :: d :: ds)
    (fraction : scanFraction after = Option.some (none, after))
    (exponent : scanExponent after = Option.some (none, after)) :
    scanUnsigned negative unsigned = Option.some (⟨negative, whole, none, none⟩, after) := by
  unfold scanUnsigned
  rw [scanned]
  dsimp only
  split
  · exact absurd rfl some
  · exact absurd rfl (lone _ _)
  · rw [fraction]
    simp [exponent]
theorem bytes_ofNat (m : Nat) : Text.bytes (toString (Int.ofNat m)) =
    (Nat.toDigits 10 m).flatMap String.utf8EncodeChar := by
  rw [← Text.bytes_ofList, ← Nat.toString_eq_ofList_toDigits]
  rfl

theorem bytes_negSucc (m : Nat) : Text.bytes (toString (Int.negSucc m)) =
    0x2d :: (Nat.toDigits 10 (m + 1)).flatMap String.utf8EncodeChar := by
  rw [← Text.bytes_ofList, ← Nat.toString_eq_ofList_toDigits]
  refine (Text.bytes_append "-" (toString (m + 1))).trans ?_
  rw [Text.bytes_eq "-"]
  rfl

/-- The text of an integer begins with its sign or with a digit. -/
theorem opens_number (n : Int) :
    ∃ b more, Text.bytes (toString n) = b :: more ∧ (b = 0x2d ∨ isDigit b = true) := by
  cases n with
  | ofNat m =>
      obtain ⟨b, more, opens, digit⟩ := opens_toDigits m
      exact ⟨b, more, (bytes_ofNat m).trans opens, .inr digit⟩
  | negSucc m => exact ⟨0x2d, _, bytes_negSucc m, .inl rfl⟩

/-- The text of an integer begins like no other value and is not blank. -/
theorem not_mem_of_number {b : UInt8} (first : b = 0x2d ∨ isDigit b = true) :
    b ∉ [0x20, 0x09, 0x0a, 0x0d, 0x22, 0x5b, 0x5d, 0x7b, 0x7d, 0x6e, 0x74, 0x66] := by
  intro there
  rcases first with rfl | digit
  · exact absurd there (by decide)
  · have outside : ([0x20, 0x09, 0x0a, 0x0d, 0x22, 0x5b, 0x5d, 0x7b, 0x7d, 0x6e, 0x74, 0x66] :
        List UInt8).all (fun x => !isDigit x) = true := by decide
    have unlike := List.all_eq_true.1 outside b there
    rw [digit] at unlike
    exact nomatch unlike

theorem scanNumber_text (n : Int) (closes : Closes rest) :
    scanNumber (Text.bytes (toString n) ++ rest) = some (Number.literal n, rest) := by
  have fraction : scanFraction rest = some (none, rest) := by
    obtain rfl | ⟨b, more, rfl, rfl | rfl | rfl⟩ := closes.cases
    all_goals rfl
  have exponent : scanExponent rest = some (none, rest) := by
    obtain rfl | ⟨b, more, rfl, rfl | rfl | rfl⟩ := closes.cases
    all_goals rfl
  have unsigned (negative : Bool) (m : Nat) :
      scanUnsigned negative ((Nat.toDigits 10 m).flatMap String.utf8EncodeChar ++ rest) =
        some (⟨negative, Literal.digits (Nat.toDigits 10 m), none, none⟩, rest) :=
    scanUnsigned_digits (scanDigits_digits (fun _ => isDigit_toDigits) closes)
      (by simp [Literal.digits, Nat.toDigits_ne_nil]) (digits_ne m) fraction exponent
  cases n with
  | ofNat m =>
      obtain ⟨b, more, opens, digit⟩ := opens_toDigits m
      have unlike : b ≠ 0x2d := by
        rintro rfl
        exact absurd digit (by decide)
      have scanned := unsigned false m
      rw [opens, List.cons_append] at scanned
      rw [bytes_ofNat, opens, List.cons_append, scanNumber_cons unlike]
      exact scanned
  | negSucc m =>
      have literal : Number.literal (Int.negSucc m) =
          ⟨true, Literal.digits (Nat.toDigits 10 (m + 1)), none, none⟩ := by
        unfold Number.literal
        rw [decide_eq_true (Int.negSucc_lt_zero m)]
        rfl
      rw [bytes_negSucc, List.cons_append, scanNumber_minus, literal]
      exact unsigned true (m + 1)

end Tree
end TemplateCache.Json
