import TemplateCache.Proofs.Json.Text
import TemplateCache.Text.Find
import TemplateCache.Url.Host

/-!
# Forms

A form can be read: its fields are between ampersands, each with one equals sign, and a name or a
value is what percent decoding makes of it when plus signs are spaces again. Reading what the form
encoding has written gives the pairs back, so different lists of pairs have different forms.
-/

namespace TemplateCache.Text

/-! ## Reading -/

/-- The byte that a character of a form is. -/
def formCharByte (c : Char) : UInt8 := if c = '+' then 0x20 else c.toNat.toUInt8

/-- The text that a name or a value stands for. -/
def readFormText? (chars : List Char) : Option String :=
  String.fromUTF8? ⟨(Url.percentDecode (chars.map formCharByte)).toArray⟩

def readFormPair? (field : List Char) : Option (String × String) :=
  match splitOn '=' field with
  | [name, value] => (readFormText? name).bind fun n => (readFormText? value).map fun v => (n, v)
  | _ => none

/-- The pairs of a form. Fields that are none are left out. -/
def readForm (chars : List Char) : List (String × String) :=
  (splitOn '&' chars).filterMap readFormPair?

/-! ## Names and values -/

variable {b : UInt8} {s : String} {c : Char}

theorem upperHexDigit_spec : ∀ n < 16, hexValue? (upperHexDigit n) = some n ∧
    Char.ofNat (formCharByte (upperHexDigit n)).toNat = upperHexDigit n ∧
      upperHexDigit n ∉ ['=', '&'] := by
  decide

/-- A byte that a form keeps is a letter, a digit or one of four signs. -/
theorem keptByte_spec : ∀ n < 256, isFormKept (UInt8.ofNat n) = true →
    formCharByte (Char.ofNat n) = UInt8.ofNat n ∧ UInt8.ofNat n ≠ 0x25 ∧
      Char.ofNat n ∉ ['=', '&'] := by
  decide +kernel

theorem kept_spec (kept : isFormKept b = true) : formCharByte (Char.ofNat b.toNat) = b ∧
    b ≠ 0x25 ∧ Char.ofNat b.toNat ∉ ['=', '&'] := by
  have spec := keptByte_spec b.toNat (UInt8.toNat_lt b)
  rw [UInt8.ofNat_toNat] at spec
  exact spec kept

theorem percentDecode_cons {rest : List UInt8} (other : b ≠ 0x25) :
    Url.percentDecode (b :: rest) = b :: Url.percentDecode rest := by
  rw [Url.percentDecode.eq_def]
  split
  · rename_i same
    exact absurd (List.cons.inj same).1 other
  · rename_i same
    obtain ⟨rfl, rfl⟩ := List.cons.inj same
    rfl
  · rename_i same
    cases same

/-- What is read of an encoded byte is the byte. -/
theorem percentDecode_formByte (b : UInt8) (rest : List UInt8) :
    Url.percentDecode ((formByte b).map formCharByte ++ rest) = b :: Url.percentDecode rest := by
  unfold formByte
  split
  · rename_i space
    rw [eq_of_beq space]
    exact percentDecode_cons (by decide)
  · split
    · rename_i kept
      obtain ⟨same, other, -⟩ := kept_spec kept
      rw [List.map_singleton, same]
      exact percentDecode_cons other
    · have small := UInt8.toNat_lt b
      obtain ⟨high, high', -⟩ := upperHexDigit_spec (b.toNat / 16) (by omega)
      obtain ⟨low, low', -⟩ := upperHexDigit_spec (b.toNat % 16) (by omega)
      have whole : (b.toNat / 16 * 16 + b.toNat % 16).toUInt8 = b := by
        rw [Nat.div_add_mod']
        exact UInt8.ofNat_toNat
      show Url.percentDecode (0x25 :: _ :: _ :: rest) = _
      rw [Url.percentDecode, high', low', high, low]
      dsimp only
      rw [whole]

theorem readFormText_formEncode (s : String) : readFormText? (formEncode s) = some s := by
  have decoded (bytes : List UInt8) :
      Url.percentDecode ((bytes.flatMap formByte).map formCharByte) = bytes := by
    induction bytes with
    | nil => rfl
    | cons b rest ih => rw [List.flatMap_cons, List.map_append, percentDecode_formByte, ih]
  unfold readFormText? formEncode
  rw [decoded]
  exact ofBytes_bytes s

/-- Encoded names and values have neither of the separators. -/
theorem formEncode_clean (there : c ∈ formEncode s) : c ∉ ['=', '&'] := by
  obtain ⟨b, -, there⟩ := List.mem_flatMap.1 there
  unfold formByte at there
  split at there
  · rw [List.mem_singleton.1 there]
    decide
  · split at there
    · rw [List.mem_singleton.1 there]
      exact (kept_spec ‹_›).2.2
    · have small := UInt8.toNat_lt b
      rcases List.mem_cons.1 there with rfl | there
      · decide
      · rcases List.mem_cons.1 there with rfl | there
        · exact (upperHexDigit_spec _ (by omega)).2.2
        · rw [List.mem_singleton.1 there]
          exact (upperHexDigit_spec _ (by omega)).2.2

/-! ## Pairs -/

theorem equals_not_mem (s : String) : '=' ∉ formEncode s := fun there =>
  formEncode_clean there List.mem_cons_self

theorem ampersand_not_mem (pair : String × String) : '&' ∉ formPair pair := by
  have clean (s : String) : '&' ∉ formEncode s := fun there =>
    formEncode_clean there (List.mem_cons_of_mem _ List.mem_cons_self)
  unfold formPair
  rw [List.mem_append, List.mem_cons]
  rintro (there | equals | there)
  · exact clean _ there
  · cases equals
  · exact clean _ there

theorem readFormPair_formPair (pair : String × String) :
    readFormPair? (formPair pair) = some pair := by
  unfold readFormPair? formPair
  rw [splitOn_cut _ (equals_not_mem _), splitOn_whole (equals_not_mem _)]
  dsimp only
  rw [readFormText_formEncode, readFormText_formEncode]
  rfl

/-- The pairs that are written are those that are read. -/
theorem readForm_formPairs (pairs : List (String × String)) :
    readForm (formPairs pairs) = pairs := by
  unfold readForm
  fun_induction formPairs pairs with
  | case1 => rfl
  | case2 pair =>
      rw [splitOn_whole (ampersand_not_mem pair), List.filterMap_cons, readFormPair_formPair]
      rfl
  | case3 pair rest many ih =>
      rw [splitOn_cut _ (ampersand_not_mem pair), List.filterMap_cons, readFormPair_formPair, ih]

theorem formPairs_injective : Function.Injective formPairs :=
  Function.LeftInverse.injective readForm_formPairs

end TemplateCache.Text
