import TemplateCache.Proofs.Naming.Params
import TemplateCache.Url.Basic

/-!
# What percent encoding tells apart

A percent sign is kept where other bytes are percent encoded, so a byte and its code have the same
encoding. Texts without codes of bytes that are to be encoded have different encodings, and so have
texts that encoding leaves as they are, like the canonical form of parameters.
-/

namespace TemplateCache.Url

variable {keeps : UInt8 → Bool} {a b : List UInt8} {x y : UInt8} {chars text : List Char}
  {c d : Char} {rest : List Char}

/-! ## Encoded text -/

theorem toList_encode (keeps : UInt8 → Bool) (chars : List Char) :
    (encode keeps chars).toList =
      chars.flatMap fun c => Text.percentEncode keeps (String.utf8EncodeChar c) := by
  have bytes : (String.ofList chars).toUTF8.toList = chars.flatMap String.utf8EncodeChar :=
    Text.bytes_ofList chars
  unfold encode Text.percentEncode
  rw [String.toList_ofList, bytes, List.flatMap_assoc]

theorem toList_encode_cons (keeps : UInt8 → Bool) (c : Char) (chars : List Char) :
    (encode keeps (c :: chars)).toList =
      Text.percentEncode keeps (String.utf8EncodeChar c) ++ (encode keeps chars).toList := by
  rw [toList_encode, toList_encode, List.flatMap_cons]

/-- A text is encoded as it is if all its bytes are kept. -/
theorem encode_kept (kept : ∀ c ∈ chars, c.toNat ≤ 0x7f ∧ keeps (UInt8.ofNat c.toNat) = true) :
    encode keeps chars = String.ofList chars := by
  apply String.toList_inj.1
  rw [String.toList_ofList]
  induction chars with
  | nil => rw [toList_encode, List.flatMap_nil]
  | cons c chars ih =>
      obtain ⟨⟨small, own⟩, others⟩ := List.forall_mem_cons.1 kept
      have value : (UInt8.ofNat c.toNat).toNat = c.toNat := by
        rw [UInt8.toNat_ofNat']
        omega
      rw [toList_encode_cons, ih others, Json.Tree.encode_ascii small]
      simp [Text.percentEncode, own, value]

/-! ## Codes of bytes -/

/-- The bytes of the percent code of a byte. -/
def percentCode (b : UInt8) : List UInt8 := (Text.percentByte b).map fun c => UInt8.ofNat c.toNat

theorem hexDigit_spec : ∀ n < 16, Text.hexValue? (Text.upperHexDigit n) = some n ∧
    Text.upperHexDigit n ≠ '%' ∧ Text.upperHexDigit n ≠ '?' := by
  decide

theorem percentByte_inj (same : Text.percentByte x = Text.percentByte y) : x = y := by
  have small := UInt8.toNat_lt x
  have small' := UInt8.toNat_lt y
  simp only [Text.percentByte, List.cons.injEq, and_true, true_and] at same
  obtain ⟨high, low⟩ := same
  have digit {m n : Nat} (m_small : m < 16) (n_small : n < 16)
      (same : Text.upperHexDigit m = Text.upperHexDigit n) : m = n := by
    have value := (hexDigit_spec m m_small).1
    rw [same, (hexDigit_spec n n_small).1] at value
    exact (Option.some.inj value).symm
  have high := digit (by omega) (by omega) high
  have low := digit (by omega) (by omega) low
  exact UInt8.toNat_inj.1 (by omega)

theorem toNat_char : ∀ n < 256, (Char.ofNat n).toNat = n := by decide +kernel

theorem byte_of_char (same : Char.ofNat x.toNat = c) : x = UInt8.ofNat c.toNat := by
  rw [← same, toNat_char _ (UInt8.toNat_lt x), UInt8.ofNat_toNat]

theorem percentEncode_cons (keeps : UInt8 → Bool) (x : UInt8) (a : List UInt8) :
    Text.percentEncode keeps (x :: a) =
      (if keeps x then [Char.ofNat x.toNat] else Text.percentByte x) ++
        Text.percentEncode keeps a := by
  rw [Text.percentEncode, List.flatMap_cons]
  rfl

/-- What an encoded text begins with is a kept byte, unless it is a percent sign. -/
theorem percentEncode_starts (starts : Text.percentEncode keeps a = c :: rest) (other : c ≠ '%') :
    ∃ more, a = UInt8.ofNat c.toNat :: more ∧ Text.percentEncode keeps more = rest := by
  cases a with
  | nil => cases starts
  | cons x more =>
      rw [percentEncode_cons] at starts
      split at starts
      · obtain ⟨own, others⟩ := List.cons.inj starts
        exact ⟨more, by rw [byte_of_char own], others⟩
      · exact absurd (List.cons.inj starts).1.symm other

/-- A text that is encoded like the code of a byte begins with this code. -/
theorem code_of_percentEncode (kept : keeps x = true)
    (same : Text.percentEncode keeps (x :: a) = Text.percentByte y ++ rest) :
    percentCode y <+: x :: a := by
  have small := UInt8.toNat_lt y
  rw [percentEncode_cons, if_pos kept] at same
  obtain ⟨own, others⟩ := List.cons.inj same
  obtain ⟨_, rfl, low⟩ := percentEncode_starts others (hexDigit_spec _ (by omega)).2.1
  obtain ⟨more, rfl, -⟩ := percentEncode_starts low (hexDigit_spec _ (by omega)).2.1
  rw [byte_of_char own]
  exact ⟨more, rfl⟩

/-- Encoding tells texts apart that have no codes of bytes that are to be encoded. -/
theorem percentEncode_inj (clean : ∀ y, keeps y = false → ¬percentCode y <:+: a)
    (clean' : ∀ y, keeps y = false → ¬percentCode y <:+: b)
    (same : Text.percentEncode keeps a = Text.percentEncode keeps b) : a = b := by
  induction a generalizing b with
  | nil =>
      cases b with
      | nil => rfl
      | cons y b =>
          rw [percentEncode_cons] at same
          split at same <;> cases same
  | cons x a ih =>
      cases b with
      | nil =>
          rw [percentEncode_cons] at same
          split at same <;> cases same
      | cons y b =>
          have onward (rest : Text.percentEncode keeps a = Text.percentEncode keeps b) : a = b :=
            ih (fun z lost code => clean z lost (List.infix_cons code))
              (fun z lost code => clean' z lost (List.infix_cons code)) rest
          cases kept : keeps x with
          | true =>
              cases kept' : keeps y with
              | true =>
                  rw [percentEncode_cons, percentEncode_cons, kept, kept'] at same
                  obtain ⟨own, others⟩ := List.cons.inj same
                  rw [byte_of_char own, ← byte_of_char rfl, onward others]
              | false =>
                  rw [percentEncode_cons keeps y, kept'] at same
                  exact absurd (code_of_percentEncode kept same).isInfix (clean y kept')
          | false =>
              cases kept' : keeps y with
              | true =>
                  rw [percentEncode_cons keeps x, kept] at same
                  exact absurd (code_of_percentEncode kept' same.symm).isInfix (clean' x kept)
              | false =>
                  rw [percentEncode_cons, percentEncode_cons, kept, kept'] at same
                  obtain ⟨own, others⟩ := List.append_inj same rfl
                  rw [percentByte_inj own, onward others]

/-- An encoded path has no question mark. -/
theorem mark_not_mem (chars : List Char) : '?' ∉ (encode keepsPath chars).toList := by
  rw [toList_encode]
  intro there
  obtain ⟨c, -, there⟩ := List.mem_flatMap.1 there
  obtain ⟨b, -, there⟩ := List.mem_flatMap.1 there
  have small := UInt8.toNat_lt b
  split at there
  · rename_i kept
    have own := byte_of_char (List.mem_singleton.1 there).symm
    rw [own] at kept
    revert kept
    decide +kernel
  · rcases List.mem_cons.1 there with same | there
    · cases same
    · rcases List.mem_cons.1 there with same | there
      · exact (hexDigit_spec _ (by omega)).2.2 same.symm
      · exact (hexDigit_spec _ (by omega)).2.2 (List.mem_singleton.1 there).symm

/-! ## Texts that are told apart -/

/-- A text without codes of bytes that encoding would write as such. -/
def Unescaped (keeps : UInt8 → Bool) (chars : List Char) : Prop :=
  ∀ b, keeps b = false → ¬percentCode b <:+: Text.bytes (String.ofList chars)

/-- A text that encoding leaves as it is. -/
def Unaltered (keeps : UInt8 → Bool) (chars : List Char) : Prop :=
  encode keeps chars = String.ofList chars

/-- Texts that encoding tells apart: neither has a code of a byte that is to be encoded, or both are
encoded already. -/
def Told (keeps : UInt8 → Bool) (chars text : List Char) : Prop :=
  Unescaped keeps chars ∧ Unescaped keeps text ∨ Unaltered keeps chars ∧ Unaltered keeps text

theorem Told.inj (told : Told keeps chars text) (same : encode keeps chars = encode keeps text) :
    chars = text := by
  rcases told with ⟨clean, clean'⟩ | ⟨whole, whole'⟩
  · have bytes := percentEncode_inj clean clean' (String.ofList_injective same)
    have read := Text.ofBytes_bytes (String.ofList chars)
    rw [bytes, Text.ofBytes_bytes] at read
    exact String.ofList_injective (Option.some.inj read).symm
  · exact String.ofList_injective (whole.symm.trans (same.trans whole'))

/-- A text without percent signs has no codes. -/
theorem unescaped_of_not_mem (plain : (0x25 : UInt8) ∉ Text.bytes (String.ofList chars)) :
    Unescaped keeps chars :=
  fun _ _ code => plain (code.subset List.mem_cons_self)

/-! ## Parameters -/

/-- A character that queries keep. -/
def QueryChar (special : Bool) (c : Char) : Prop :=
  c.toNat ≤ 0x7f ∧ keepsQuery special (UInt8.ofNat c.toNat) = true

instance (special : Bool) : DecidablePred (QueryChar special) :=
  fun _ => inferInstanceAs (Decidable (_ ∧ _))

theorem queryChar_kept : ∀ n < 256, ∀ special, Text.isFormKept (UInt8.ofNat n) = true →
    QueryChar special (Char.ofNat n) := by
  decide +kernel

theorem queryChar_digit : ∀ n < 16, ∀ special, QueryChar special (Text.upperHexDigit n) := by
  decide +kernel

theorem queryChar_formEncode (special : Bool) (s : String) :
    ∀ c ∈ Text.formEncode s, QueryChar special c := by
  intro c there
  obtain ⟨b, -, there⟩ := List.mem_flatMap.1 there
  have small := UInt8.toNat_lt b
  unfold Text.formByte at there
  split at there
  · rw [List.mem_singleton.1 there]
    cases special <;> decide +kernel
  · split at there
    · rename_i kept
      rw [List.mem_singleton.1 there]
      exact queryChar_kept _ small special (by rwa [UInt8.ofNat_toNat])
    · rcases List.mem_cons.1 there with rfl | there
      · cases special <;> decide +kernel
      · rcases List.mem_cons.1 there with rfl | there
        · exact queryChar_digit _ (by omega) special
        · rw [List.mem_singleton.1 there]
          exact queryChar_digit _ (by omega) special

theorem queryChar_formPair (special : Bool) (pair : String × String) :
    ∀ c ∈ Text.formPair pair, QueryChar special c := by
  refine List.forall_mem_append.2 ⟨queryChar_formEncode special _, ?_⟩
  refine List.forall_mem_cons.2 ⟨?_, queryChar_formEncode special _⟩
  cases special <;> decide +kernel

theorem queryChar_canonical (special : Bool) (params : Params) :
    ∀ c ∈ params.canonical.toList, QueryChar special c := by
  unfold Params.canonical
  rw [String.toList_ofList]
  fun_induction Text.formPairs params.entries with
  | case1 => exact List.forall_mem_nil _
  | case2 pair => exact queryChar_formPair special pair
  | case3 pair rest many ih =>
      refine List.forall_mem_append.2 ⟨queryChar_formPair special pair, ?_⟩
      refine List.forall_mem_cons.2 ⟨?_, ih⟩
      cases special <;> decide +kernel

/-- The canonical form of parameters is sent as it is. -/
theorem unaltered_canonical (special : Bool) (params : Params) :
    Unaltered (keepsQuery special) params.canonical.toList :=
  encode_kept (queryChar_canonical special params)

theorem QueryChar.not_tabOrNewline {special : Bool} (own : QueryChar special c) :
    isTabOrNewline c = false := by
  refine Bool.eq_false_iff.2 fun tab => ?_
  simp only [isTabOrNewline, Bool.or_eq_true, beq_iff_eq] at tab
  revert own
  rcases tab with (rfl | rfl) | rfl <;> cases special <;> decide +kernel

end TemplateCache.Url
