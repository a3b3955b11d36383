import Mathlib.Data.List.Basic
import TemplateCache.Json.Value

/-!
# Quoted text

Quoting text and scanning it gives the text back. A character is escaped to one or more bytes, which
are scanned to `Tree.pieces` of it, and these stand for its bytes again.
-/

namespace TemplateCache

/-! ## Bytes of text -/

namespace Text

theorem toList_loop (bytes : ByteArray) (i : Nat) (front : List UInt8) :
    ByteArray.toList.loop bytes i front = front.reverse ++ bytes.data.toList.drop i := by
  fun_induction ByteArray.toList.loop bytes i front with
  | case1 i front inside ih =>
      have there : i < bytes.data.toList.length := by simpa using inside
      have first : bytes.get! i = bytes.data.toList[i] := by
        show bytes.data[i]! = _
        rw [getElem!_pos bytes.data i (by simpa using there)]
        rfl
      rw [ih, List.drop_eq_getElem_cons there, first, List.reverse_cons, List.append_assoc]
      rfl
  | case2 i front outside =>
      have through : bytes.data.toList.length ≤ i := by simpa using outside
      rw [List.drop_eq_nil_of_le through, List.append_nil]

/-- The bytes of a text. -/
def bytes (s : String) : List UInt8 := s.toUTF8.toList

theorem bytes_eq (s : String) : bytes s = s.toUTF8.data.toList :=
  (toList_loop s.toUTF8 0 []).trans (List.drop_zero)

@[simp] theorem bytes_append (s t : String) : bytes (s ++ t) = bytes s ++ bytes t := by
  rw [bytes_eq, bytes_eq, bytes_eq]
  unfold String.toUTF8
  rw [String.toByteArray_append]
  exact ByteArray.toList_data_append

@[simp] theorem bytes_ofList (chars : List Char) :
    bytes (String.ofList chars) = chars.flatMap String.utf8EncodeChar := by
  rw [bytes_eq]
  unfold String.toUTF8
  rw [String.toByteArray_ofList]
  exact List.toList_data_toByteArray

theorem bytes_toList (s : String) : bytes s = s.toList.flatMap String.utf8EncodeChar := by
  rw [← bytes_ofList, String.ofList_toList]

theorem ofBytes_bytes (s : String) : String.fromUTF8? ⟨(bytes s).toArray⟩ = some s := by
  have whole : (⟨(bytes s).toArray⟩ : ByteArray) = s.toByteArray := by
    rw [bytes_eq]
    rfl
  unfold String.fromUTF8?
  rw [whole, dif_pos s.isValidUTF8]
  rfl

end Text

namespace Json

open Value (escape hexDigit)

/-! ## Scanning -/

namespace Tree

/-- The elements of quoted text that a character is scanned to. Control characters without a short
escape are written by their number. -/
def pieces (c : Char) : List Piece :=
  if c.toNat < 0x20 ∧ c ∉ ['\n', '\r', '\t', '\x08', '\x0c'] then [.unit c.toNat]
  else (String.utf8EncodeChar c).map .byte

variable {bytes rest : List UInt8} {body : List Piece} {c : Char}

/-- A byte that stands for itself inside quotes. -/
def IsPlain (b : UInt8) : Prop := b ≠ 0x22 ∧ b ≠ 0x5c ∧ ¬b < 0x20

theorem scanText_plain (plain : ∀ b ∈ bytes, IsPlain b) :
    scanText (bytes ++ rest) =
      (scanText rest).map fun (body, after) => (bytes.map .byte ++ body, after) := by
  induction bytes with
  | nil => simp
  | cons b more ih =>
      obtain ⟨⟨quote, backslash, control⟩, others⟩ := List.forall_mem_cons.1 plain
      rw [List.cons_append, scanText.eq_def]
      simp only [beq_iff_eq, quote, backslash, control, if_false, ih others]
      cases scanText rest <;> rfl

/-- A short escape stands for one byte, whatever follows. -/
theorem scanText_short {e b : UInt8} (short : escaped? e = some b) (named : e ≠ 0x75) :
    scanText (0x5c :: e :: rest) =
      (scanText rest).map fun (body, after) => (.byte b :: body, after) := by
  rw [scanText.eq_def]
  -- The bytes that a code unit would take are there or not.
  rcases rest with _ | ⟨h₁, _ | ⟨h₂, _ | ⟨h₃, _ | ⟨h₄, more⟩⟩⟩⟩ <;>
    simp [short, named, Option.map_eq_bind, Function.comp_def]

theorem hexValue_hexDigit {n : Nat} (small : n < 16) :
    hexValue? (UInt8.ofNat (hexDigit n).toNat) = some n := by
  revert n
  decide

theorem scanText_unit {n : Nat} (small : n < 0x20) :
    scanText (0x5c :: 0x75 :: 0x30 :: 0x30 :: UInt8.ofNat (hexDigit (n / 16)).toNat ::
        UInt8.ofNat (hexDigit (n % 16)).toNat :: rest) =
      (scanText rest).map fun (body, after) => (.unit n :: body, after) := by
  have zero : hexValue? 0x30 = some 0 := rfl
  have high := hexValue_hexDigit (n := n / 16) (by omega)
  have low := hexValue_hexDigit (n := n % 16) (by omega)
  have whole : n / 16 * 16 + n % 16 = n := Nat.div_add_mod' n 16
  rw [scanText.eq_def]
  simp [zero, high, low, whole, Option.map_eq_bind, Function.comp_def]

theorem encode_ascii (small : c.toNat ≤ 0x7f) :
    String.utf8EncodeChar c = [UInt8.ofNat c.toNat] := if_pos small

theorem isPlain_ofNat {n : Nat} (byte : n < 0x100) (quote : n ≠ 0x22) (backslash : n ≠ 0x5c)
    (control : 0x20 ≤ n) : IsPlain (UInt8.ofNat n) := by
  have value : (UInt8.ofNat n).toNat = n := by simpa using byte
  refine ⟨fun same => quote ?_, fun same => backslash ?_, fun below => ?_⟩
  · rw [← value, same]
    rfl
  · rw [← value, same]
    rfl
  · rw [UInt8.lt_iff_toNat_lt, value] at below
    exact absurd below (Nat.not_lt.2 control)

/-- What is not escaped stands for itself. -/
theorem isPlain_encode (quote : c ≠ '"') (backslash : c ≠ '\\') (control : ¬c.toNat < 0x20) :
    ∀ b ∈ String.utf8EncodeChar c, IsPlain b := by
  by_cases ascii : c.val.toNat ≤ 0x7f
  · intro b there
    rw [encode_ascii ascii, List.mem_singleton] at there
    rw [there]
    refine isPlain_ofNat (Nat.lt_of_le_of_lt ascii (by decide)) (fun same => quote ?_)
      (fun same => backslash ?_) (Nat.not_lt.1 control)
    · exact Char.ext (UInt32.toNat_inj.1 same)
    · exact Char.ext (UInt32.toNat_inj.1 same)
  · -- Every byte of a longer form has its highest bit set.
    have high : ∀ b ∈ String.utf8EncodeChar c, ∃ n, b = UInt8.ofNat n ∧ 0x80 ≤ n ∧ n < 0x100 := by
      intro b there
      unfold String.utf8EncodeChar at there
      dsimp only at there
      rw [if_neg ascii] at there
      split at there
      · simp only [List.mem_cons, List.not_mem_nil, or_false] at there
        rcases there with rfl | rfl
        all_goals exact ⟨_, rfl, by omega, by omega⟩
      split at there
      · simp only [List.mem_cons, List.not_mem_nil, or_false] at there
        rcases there with rfl | rfl | rfl
        all_goals exact ⟨_, rfl, by omega, by omega⟩
      · simp only [List.mem_cons, List.not_mem_nil, or_false] at there
        rcases there with rfl | rfl | rfl | rfl
        all_goals exact ⟨_, rfl, by omega, by omega⟩
    intro b there
    obtain ⟨n, rfl, low, byte⟩ := high b there
    exact isPlain_ofNat byte (by omega) (by omega) (by omega)

theorem scanText_escape (c : Char) (rest : List UInt8) :
    scanText ((escape c).flatMap String.utf8EncodeChar ++ rest) =
      (scanText rest).map fun (body, after) => (pieces c ++ body, after) := by
  by_cases short : c ∈ ['"', '\\', '\n', '\r', '\t', '\x08', '\x0c']
  · simp only [List.mem_cons, List.not_mem_nil, or_false] at short
    rcases short with rfl | rfl | rfl | rfl | rfl | rfl | rfl
    all_goals exact scanText_short rfl (by decide)
  simp only [List.mem_cons, List.not_mem_nil, or_false, not_or] at short
  obtain ⟨quote, backslash, others⟩ := short
  by_cases control : c.toNat < 0x20
  · have escaped : escape c = ['\\', 'u', '0', '0', hexDigit (c.toNat / 16),
        hexDigit (c.toNat % 16)] := by
      unfold escape
      simp only [quote, backslash, others, control, if_false, if_true]
    have piece : pieces c = [.unit c.toNat] := by
      unfold pieces
      simp only [List.mem_cons, List.not_mem_nil, others, control, or_false, not_false_eq_true,
        and_self, if_true]
    have digit {n : Nat} (small : n < 16) :
        String.utf8EncodeChar (hexDigit n) = [UInt8.ofNat (hexDigit n).toNat] := by
      revert n
      decide
    rw [escaped, piece]
    simp only [List.flatMap_cons, List.flatMap_nil, digit (n := c.toNat / 16) (by omega),
      digit (n := c.toNat % 16) (by omega)]
    exact scanText_unit control
  · have escaped : escape c = [c] := by
      unfold escape
      simp only [quote, backslash, others, control, if_false]
    have piece : pieces c = (String.utf8EncodeChar c).map .byte := if_neg fun h => control h.1
    rw [escaped, piece, List.flatMap_singleton]
    exact scanText_plain (isPlain_encode quote backslash control)

/-! ## What is quoted -/

/-- A control character that is written by its number is no half of a pair. -/
theorem unescape_unit {n : Nat} (small : n < 0xd800) :
    unescape (.unit n :: body) = (unescape body).map (utf8OfScalar n ++ ·) := by
  rcases body with _ | ⟨b | low, more⟩ <;> rw [unescape.eq_def] <;>
    simp [Nat.not_le.2 small, show ¬0xdc00 ≤ n by omega]

theorem unescape_bytes (bytes : List UInt8) (body : List Piece) :
    unescape (bytes.map .byte ++ body) = (unescape body).map (bytes ++ ·) := by
  induction bytes with
  | nil => simp
  | cons b more ih =>
      rw [List.map_cons, List.cons_append, unescape, ih, Option.map_map]
      rfl

theorem unescape_pieces (c : Char) (body : List Piece) :
    unescape (pieces c ++ body) = (unescape body).map (String.utf8EncodeChar c ++ ·) := by
  unfold pieces
  split
  · rename_i control
    have bytes : utf8OfScalar c.toNat = String.utf8EncodeChar c := by
      show Text.bytes _ = _
      rw [Char.ofNat_toNat, Text.bytes_toList]
      simp
    rw [List.singleton_append, unescape_unit (by omega), bytes]
  · exact unescape_bytes _ _

/-- What quoted text is scanned to. -/
def quoted (s : String) : List Piece := s.toList.flatMap pieces

theorem unescape_quoted (chars : List Char) :
    unescape (chars.flatMap pieces) = some (chars.flatMap String.utf8EncodeChar) := by
  induction chars with
  | nil => rfl
  | cons c more ih => simp only [List.flatMap_cons, unescape_pieces, ih, Option.map_some]

@[simp] theorem string?_quoted (s : String) : string? (quoted s) = some s := by
  unfold string? quoted
  rw [unescape_quoted, ← Text.bytes_toList]
  exact Text.ofBytes_bytes s

/-- Quoted text is scanned behind its first quote and up to its last one. -/
theorem scanText_quote (s : String) (rest : List UInt8) :
    ∃ inside, Text.bytes (Value.quote s) = 0x22 :: inside ∧
      scanText (inside ++ rest) = some (quoted s, rest) := by
  refine ⟨(s.toList.flatMap escape).flatMap String.utf8EncodeChar ++ [0x22], ?_, ?_⟩
  · unfold Value.quote
    rw [Text.bytes_ofList]
    simp only [List.cons_append, List.flatMap_cons, List.flatMap_append]
    rfl
  · unfold quoted
    induction s.toList with
    | nil =>
        rw [List.flatMap_nil, List.flatMap_nil, List.nil_append, List.singleton_append,
          scanText.eq_def]
        rfl
    | cons c more ih =>
        simp only [List.flatMap_cons, List.flatMap_append, List.append_assoc] at ih ⊢
        rw [scanText_escape, ih]
        rfl

end Tree
end Json
end TemplateCache
