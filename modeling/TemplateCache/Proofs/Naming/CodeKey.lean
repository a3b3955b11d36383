import TemplateCache.Proofs.Naming

/-!
# Code keys of content keys

The code key of an address can be had in two ways. The address itself puts the suffix behind its
location; the content key puts it in front of its first question mark. The two agree where this is
the mark in front of the parameters. A location that has a question mark of its own is cut there, so
then they agree only if the suffix may stand on either side of the rest.
-/

namespace TemplateCache

/-- What a text has from its first question mark on. -/
def fromMark (text : String) : String := String.ofList (text.toList.dropWhile (· != '?'))

namespace Resolver

variable {r : Resolver} {place name : String} {extension : Option String}

/-! ## Where a key is cut -/

theorem passes_of_clean {chars : List Char} (clean : '?' ∉ chars) :
    ∀ c ∈ chars, (c != '?') = true := by
  intro c there
  rw [bne_iff_ne]
  rintro rfl
  exact clean there

theorem fromMark_whole (whole : '?' ∉ place.toList) : fromMark place = "" := by
  unfold fromMark
  rw [List.dropWhile_eq_nil_iff.2 (passes_of_clean whole)]

theorem splitQuery_fromMark (place : String) : (splitQuery place).1 ++ fromMark place = place := by
  have parts := List.takeWhile_append_dropWhile (p := (· != '?')) (l := place.toList)
  apply String.toList_inj.1
  unfold splitQuery fromMark
  dsimp only
  cases rest : place.toList.dropWhile (· != '?') with
  | nil => simp
  | cons mark query =>
      rw [rest] at parts
      simpa using parts

/-- A place with a question mark, in two parts. -/
theorem exists_mark (marked : '?' ∈ place.toList) :
    ∃ front back, '?' ∉ front ∧ place = String.ofList (front ++ '?' :: back) := by
  obtain ⟨front, back, parts, clean⟩ := List.eq_append_cons_of_mem marked
  refine ⟨front, back, clean, ?_⟩
  rw [← parts, String.ofList_toList]

theorem splitQuery_mark {front back : List Char} (clean : '?' ∉ front) :
    splitQuery (String.ofList (front ++ '?' :: back)) =
      (String.ofList front, some (String.ofList back)) := by
  have before := passes_of_clean clean
  unfold splitQuery
  simp [List.dropWhile_append_of_pos before, List.takeWhile_append_of_pos before]

theorem fromMark_mark {front back : List Char} (clean : '?' ∉ front) :
    fromMark (String.ofList (front ++ '?' :: back)) = String.ofList ('?' :: back) := by
  unfold fromMark
  simp [List.dropWhile_append_of_pos (passes_of_clean clean)]

/-- The suffix goes in front of the first question mark of the place, if it has one. -/
theorem codeKeyOf_place (r : Resolver) (place : String) (params : Option Params) :
    r.codeKeyOf (place ++ query params) =
      (splitQuery place).1 ++ r.rules.codeSuffix ++ fromMark place ++ query params := by
  by_cases marked : '?' ∈ place.toList
  · -- The parameters stand behind the mark, so they do not move it.
    obtain ⟨front, back, clean, rfl⟩ := exists_mark marked
    have whole : String.ofList (front ++ '?' :: back) ++ query params =
        String.ofList (front ++ '?' :: (back ++ (query params).toList)) := by
      apply String.toList_inj.1
      simp
    rw [whole, splitQuery_mark clean, fromMark_mark clean]
    unfold codeKeyOf
    rw [splitQuery_mark clean]
    apply String.toList_inj.1
    simp
  · have uncut : (splitQuery place).1 = place := by
      have parts := splitQuery_fromMark place
      rwa [fromMark_whole marked, String.append_empty] at parts
    rw [codeKeyOf_query marked, fromMark_whole marked, uncut, String.append_empty]

/-- The suffix may stand on either side of what follows the first question mark. -/
theorem codeKeyOf_eq_iff (r : Resolver) (place : String) (params : Option Params) :
    r.codeKeyOf (place ++ query params) = place ++ r.rules.codeSuffix ++ query params ↔
      r.rules.codeSuffix ++ fromMark place = fromMark place ++ r.rules.codeSuffix := by
  have right : place ++ r.rules.codeSuffix =
      (splitQuery place).1 ++ (fromMark place ++ r.rules.codeSuffix) := by
    rw [← String.append_assoc, splitQuery_fromMark]
  rw [codeKeyOf_place, String.append_left_inj, right, String.append_assoc,
    String.append_right_inj]

/-- Only a suffix that begins with a question mark can do so and not be empty. -/
theorem commutes_iff {suffix : String} (plain : suffix.toList.head? ≠ some '?') :
    suffix ++ fromMark place = fromMark place ++ suffix ↔ suffix = "" ∨ '?' ∉ place.toList := by
  constructor
  · intro same
    by_contra differ
    obtain ⟨full, marked⟩ := not_or.1 differ
    obtain ⟨front, back, clean, rfl⟩ := exists_mark (not_not.1 marked)
    rw [fromMark_mark clean] at same
    -- The texts begin differently: one with the suffix, the other with the mark.
    have chars := congrArg String.toList same
    cases own : suffix.toList with
    | nil => exact full (String.toList_eq_nil_iff.1 own)
    | cons first rest =>
        rw [String.toList_append, String.toList_append, own] at chars
        rw [own] at plain
        simp at chars plain
        exact plain chars.1
  · rintro (rfl | whole)
    · simp
    · rw [fromMark_whole whole]
      simp

/-! ## Where question marks come from -/

/-- A question mark gets in front of the parameters: the name has one, or the base path or the
extension of a name that is not taken verbatim. -/
def Marked (r : Resolver) (name : String) (extension : Option String) : Prop :=
  '?' ∈ name.toList ∨ r.isVerbatim name = false ∧
    ('?' ∈ (r.rules.base (r.rules.docRole name)).toList ∨
      '?' ∈ (extension.getD (r.rules.extension (r.rules.docRole name))).toList)

instance : Decidable (r.Marked name extension) := inferInstanceAs (Decidable (_ ∨ _))

theorem mem_dropSlashes {chars : List Char} :
    '?' ∈ chars.dropWhile (· == '/') ↔ '?' ∈ chars := by
  constructor
  · exact fun there => List.dropWhile_subset _ there
  · intro there
    rw [← List.takeWhile_append_dropWhile (p := (· == '/')) (l := chars), List.mem_append] at there
    rcases there with slash | rest
    · have is := List.mem_takeWhile_imp slash
      simp at is
    · exact rest

theorem mem_placeBelow {base : String} : '?' ∈ (placeBelow base name).toList ↔
    '?' ∈ base.toList ∨ '?' ∈ name.toList := by
  have trimmed : '?' ∈ (base.toList.reverse.dropWhile (· == '/')).reverse ↔ '?' ∈ base.toList := by
    rw [List.mem_reverse, mem_dropSlashes, List.mem_reverse]
  unfold placeBelow
  dsimp only
  split
  · rename_i empty
    rw [List.isEmpty_iff.1 empty] at trimmed
    simp only [List.not_mem_nil, false_iff] at trimmed
    simp [trimmed, mem_dropSlashes]
  · simp [trimmed, mem_dropSlashes]

theorem mem_withDot {ext : String} : '?' ∈ (withDot ext).toList ↔ '?' ∈ ext.toList := by
  unfold withDot
  split
  · rfl
  · simp

theorem mem_location : '?' ∈ (r.location name extension).toList ↔ r.Marked name extension := by
  unfold location Marked
  cases r.isVerbatim name with
  | true => simp
  | false =>
      rw [if_neg Bool.false_ne_true, String.toList_append, List.mem_append, mem_placeBelow]
      have added : '?' ∈ (extension.elim (r.roleExtension (r.rules.docRole name)) withDot).toList ↔
          '?' ∈ (extension.getD (r.rules.extension (r.rules.docRole name))).toList := by
        cases extension with
        | none => exact mem_withDot
        | some ext => exact mem_withDot
      rw [added, or_comm (a := '?' ∈ String.toList _), or_assoc]
      simp only [true_and]

end Resolver

open Resolver

/-- The code key of an address is the one that belongs to its content key exactly if the suffix may
stand on either side of what its location has from the first question mark on. So for a suffix that
does not begin with a question mark the two agree unless one gets into the location. -/
theorem Address.code_key_belongs_to_content_key {a : Address} {r : Resolver} {key : String}
    (named : a.key r .content = .ok key) :
    (a.key r .code = .ok (r.codeKeyOf key) ↔
      r.rules.codeSuffix ++ fromMark (a.place r) = fromMark (a.place r) ++ r.rules.codeSuffix) ∧
    (¬r.Marked a.name (if hasExtension a.name then some "" else a.extension) →
      a.key r .code = .ok (r.codeKeyOf key)) ∧
    (r.rules.codeSuffix.toList.head? ≠ some '?' → r.rules.codeSuffix ≠ "" →
      r.Marked a.name (if hasExtension a.name then some "" else a.extension) →
        a.key r .code ≠ .ok (r.codeKeyOf key)) := by
  have placed : key = a.place r ++ query a.params := by
    have content := key_place named .content
    rw [named, Except.ok.injEq, suffix, String.append_empty] at content
    exact content
  have exact_iff : a.key r .code = .ok (r.codeKeyOf key) ↔
      r.rules.codeSuffix ++ fromMark (a.place r) = fromMark (a.place r) ++ r.rules.codeSuffix := by
    rw [key_place named .code, Except.ok.injEq, placed, ← codeKeyOf_eq_iff r (a.place r) a.params]
    exact eq_comm
  refine ⟨exact_iff, fun unmarked => ?_, fun plain full marked same => ?_⟩
  · have whole : '?' ∉ (a.place r).toList := mt mem_location.1 unmarked
    rw [exact_iff, fromMark_whole whole]
    simp
  · rcases (commutes_iff plain).1 (exact_iff.1 same) with empty | whole
    · exact full empty
    · exact whole (mem_location.2 marked)

namespace Sample

/-- The standard names, without verbatim ones. -/
def ruled : Resolver := ⟨{ NamingRules.standard with verbatimPattern := none }, none⟩

/-- A menu in French. -/
def menu : Address where
  name := "nav/menu"
  extension := some "txt"
  params := some (.ofPairs [("lang", "fr")])

/-- A name with a question mark. -/
def marked : Address := { name := "a?b" }

end Sample

open Sample in
theorem code_key_of_menu :
    menu.key ruled .content = .ok "partials/nav/menu.txt?lang=fr" ∧
      menu.key ruled .code = .ok (ruled.codeKeyOf "partials/nav/menu.txt?lang=fr") := by
  have named : menu.key ruled .content = .ok "partials/nav/menu.txt?lang=fr" := by
    decide +kernel
  have unmarked : ¬ruled.Marked menu.name
      (if hasExtension menu.name then some "" else menu.extension) := by
    decide +kernel
  exact ⟨named, (Address.code_key_belongs_to_content_key named).2.1 unmarked⟩

open Sample in
/-- The suffix of the derived key gets into the name. -/
theorem question_mark_parts_keys :
    ¬∀ (rules : NamingRules) (r : Resolver) (a : Address) (key : String),
      Resolver.ofRules? rules = .ok r → a.key r .content = .ok key →
        a.key r .code = .ok (r.codeKeyOf key) := by
  intro agree
  have same : marked.key ruled .code = .ok (ruled.codeKeyOf "partials/a?b.html") :=
    agree ruled.rules ruled marked "partials/a?b.html" rfl (by decide)
  have code : marked.key ruled .code = .ok "partials/a?b.html.compiled" := by decide
  have derived : ruled.codeKeyOf "partials/a?b.html" = "partials/a.compiled?b.html" := by
    decide
  rw [code, derived] at same
  exact absurd same (by decide)

end TemplateCache
