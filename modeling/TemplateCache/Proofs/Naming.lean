import Mathlib.Data.List.TakeWhile
import TemplateCache.Record

/-!
# What keys tell of names

A name has keys unless it is blank. Of a name alone, the code key is the content key with the
suffix for code behind it, so either of them determines the other.
-/

namespace TemplateCache.Resolver

variable {r : Resolver} {name other key contentKey place : String} {space : KeySpace}
  {extension : Option String} {params : Option Params}

theorem not_blank (named : r.resolve name space extension params = .ok key) :
    Text.isBlankOnly name = false := by
  unfold resolve assemble at named
  split at named
  · exact nomatch named
  · exact Bool.eq_false_iff.2 ‹_›

theorem resolve_ok (named : Text.isBlankOnly name = false) :
    ∃ key, r.resolve name space extension params = .ok key := by
  unfold resolve assemble
  rw [named]
  exact ⟨_, rfl⟩

theorem plain_code (named : r.resolve name .content none none = .ok contentKey) :
    r.resolve name .code none none = .ok (contentKey ++ r.rules.codeSuffix) := by
  have real := not_blank named
  unfold resolve assemble at named ⊢
  rw [if_neg (Bool.eq_false_iff.1 real)] at named ⊢
  cases named
  simp [suffix, query]

/-- Plain names with one code key have one content key. -/
theorem plain_content_of_code (named : r.resolve name .content none none = .ok contentKey)
    (same : r.resolve other .code none none = r.resolve name .code none none) :
    r.resolve other .content none none = .ok contentKey := by
  rw [plain_code named] at same
  obtain ⟨found, content⟩ : ∃ key, r.resolve other .content none none = .ok key :=
    resolve_ok (not_blank same)
  rw [plain_code content, Except.ok.injEq, String.append_left_inj] at same
  rw [content, same]

/-! ## Keys without a query -/

theorem query_whole (whole : '?' ∉ (query params).toList) : query params = "" := by
  unfold query at *
  cases params with
  | none => rfl
  | some p =>
      dsimp only at *
      split at whole
      · rw [if_pos ‹_›]
      · rw [String.toList_append] at whole
        exact absurd (List.mem_append_left _ (List.mem_singleton_self _)) whole

/-- The first question mark stands between a place without one and the query. -/
theorem splitQuery_query (whole : '?' ∉ place.toList) (params : Option Params) :
    splitQuery (place ++ query params) =
      (place, (params.filter fun p => !p.isEmpty).map Params.canonical) := by
  have before : ∀ c ∈ place.toList, (c != '?') = true := by
    intro c there
    rw [bne_iff_ne]
    rintro rfl
    exact whole there
  have asked (text : String) : splitQuery (place ++ ("?" ++ text)) = (place, some text) := by
    have chars : (place ++ ("?" ++ text)).toList = place.toList ++ '?' :: text.toList := by
      rw [String.toList_append, String.toList_append]
      rfl
    unfold splitQuery
    dsimp only
    rw [chars, List.dropWhile_append_of_pos before, List.takeWhile_append_of_pos before]
    simp
  have unasked : splitQuery (place ++ "") = (place, none) := by
    unfold splitQuery
    dsimp only
    rw [String.append_empty, List.dropWhile_eq_nil_iff.2 before]
  unfold query
  cases params with
  | none => exact unasked
  | some p =>
      dsimp only
      cases empty : p.isEmpty with
      | true => simpa [Option.filter, empty] using unasked
      | false => simpa [Option.filter, empty] using asked p.canonical

theorem codeKeyOf_query (whole : '?' ∉ place.toList) (params : Option Params) :
    r.codeKeyOf (place ++ query params) = place ++ r.rules.codeSuffix ++ query params := by
  unfold codeKeyOf
  rw [splitQuery_query whole]
  unfold query
  cases params with
  | none => simp
  | some p => cases empty : p.isEmpty <;> simp [Option.filter, empty, String.append_assoc]

/-- Places without a question mark can be told from the queries behind them. -/
theorem query_inj {params' : Option Params} (whole : '?' ∉ place.toList)
    (whole' : '?' ∉ other.toList) (same : place ++ query params = other ++ query params') :
    place = other ∧ query params = query params' ∧
      (params.all fun p => p.isEmpty) = params'.all fun p => p.isEmpty := by
  have split := congrArg splitQuery same
  rw [splitQuery_query whole, splitQuery_query whole', Prod.mk.injEq] at split
  obtain ⟨rfl, asked⟩ := split
  have bare (params : Option Params) : (params.all fun p => p.isEmpty) =
      ((params.filter fun p => !p.isEmpty).map Params.canonical).isNone := by
    cases params with
    | none => rfl
    | some p => cases empty : p.isEmpty <;> simp [Option.filter, empty]
  exact ⟨rfl, String.append_right_inj place |>.1 same, by rw [bare, bare, asked]⟩

theorem codeKeyOf_whole (whole : '?' ∉ key.toList) :
    r.codeKeyOf key = key ++ r.rules.codeSuffix := by
  simpa [query] using r.codeKeyOf_query whole none

/-- Whoever asks for a key without a query has its code under the key that belongs to it. -/
theorem code_of_content (whole : '?' ∉ contentKey.toList)
    (named : r.resolve name .content extension params = .ok contentKey) :
    r.resolve name .code extension params = .ok (r.codeKeyOf contentKey) := by
  have real := not_blank named
  rw [codeKeyOf_whole whole]
  unfold resolve assemble at named ⊢
  rw [if_neg (Bool.eq_false_iff.1 real)] at named ⊢
  cases named
  rw [String.toList_append, List.mem_append, not_or] at whole
  simp [suffix, query_whole whole.2]

/-- And what is compiled there is the content under the key. -/
theorem content_of_code (whole : '?' ∉ contentKey.toList)
    (plain : '?' ∉ r.rules.codeSuffix.toList)
    (coded : r.resolve name .code extension params = .ok (r.codeKeyOf contentKey)) :
    r.resolve name .content extension params = .ok contentKey := by
  have real := not_blank coded
  rw [codeKeyOf_whole whole] at coded
  unfold resolve assemble at coded ⊢
  rw [if_neg (Bool.eq_false_iff.1 real)] at coded ⊢
  rw [Except.ok.injEq] at coded
  have none : query params = "" := by
    refine query_whole fun asks => ?_
    have there : '?' ∈ (contentKey ++ r.rules.codeSuffix).toList := by
      rw [← coded, String.toList_append]
      exact List.mem_append_right _ asks
    rw [String.toList_append, List.mem_append] at there
    exact there.elim whole plain
  rw [none, String.append_empty, suffix, String.append_left_inj] at coded
  rw [coded, none]
  simp [suffix]

end TemplateCache.Resolver

namespace TemplateCache.Address

variable {a d : Address} {r : Resolver} {key : String} {space : KeySpace}

/-- Without parameters. -/
def isBare (a : Address) : Bool := a.params.all fun p => p.isEmpty

theorem isBare_of_plain (plain : a.isPlain = true) : a.isBare = true := by
  simp only [isPlain, Bool.and_eq_true] at plain
  exact plain.2

/-- Where the content of an address is without its parameters. -/
def place (a : Address) (r : Resolver) : String :=
  r.location a.name (if hasExtension a.name then some "" else a.extension)

theorem key_place (named : a.key r space = .ok key) (other : KeySpace) :
    a.key r other = .ok (a.place r ++ r.suffix other ++ Resolver.query a.params) := by
  have real : ¬Text.isBlankOnly a.name = true := Bool.eq_false_iff.1 (Resolver.not_blank named)
  unfold Address.key Resolver.resolve Resolver.assemble
  rw [if_neg real]
  rfl

theorem key_plain (plain : a.isPlain = true) (space : KeySpace) :
    a.key r space = r.resolve a.name space none none := by
  simp only [isPlain, Bool.and_eq_true, Option.isNone_iff_eq_none] at plain
  obtain ⟨bare, empty⟩ := plain
  unfold key Resolver.resolve Resolver.assemble Resolver.query
  rw [bare]
  cases params : a.params with
  | none => rfl
  | some p =>
      rw [params, Option.all_some] at empty
      simp [empty]

end TemplateCache.Address
