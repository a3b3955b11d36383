import TemplateCache.Proofs.Naming.CodeKey
import TemplateCache.Proofs.Store.BaseUrl
import TemplateCache.Proofs.Url.Literal

/-!
# Keys and the resources that they ask for

A key of a store behind a network is resolved as a reference, in which a percent sign keeps its
meaning while other bytes are percent encoded. Keys in which nothing has a meaning of its own are
sent as they are written; if they have no codes of bytes that are to be encoded either, different
keys ask for different resources. A name with a space and the name with the code of a space in its
place ask for the same one.
-/

namespace TemplateCache

open Job

variable {key other : String}

/-! ## Parts of keys -/

/-- A key is its path and its query with the mark between them. -/
theorem splitQuery_whole (key : String) :
    (splitQuery key).1 ++ (splitQuery key).2.elim "" ("?" ++ ·) = key := by
  have parts := List.takeWhile_append_dropWhile (p := (· != '?')) (l := key.toList)
  apply String.toList_inj.1
  unfold splitQuery
  dsimp only
  cases rest : key.toList.dropWhile (· != '?') with
  | nil => simp
  | cons mark query =>
      have first := List.head?_dropWhile_not (· != '?') key.toList
      rw [rest] at parts first
      obtain rfl : mark = '?' := by simpa using first
      simpa using parts

theorem splitQuery_inj (same : splitQuery key = splitQuery other) : key = other := by
  rw [← splitQuery_whole key, same, splitQuery_whole]

/-- A path without a question mark can be told from the query behind it. -/
theorem splitQuery_append {path : String} (clean : '?' ∉ path.toList) (query : Option String) :
    splitQuery (path ++ query.elim "" ("?" ++ ·)) = (path, query) := by
  cases query with
  | none =>
      unfold splitQuery
      dsimp only [Option.elim]
      rw [String.append_empty, List.dropWhile_eq_nil_iff.2 (Resolver.passes_of_clean clean)]
  | some query =>
      have mark : splitQuery (String.ofList (path.toList ++ '?' :: query.toList)) = _ :=
        Resolver.splitQuery_mark clean
      rw [String.ofList_toList, String.ofList_toList] at mark
      rw [← mark]
      congr 1
      apply String.toList_inj.1
      simp

namespace Store.Remote

variable {base u v : Url} {r : Remote} {url : String} {address : Address} {front : List String}

/-- Nothing in a key has a meaning of its own in a URL. -/
structure Literal (r : Remote) (key : String) : Prop where
  path : Url.Literal r.base.scheme (splitQuery key).1.toList
  query : ∀ query ∈ (splitQuery key).2, ∀ c ∈ query.toList, Url.isTabOrNewline c = false

/-- How a key is written behind the path of the base. -/
def encoded (r : Remote) (key : String) : String :=
  Url.encode Url.keepsPath (splitQuery key).1.toList ++
    ((splitQuery key).2.map fun query =>
      Url.encode (Url.keepsQuery r.base.isSpecial) query.toList).elim "" ("?" ++ ·)

/-- The paths of two keys are told apart by their encoding, and so are their queries. -/
structure Apart (r : Remote) (key other : String) : Prop where
  paths : Url.Told Url.keepsPath (splitQuery key).1.toList (splitQuery other).1.toList
  queries : ∀ query ∈ (splitQuery key).2, ∀ query' ∈ (splitQuery other).2,
    Url.Told (Url.keepsQuery r.base.isSpecial) query.toList query'.toList

/-- The URL of a literal key. -/
def literalUrl (r : Remote) (front : List String) (key : String) : Url :=
  { r.base with
    path := .segments (front ++
      (Text.splitOn '/' (splitQuery key).1.toList).map (Url.encode Url.keepsPath))
    query := (splitQuery key).2.map fun query =>
      Url.encode (Url.keepsQuery r.base.isSpecial) query.toList
    fragment := none }

theorem Literal.reference_eq (literal : r.Literal key) : reference key = (splitQuery key).1 := by
  obtain ⟨c, rest, chars⟩ := List.exists_cons_of_ne_nil literal.path.full
  have slashless := literal.path.slashless
  rw [chars] at slashless
  have other : ¬(c == '/') = true := fun slash => by
    rw [eq_of_beq slash] at slashless
    cases slashless
  have kept : (c :: rest).dropWhile (· == '/') = c :: rest := List.dropWhile_cons_of_neg other
  rw [reference, chars, kept, ← chars, String.ofList_toList]

theorem Literal.urlOf_eq (literal : r.Literal key) (dir : r.base.Directory front) :
    r.urlOf key = .ok (r.literalUrl front key) := by
  have joined := literal.path.join_eq dir
  rw [String.ofList_toList, ← literal.reference_eq] at joined
  rw [urlOf_ok joined, literal.reference_eq]
  unfold literalUrl
  have plain := literal.query
  cases asked : (splitQuery key).2 with
  | none => rfl
  | some query =>
      have kept : (query.toList.filter fun c => !Url.isTabOrNewline c) = query.toList :=
        List.filter_eq_self.2 fun c there => by rw [plain query asked c there]; rfl
      unfold Url.withQuery
      dsimp only
      rw [kept]
      rfl

theorem pathText_literalUrl (dir : r.base.Directory front) (key : String) :
    (r.literalUrl front key).pathText =
      r.base.pathText ++ Url.encode Url.keepsPath (splitQuery key).1.toList :=
  Url.Literal.pathText_eq dir rfl

theorem target_literalUrl (dir : r.base.Directory front) (key : String) :
    (r.literalUrl front key).target = r.base.pathText ++ r.encoded key := by
  have full : ¬(r.literalUrl front key).pathText.isEmpty = true := by
    rw [pathText_literalUrl dir, String.isEmpty_iff]
    intro empty
    have chars := congrArg String.toList empty
    rw [String.toList_append, Url.toList_pathText dir.path, List.flatMap_append] at chars
    simp at chars
  unfold Url.target encoded
  dsimp only
  rw [if_neg full, pathText_literalUrl dir, String.append_assoc]
  rfl

theorem encoded_inj (apart : r.Apart key other) (same : r.encoded key = r.encoded other) :
    key = other := by
  have split := congrArg splitQuery same
  unfold encoded at split
  rw [splitQuery_append (Url.mark_not_mem _), splitQuery_append (Url.mark_not_mem _)] at split
  obtain ⟨paths, queries⟩ := Prod.mk.inj split
  have told := apart.queries
  refine splitQuery_inj (Prod.ext (String.toList_inj.1 (apart.paths.inj paths)) ?_)
  cases own : (splitQuery key).2 with
  | none =>
      rw [own] at queries
      exact (Option.map_eq_none_iff.1 queries.symm).symm
  | some query =>
      rw [own] at queries
      obtain ⟨query', own', encoded⟩ := Option.map_eq_some_iff.1 queries.symm
      rw [own', String.toList_inj.1 ((told query own query' own').inj encoded.symm)]

/-- What stands in front of the path in the texts of URLs below a directory. -/
def origin (u : Url) (front : List String) : String :=
  u.scheme ++ ":" ++ match u.authority with
    | some authority => "//" ++ Url.authorityText authority
    | none => if front.head? = some "" then "/." else ""

theorem text_eq_origin {first : String} {more : List String}
    (path : u.path = .segments (front ++ first :: more)) (filled : first ≠ "")
    (fragment : u.fragment = none) : u.text = origin u front ++ u.target := by
  have full : ¬u.pathText.isEmpty = true := by
    rw [String.isEmpty_iff]
    intro empty
    have chars := congrArg String.toList empty
    rw [Url.toList_pathText path, List.flatMap_append] at chars
    simp at chars
  have lead : u.text = u.scheme ++ ":" ++ (match u.authority with
      | some authority => "//" ++ Url.authorityText authority
      | none => if front.head? = some "" then "/." else "") ++ u.pathText ++
        u.query.elim "" ("?" ++ ·) := by
    unfold Url.text
    rw [path, fragment, Option.elim_none, String.append_empty]
    congr 3
    cases u.authority with
    | some authority => rfl
    | none =>
        cases front with
        | nil =>
            dsimp only [List.nil_append]
            split
            · rename_i same
              cases same
            · rename_i same
              cases same
              exact absurd rfl filled
            · rfl
        | cons segment front =>
            obtain ⟨second, rest, same⟩ := List.exists_cons_of_ne_nil
              (List.append_ne_nil_of_right_ne_nil front (List.cons_ne_nil first more))
            rw [List.cons_append, same, List.head?_cons]
            by_cases empty : segment = ""
            · rw [if_pos (congrArg some empty), empty]
              rfl
            · rw [if_neg fun own => empty (Option.some.inj own)]
              split
              · rename_i own
                cases own
              · rename_i own
                cases own
                exact absurd rfl empty
              · rfl
  rw [lead, origin, Url.target, if_neg full, String.append_assoc]

theorem Literal.text_eq (literal : r.Literal key) (front : List String) :
    (r.literalUrl front key).text = origin r.base front ++ (r.literalUrl front key).target := by
  obtain ⟨first, more, parts, full, -⟩ := literal.path.exists_first
  have path : (r.literalUrl front key).path = .segments (front ++
      Url.encode Url.keepsPath first :: more.map (Url.encode Url.keepsPath)) := by
    unfold literalUrl
    rw [parts]
    rfl
  exact text_eq_origin path (Url.encode_ne_empty full) rfl

/-! ## Keys of names -/

/-- A literal place makes a literal key with all parameters. -/
theorem literal_of_place {place : String} (literal : Url.Literal r.base.scheme place.toList)
    (params : Option Params) : r.Literal (place ++ Resolver.query params) := by
  have split := Resolver.splitQuery_query literal.unmarked.2 params
  constructor
  · rw [split]
    exact literal
  · rw [split]
    intro query asked c there
    obtain ⟨own, -, rfl⟩ := Option.map_eq_some_iff.1 asked
    exact (Url.queryChar_canonical r.base.isSpecial own c there).not_tabOrNewline

/-- Places that are told apart make keys that are told apart, with all parameters. -/
theorem apart_of_places {place place' : String} (clean : '?' ∉ place.toList)
    (clean' : '?' ∉ place'.toList) (told : Url.Told Url.keepsPath place.toList place'.toList)
    (params params' : Option Params) :
    r.Apart (place ++ Resolver.query params) (place' ++ Resolver.query params') := by
  have split := Resolver.splitQuery_query clean params
  have split' := Resolver.splitQuery_query clean' params'
  constructor
  · rw [split, split']
    exact told
  · rw [split, split']
    intro query asked query' asked'
    obtain ⟨own, -, rfl⟩ := Option.map_eq_some_iff.1 asked
    obtain ⟨own', -, rfl⟩ := Option.map_eq_some_iff.1 asked'
    exact .inr ⟨Url.unaltered_canonical _ own, Url.unaltered_canonical _ own'⟩

/-! ## Requests -/

/-- What was sent meanwhile went to one URL. -/
def AsksOnly (u : Url) (s t : Site Unit) : Prop :=
  ∃ requests, t.environment.network.sent = s.environment.network.sent ++ requests ∧
    ∀ request ∈ requests, request.url = u.text

theorem asksOnly_of_eq {s t : Site Unit} (same : t.environment = s.environment) :
    AsksOnly u s t := by
  refine ⟨[], ?_, nofun⟩
  rw [same, List.append_nil]

theorem asksOnly_sent {space : KeySpace} (named : address.key r.resolver space = .ok key)
    (found : r.urlOf key = .ok u) (request : Request) (s : Site Unit)
    (asks : r.Asks address space request) : AsksOnly u s (sent request s) := by
  obtain ⟨_, _, named', found', same⟩ := asks
  cases named.symm.trans named'
  cases found.symm.trans found'
  exact ⟨[request], rfl, fun other there => List.mem_singleton.1 there ▸ same⟩

/-- A literal key is sent as it is written, behind the path of the base. Different literal keys that
are told apart have URLs with different targets, and reading under a key asks for nothing but its
own URL. Such are all keys whose places are literal and have no codes of bytes that are to be
encoded, whatever their parameters. -/
theorem literal_keys_ask_for_their_own (accepted : base? url = .ok r.base) :
    (∀ key, r.Literal key → ∃ u, r.urlOf key = .ok u ∧ u.Below r.base ∧
      u.target = r.base.pathText ++ r.encoded key) ∧
    (∀ key other u v, r.Literal key → r.Literal other → r.Apart key other → key ≠ other →
      r.urlOf key = .ok u → r.urlOf other = .ok v → u.target ≠ v.target ∧ u.text ≠ v.text) ∧
    (∀ (address : Address) key u, address.key r.resolver .content = .ok key →
      r.urlOf key = .ok u → ∀ token,
        ((remote r).readContent address token).run.Steady (AsksOnly u)) ∧
    (∀ (address : Address) key u, address.key r.resolver .code = .ok key →
      r.urlOf key = .ok u → ∀ token,
        ((remote r).readCode address token).run.Steady (AsksOnly u)) ∧
    ∀ place place' : String,
      Url.Literal r.base.scheme place.toList → Url.Unescaped Url.keepsPath place.toList →
      Url.Literal r.base.scheme place'.toList → Url.Unescaped Url.keepsPath place'.toList →
      ∀ params params' : Option Params,
        r.Literal (place ++ Resolver.query params) ∧
        r.Literal (place' ++ Resolver.query params') ∧
        r.Apart (place ++ Resolver.query params) (place' ++ Resolver.query params') := by
  obtain ⟨front, dir⟩ := directory_base accepted
  refine ⟨fun key literal => ⟨_, literal.urlOf_eq dir, ?_, target_literalUrl dir key⟩, ?_, ?_, ?_,
    ?_⟩
  · refine dir.below rfl rfl rfl fun none => ?_
    exact Text.splitOn_ne_nil '/' _ (List.map_eq_nil_iff.1 none)
  · intro key other u v literal literal' apart differ found found'
    cases found.symm.trans (literal.urlOf_eq dir)
    cases found'.symm.trans (literal'.urlOf_eq dir)
    have targets : (r.literalUrl front key).target ≠ (r.literalUrl front other).target := by
      rw [target_literalUrl dir, target_literalUrl dir]
      exact fun same => differ (encoded_inj apart ((String.append_right_inj _).1 same))
    refine ⟨targets, ?_⟩
    rw [literal.text_eq, literal'.text_eq]
    exact fun same => targets ((String.append_right_inj _).1 same)
  · intro address key u named found token
    apply steady_readContent asksOnly_of_eq
    intro request s _
    exact asksOnly_sent named found request s
  · intro address key u named found token
    apply steady_readCode asksOnly_of_eq
    intro request s _
    exact asksOnly_sent named found request s
  · intro place place' literal clean literal' clean' params params'
    exact ⟨literal_of_place literal params, literal_of_place literal' params',
      apart_of_places literal.unmarked.2 literal'.unmarked.2 (.inl ⟨clean, clean'⟩) params params'⟩

end Store.Remote

open Store Store.Remote Sample

/-- A name with a space, without parameters and with one. -/
theorem Store.Remote.spaced_name_is_told_apart :
    ∃ u v, base? "http://[::1]/tpl" = .ok (onHost "partials").base ∧
      (onHost "partials").urlOf "partials/nav/a b.html" = .ok u ∧
      (onHost "partials").urlOf "partials/nav/a b.html?q=%23" = .ok v ∧ u.target ≠ v.target ∧
      ((remote (onHost "partials")).readContent { name := "nav/a b" } ⟨[0], none⟩).run.Steady
        (AsksOnly u) := by
  have accepted : base? "http://[::1]/tpl" = .ok (onHost "partials").base := by decide +kernel
  have named : ({ name := "nav/a b" } : Address).key (onHost "partials").resolver .content =
      .ok "partials/nav/a b.html" := by decide +kernel
  have literal : Url.Literal (onHost "partials").base.scheme "partials/nav/a b.html".toList := by
    decide +kernel
  have clean : Url.Unescaped Url.keepsPath "partials/nav/a b.html".toList :=
    Url.unescaped_of_not_mem (by decide +kernel)
  have key : "partials/nav/a b.html" ++ Resolver.query none = "partials/nav/a b.html" := rfl
  have key' : "partials/nav/a b.html" ++ Resolver.query (some (.ofPairs [("q", "#")])) =
      "partials/nav/a b.html?q=%23" := by decide +kernel
  obtain ⟨sent, differ, reads, -, places⟩ := literal_keys_ask_for_their_own accepted
  obtain ⟨first, second, apart⟩ := places _ _ literal clean literal clean none
    (some (.ofPairs [("q", "#")]))
  rw [key] at first apart
  rw [key'] at second apart
  obtain ⟨u, found, -⟩ := sent _ first
  obtain ⟨v, found', -⟩ := sent _ second
  exact ⟨u, v, accepted, found, found',
    (differ _ _ u v first second apart (by decide) found found').1, reads _ _ u named found _⟩

/-- A name with a space asks for what the name with the code of a space in its place asks for. -/
theorem Store.Remote.code_of_space_is_a_space :
    ¬∀ (url key other : String) (r : Store.Remote) (address address' : Address) (u v : Url),
      base? url = .ok r.base → address.key r.resolver .content = .ok key →
      address'.key r.resolver .content = .ok other →
      (∀ part ∈ Path.parts ⟨(splitQuery key).1⟩, part.normal?.isSome) →
      (∀ part ∈ Path.parts ⟨(splitQuery other).1⟩, part.normal?.isSome) →
      (∀ w, Url.parse none key ≠ .ok w) → (∀ w, Url.parse none other ≠ .ok w) → key ≠ other →
      r.urlOf key = .ok u → r.urlOf other = .ok v → u.target ≠ v.target := by
  intro claim
  have first : Url.parse none "partials/a b.html" = .error .noBase := by decide +kernel
  have second : Url.parse none "partials/a%20b.html" = .error .noBase := by decide +kernel
  have joined : (onHost "partials").base.join (reference "partials/a b.html") =
      .ok { (onHost "partials").base with
        path := .segments ["tpl", "partials", "a%20b.html"] } := by
    decide +kernel
  have joined' : (onHost "partials").base.join (reference "partials/a%20b.html") =
      .ok { (onHost "partials").base with
        path := .segments ["tpl", "partials", "a%20b.html"] } := by
    decide +kernel
  refine claim "http://[::1]/tpl" _ _ (onHost "partials") { name := "a b" } { name := "a%20b" } _ _
    (by decide +kernel) (by decide +kernel) (by decide +kernel) (by decide +kernel)
    (by decide +kernel) (fun w same => by cases first.symm.trans same)
    (fun w same => by cases second.symm.trans same) (by decide) (urlOf_ok joined)
    (urlOf_ok joined') ?_
  decide +kernel

end TemplateCache
