import Mathlib.Data.List.Infix
import TemplateCache.Proofs.Store.Reading
import TemplateCache.Proofs.Url.Below

/-!
# Keys below a base URL

A store behind a network resolves its keys against a base whose path ends in a slash. A key that
descends from there keeps to the host and the path of the base, and so do all requests that are sent
for it. Other keys may lead anywhere: two dots climb over the base, and two backslashes or a space
in front of slashes make what follows them a host.
-/

namespace TemplateCache

open Job

namespace Store.Remote

variable {base : Url} {r : Remote} {url key : String} {address : Address} {token : Token}

/-- The base of a store is a directory. -/
theorem directory_base (accepted : base? url = .ok base) : ∃ front, base.Directory front := by
  unfold base? at accepted
  cases read : Url.parse none url with
  | error e =>
      rw [read] at accepted
      cases accepted
  | ok u =>
      rw [read] at accepted
      dsimp only [Bind.bind, Except.bind, Except.mapError] at accepted
      split at accepted
      · cases accepted
      · rename_i isOpaque
        cases accepted
        exact Url.directory_withTrailingSlash (Url.local_parse read) (by simpa using isOpaque)

/-- What is resolved for a key: its path part without slashes in front. -/
def reference (key : String) : String :=
  String.ofList ((splitQuery key).1.toList.dropWhile (· == '/'))

/-- A key whose reference never leaves the directory of the base. -/
def Descends (r : Remote) (key : String) : Prop :=
  Url.Descends r.base.scheme (Url.counted (reference key))

instance (r : Remote) (key : String) : Decidable (r.Descends key) :=
  inferInstanceAs (Decidable (Url.Descends _ _))

theorem urlOf_ok {u : Url} (joined : r.base.join (reference key) = .ok u) :
    r.urlOf key = .ok (u.withQuery (splitQuery key).2) := by
  unfold reference at joined
  unfold urlOf
  dsimp only
  rw [joined]
  rfl

theorem urlOf_below (accepted : base? url = .ok r.base) (descends : r.Descends key) :
    ∃ u, r.urlOf key = .ok u ∧ u.Below r.base := by
  obtain ⟨front, dir⟩ := directory_base accepted
  obtain ⟨u, joined, below⟩ := dir.join_below descends
  exact ⟨_, urlOf_ok joined, below.withQuery _⟩

/-- What was sent meanwhile went to URLs below a base. -/
def AsksBelow (base : Url) (s t : Site Unit) : Prop :=
  ∃ requests, t.environment.network.sent = s.environment.network.sent ++ requests ∧
    ∀ request ∈ requests, ∃ u : Url, u.Below base ∧ request.url = u.text

theorem asksBelow_of_eq {s t : Site Unit} (same : t.environment = s.environment) :
    AsksBelow base s t := by
  refine ⟨[], ?_, nofun⟩
  rw [same, List.append_nil]

theorem asksBelow_sent {space : KeySpace} (accepted : base? url = .ok r.base)
    (descends : ∀ key, address.key r.resolver space = .ok key → r.Descends key)
    (request : Request) (s : Site Unit) (asks : r.Asks address space request) :
    AsksBelow r.base s (sent request s) := by
  obtain ⟨key, v, named, found, same⟩ := asks
  obtain ⟨u, found', below⟩ := urlOf_below accepted (descends key named)
  cases found.symm.trans found'
  exact ⟨[request], rfl, fun other there => ⟨v, below, List.mem_singleton.1 there ▸ same⟩⟩

/-- A key that descends has a URL below the base, and nothing else is asked for when content or code
is read and written under it. -/
theorem descending_keys_stay_below (accepted : base? url = .ok r.base) :
    (∀ key, r.Descends key → ∃ u, r.urlOf key = .ok u ∧ u.Below r.base) ∧
    (∀ address : Address,
      (∀ key, address.key r.resolver .content = .ok key → r.Descends key) →
      ∀ token, ((remote r).readContent address token).run.Steady (AsksBelow r.base) ∧
        ∀ content,
          ((remote r).writeContent address content token).run.Steady (AsksBelow r.base)) ∧
    ∀ address : Address,
      (∀ key, address.key r.resolver .code = .ok key → r.Descends key) →
      ∀ token, ((remote r).readCode address token).run.Steady (AsksBelow r.base) ∧
        ∀ renderer,
          ((remote r).writeCode address renderer token).run.Steady (AsksBelow r.base) := by
  refine ⟨fun key => urlOf_below accepted, ?_, ?_⟩
  · intro address descends token
    have sends := asksBelow_sent accepted descends
    constructor
    · apply steady_readContent asksBelow_of_eq
      intro request s _
      exact sends request s
    · intro content
      apply steady_writeContent asksBelow_of_eq
      exact sends
  · intro address descends token
    have sends := asksBelow_sent accepted descends
    constructor
    · apply steady_readCode asksBelow_of_eq
      intro request s _
      exact sends request s
    · intro renderer
      apply steady_writeCode asksBelow_of_eq
      exact sends

end Store.Remote

open Store Store.Remote

namespace Sample

/-- A store behind a network. -/
def onHost (partialBase : String) : Store.Remote where
  base := ⟨"http", some ⟨"", none, "[::1]", none⟩, .segments ["tpl", ""], none, none⟩
  userAgent := Store.Remote.defaultUserAgent
  resolver := ⟨{ NamingRules.standard with partialBase := partialBase }, none⟩

end Sample

open Sample

theorem Store.Remote.plain_key_stays_below :
    base? "http://[::1]/tpl" = .ok (onHost "partials").base ∧
    (onHost "partials").Descends "partials/nav/a.html" ∧
    (∃ u, (onHost "partials").urlOf "partials/nav/a.html" = .ok u ∧
      u.Below (onHost "partials").base) ∧
    ((remote (onHost "partials")).readContent { name := "nav/a" } ⟨[0], none⟩).run.Steady
      (AsksBelow (onHost "partials").base) := by
  have accepted : base? "http://[::1]/tpl" = .ok (onHost "partials").base := by decide +kernel
  have descends : (onHost "partials").Descends "partials/nav/a.html" := by decide +kernel
  have named : ({ name := "nav/a" } : Address).key (onHost "partials").resolver .content =
      .ok "partials/nav/a.html" := by decide +kernel
  have theorems := descending_keys_stay_below accepted
  refine ⟨accepted, descends, theorems.1 _ descends, (theorems.2.1 _ ?_ _).1⟩
  intro key same
  cases named.symm.trans same
  exact descends

/-- A name that climbs is looked up outside of the path of the base, and one that begins with two
backslashes even on another host, although neither key is a URL. -/
theorem Store.Remote.climbing_key_leaves_base :
    (¬∀ (url key : String) (r : Store.Remote) (address : Address) (u : Url),
      base? url = .ok r.base → address.key r.resolver .content = .ok key →
      (∀ v, Url.parse none key ≠ .ok v) → r.urlOf key = .ok u →
      r.base.pathText.toList <+: u.pathText.toList) ∧
    ¬∀ (url key : String) (r : Store.Remote) (address : Address) (u : Url),
      base? url = .ok r.base → address.key r.resolver .content = .ok key →
      (∀ v, Url.parse none key ≠ .ok v) → r.urlOf key = .ok u →
      u.authority = r.base.authority := by
  have climbs : Url.parse none "partials/../../secret.html" = .error .noBase := by decide +kernel
  have slashes : Url.parse none "\\\\[::2]/a.html" = .error .noBase := by decide +kernel
  refine ⟨fun claim => ?_, fun claim => ?_⟩
  · have joined : (onHost "partials").base.join (reference "partials/../../secret.html") =
        .ok { (onHost "partials").base with path := .segments ["secret.html"] } := by
      decide +kernel
    have stays := claim "http://[::1]/tpl" _ _ { name := "../../secret" } _ (by decide +kernel)
      (by decide +kernel) (fun v same => by cases climbs.symm.trans same) (urlOf_ok joined)
    revert stays
    decide +kernel
  · have joined : (onHost "").base.join (reference "\\\\[::2]/a.html") =
        .ok ⟨"http", some ⟨"", none, "[::2]", none⟩, .segments ["a.html"], none, none⟩ := by
      decide +kernel
    have stays := claim "http://[::1]/tpl" _ _ { name := "\\\\[::2]/a" } _ (by decide +kernel)
      (by decide +kernel) (fun v same => by cases slashes.symm.trans same) (urlOf_ok joined)
    revert stays
    decide +kernel

end TemplateCache
