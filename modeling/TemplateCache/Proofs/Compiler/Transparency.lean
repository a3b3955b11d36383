import Mathlib.Data.List.Forall2
import TemplateCache.Proofs.Compiler.InMemory
import TemplateCache.Proofs.Compiler.Registration
import TemplateCache.Proofs.Naming

/-!
# Renderers that are used again

Whether a compiler in memory uses renderers again makes no difference to what it answers, as long as
the names that it is used with keep apart: a registration then makes every code key stale that may
have been compiled from the record which it replaces. The invariant is that a cached renderer was
made from the record that serves its key now.
-/

namespace TemplateCache

open Job

/-- The addresses under which a call compiles or registers. -/
def Command.addresses : Command → List Address
  | .compile input => [input.address]
  | .register name _ => [⟨name, none, none⟩]
  | _ => []

/-- The calls that compile, register, remove and clear. -/
def Command.IsCall : Command → Prop
  | .compile _ => True
  | .register _ _ => True
  | .unregister _ => True
  | .clear _ => True
  | _ => False

/-- Addresses that do not get into each other's way. -/
structure Resolver.Separates (r : Resolver) (used : List Address) : Prop where
  /-- A record makes the code keys stale under which content of its key is compiled: the one that
  belongs to the key, and if it has no parameters the plain one of its name. -/
  reach : ∀ a ∈ used, ∀ d ∈ used, ∀ {key}, a.key r .content = .ok key →
    d.key r .content = .ok key → a.key r .code = .ok (r.codeKeyOf key) ∨
      d.isBare = true ∧ a.key r .code = r.resolve d.name .code none none
  /-- Renderers of different content have different keys. -/
  apart : ∀ a ∈ used, ∀ d ∈ used, ∀ {codeKey}, a.key r .code = .ok codeKey →
    d.key r .code = .ok codeKey → a.key r .content = d.key r .content
  /-- No key has parameters under one address and none under another one. -/
  bare : ∀ a ∈ used, ∀ d ∈ used, ∀ {key}, a.key r .content = .ok key →
    d.key r .content = .ok key → a.isBare = d.isBare
  /-- Where a plain name may be served by a variant with another extension, no other name has the
  key of the variant, and nothing but the plain name has its own. -/
  variants : ∀ a ∈ used, ∀ v ∈ used, a.isPlain = true → v.isBare = true → v.name = a.name →
    ∀ {key variant}, a.key r .content = .ok key → v.key r .content = .ok variant →
    variant ≠ key → ∀ d ∈ used, (d.key r .content = .ok variant → d.name = a.name) ∧
      (d.key r .content = .ok key → d.isPlain = true ∧ d.name = a.name)

/-- Plain names keep apart, whatever they are. -/
theorem Resolver.separates_of_plain {r : Resolver} {used : List Address}
    (plain : ∀ a ∈ used, a.isPlain = true) : r.Separates used where
  reach a known d listed key keyed keyed' := by
    rw [Address.key_plain (plain a known)] at *
    rw [Address.key_plain (plain d listed)] at keyed'
    refine .inr ⟨Address.isBare_of_plain (plain d listed), ?_⟩
    rw [plain_code keyed, plain_code keyed']
  apart a known d listed codeKey coded coded' := by
    rw [Address.key_plain (plain a known)] at *
    rw [Address.key_plain (plain d listed)] at *
    obtain ⟨key, keyed⟩ : ∃ key, r.resolve a.name .content none none = .ok key :=
      resolve_ok (not_blank coded)
    rw [keyed, plain_content_of_code keyed (coded'.trans coded.symm)]
  bare a known d listed key _ _ := by
    rw [Address.isBare_of_plain (plain a known), Address.isBare_of_plain (plain d listed)]
  variants a known v used _ _ same key variant keyed keyed' other := by
    rw [Address.key_plain (plain a known)] at keyed
    rw [Address.key_plain (plain v used), same, keyed, Except.ok.injEq] at keyed'
    exact absurd keyed'.symm other

/-- Addresses without question marks keep apart where each key is asked for under one name only and
always plainly or never. -/
theorem Resolver.separates_of_whole {r : Resolver} {used : List Address}
    (suffix : '?' ∉ r.rules.codeSuffix.toList) (whole : ∀ a ∈ used, '?' ∉ (a.place r).toList)
    (alone : ∀ a ∈ used, ∀ d ∈ used, ∀ {key}, a.key r .content = .ok key →
      d.key r .content = .ok key → a.name = d.name ∧ a.isPlain = d.isPlain) :
    r.Separates used where
  reach a known d listed key keyed keyed' := by
    have placed := keyed.symm.trans (Address.key_place keyed .content)
    rw [Except.ok.injEq] at placed
    refine .inl ?_
    rw [Address.key_place keyed .code, placed, Resolver.suffix, String.append_empty,
      codeKeyOf_query (whole a known)]
    rfl
  apart a known d listed codeKey coded coded' := by
    have placed (a) (known : a ∈ used) : '?' ∉ (a.place r ++ r.rules.codeSuffix).toList := by
      rw [String.toList_append, List.mem_append, not_or]
      exact ⟨whole a known, suffix⟩
    have same := coded'.symm.trans (Address.key_place coded' .code)
    rw [← coded, Address.key_place coded .code, Except.ok.injEq] at same
    obtain ⟨place, query, -⟩ := query_inj (placed a known) (placed d listed) same
    rw [String.append_left_inj] at place
    rw [Address.key_place coded .content, Address.key_place coded' .content, place, query]
  bare a known d listed key keyed keyed' := by
    have same := keyed'.symm.trans (Address.key_place keyed' .content)
    rw [← keyed, Address.key_place keyed .content, Except.ok.injEq, Resolver.suffix,
      String.append_empty, String.append_empty] at same
    exact (query_inj (whole a known) (whole d listed) same).2.2
  variants a known v used plain _ same key variant keyed keyed' _ d listed :=
    ⟨fun own => (alone d listed v used own keyed').1.trans same,
      fun own => ⟨(alone d listed a known own keyed).2.trans plain,
        (alone d listed a known own keyed).1⟩⟩

/-! ## What serves an address -/

section

variable {resolver : Resolver} {used : List Address} {r : Registry} {a d : Address}
  {key codeKey name : String} {record served : ContentRecord}

/-- The records were registered under addresses that are used. -/
structure Registry.Of (resolver : Resolver) (used : List Address) (r : Registry) : Prop where
  record : ∀ {key record}, r.byKey.get? key = some record → record.key = key ∧
    ∃ a ∈ used, a.key resolver .content = .ok key ∧ record.params.isNone = a.isBare
  name : ∀ {name key}, key ∈ r.keysOf name →
    ∃ a ∈ used, a.name = name ∧ a.key resolver .content = .ok key

/-- A record without parameters under a key shows that the addresses of the key have none. -/
theorem Registry.Of.bare (of : r.Of resolver used) (separates : resolver.Separates used)
    (there : r.bareAt key = some record) (known : d ∈ used)
    (keyed : d.key resolver .content = .ok key) : d.isBare = true := by
  unfold Registry.bareAt at there
  rw [Option.filter_eq_some_iff] at there
  obtain ⟨-, a, listed, same, bare⟩ := of.record there.1
  rw [separates.bare d known a listed keyed same, ← bare]
  exact there.2

/-- A registration that leaves a code key alone leaves what serves the addresses there. -/
theorem Resolver.Separates.serving_insert (separates : resolver.Separates used)
    (of : r.Of resolver used) (known : a ∈ used) (listed : d ∈ used)
    (keyed : a.key resolver .content = .ok key) (coded : a.key resolver .code = .ok codeKey)
    (named : record.name = d.name) (placed : d.key resolver .content = .ok record.key)
    (same : record.params.isNone = d.isBare) (spared : codeKey ∉ Bench.codeKeys resolver record) :
    (r.insert record).serving a.name key a.isPlain = r.serving a.name key a.isPlain := by
  have plain_spared (bare : d.isBare = true) :
      resolver.resolve d.name .code none none ≠ .ok codeKey := fun reached => by
    rw [← same, Option.isNone_iff_eq_none] at bare
    exact spared (Bench.plain_mem_codeKeys bare (named ▸ reached))
  -- Under the key of the record itself, the code key would have become stale.
  have other : key ≠ record.key := by
    rintro rfl
    rcases separates.reach a known d listed keyed placed with own | ⟨bare, reached⟩
    · rw [coded, Except.ok.injEq] at own
      exact spared (own ▸ Bench.own_mem_codeKeys)
    · exact plain_spared bare (reached.symm.trans coded)
  refine Registry.serving_insert other fun plain unknown touched => ?_
  -- A record that may serve a plain name from another key has that name, whose code key it reaches.
  have unshared : d.isBare = false := by
    refine Bool.eq_false_iff.2 fun bare => ?_
    have names : a.name ≠ d.name := fun own =>
      plain_spared bare (own ▸ (Address.key_plain plain .code).symm.trans coded)
    rcases touched with own | shared
    · exact names (own.trans named)
    · obtain ⟨v, used, own, placed'⟩ := of.name shared
      have bare' : v.isBare = true := (separates.bare v used d listed placed' placed).trans bare
      exact names ((separates.variants a known v used plain bare' own keyed placed' other.symm d
        listed).1 placed).symm
  refine ⟨same.trans unshared, ?_⟩
  cases found : r.bareAt record.key with
  | none => rfl
  | some before =>
      rw [of.bare separates found listed placed] at unshared
      exact nomatch unshared

/-- A removal that leaves a code key alone leaves what serves the addresses there. -/
theorem Resolver.Separates.serving_remove (separates : resolver.Separates used)
    (of : r.Of resolver used) (known : a ∈ used) (keyed : a.key resolver .content = .ok key)
    (coded : a.key resolver .code = .ok codeKey)
    (spared : codeKey ∉ (r.variants name).map fun record => resolver.codeKeyOf record.key)
    (plain_spared : resolver.resolve name .code none none ≠ .ok codeKey) :
    (r.remove name).2.serving a.name key a.isPlain = r.serving a.name key a.isPlain := by
  refine Registry.serving_remove (fun listed => ?_) fun plain unknown => ⟨?_, ?_⟩
  · refine Option.eq_none_iff_forall_ne_some.2 fun record there => ?_
    obtain ⟨d, used, rfl, placed⟩ := of.name listed
    rcases separates.reach a known d used keyed placed with own | ⟨-, reached⟩
    · rw [coded, Except.ok.injEq] at own
      refine spared (List.mem_map.2 ⟨record, List.mem_filterMap.2 ⟨key, listed, there⟩, ?_⟩)
      rw [(of.record there).1, own]
    · exact plain_spared (reached.symm.trans coded)
  · rintro rfl
    exact plain_spared ((Address.key_plain plain .code).symm.trans coded)
  · intro variant own listed
    refine Option.eq_none_iff_forall_ne_some.2 fun record there => ?_
    obtain ⟨v, used, named, placed⟩ := of.name own
    obtain ⟨d, used', rfl, placed'⟩ := of.name listed
    have bare := of.bare separates there used placed
    have same := (separates.variants a known v used plain bare named keyed placed
      (Registry.bareAt_ne there unknown) d used').1 placed'
    rw [same] at plain_spared
    exact plain_spared ((Address.key_plain plain .code).symm.trans coded)

/-- Addresses with one code key are served alike. -/
theorem Resolver.Separates.serving_same (separates : resolver.Separates used)
    (of : r.Of resolver used) (known : a ∈ used) (listed : d ∈ used)
    (keyed : a.key resolver .content = .ok key) (coded : a.key resolver .code = .ok codeKey)
    (coded' : d.key resolver .code = .ok codeKey)
    (serves : r.serving a.name key a.isPlain = some served) :
    d.key resolver .content = .ok key ∧ r.serving d.name key d.isPlain = some served := by
  have keyed' : d.key resolver .content = .ok key :=
    (separates.apart d listed a known coded' coded).trans keyed
  refine ⟨keyed', ?_⟩
  cases found : r.byKey.get? key with
  | some record =>
      rw [Registry.serving_known found] at serves ⊢
      exact serves
  | none =>
      rw [Registry.serving_unknown found] at serves
      split at serves
      · rename_i plain
        obtain ⟨variant, own, there⟩ := List.exists_of_findSome?_eq_some serves
        obtain ⟨v, used, named, placed⟩ := of.name own
        obtain ⟨plain', same⟩ := (separates.variants a known v used plain
          (of.bare separates there used placed) named keyed placed
          (Registry.bareAt_ne there found) d listed).2 keyed'
        rw [Registry.serving_unknown found, if_pos plain', same, serves]
      · cases serves

theorem Registry.of_empty : (∅ : Registry).Of resolver used :=
  ⟨nofun, fun none => absurd none List.not_mem_nil⟩

theorem Registry.Of.register (of : r.Of resolver used) (listed : d ∈ used)
    (named : record.name = d.name) (placed : d.key resolver .content = .ok record.key)
    (same : record.params.isNone = d.isBare) : (r.register record).2.Of resolver used := by
  cases changed : (r.register record).1.2.changed with
  | false =>
      rw [Registry.register_unchanged changed]
      exact of
  | true =>
      obtain ⟨overridden, -, registry⟩ := Registry.register_changed changed
      rw [registry]
      refine ⟨fun {key found} there => ?_, fun {name key} there => ?_⟩
      · replace there := (KeyMap.get?_insert _ _ _ _).symm.trans there
        split at there
        · rename_i own
          cases there
          exact ⟨own.symm, d, listed, own ▸ placed, same⟩
        · exact of.record there
      · rcases Registry.mem_keysOf_insert.1 there with ⟨rfl, rfl⟩ | before
        · exact ⟨d, listed, named.symm, placed⟩
        · exact of.name before

theorem Registry.Of.remove (of : r.Of resolver used) (name : String) :
    (r.remove name).2.Of resolver used := by
  refine ⟨fun there => of.record ?_, fun there => of.name (Registry.mem_keysOf_remove there)⟩
  unfold Registry.remove at there
  rw [KeyMap.get?_filter, Option.filter_eq_some_iff] at there
  exact there.1

end

/-! ## What a bench knows -/

/-- A renderer was made from the record that serves all addresses with its code key. -/
def Registry.Vouches (c : Compiler Unit) (used : List Address) (r : Registry) (codeKey : String)
    (renderer : CodeRecord) : Prop :=
  renderer.key = codeKey ∧ ∀ a ∈ used, a.key c.store.resolver .code = .ok codeKey →
    ∃ key served, a.key c.store.resolver .content = .ok key ∧
      r.serving a.name key a.isPlain = some served ∧ c.MadeFrom served.content renderer

/-- No content is in the overlay, and its renderers are cached where renderers are used again. -/
structure Bench.Mirrored (c : Compiler Unit) (b : Bench Unit) : Prop where
  unread : ∀ key, b.site.overlay.content.get? key = none
  kept : c.settings.caching = true → ∀ {codeKey record},
    b.site.overlay.code.get? codeKey = some record → b.state.cache.get? codeKey = some record

/-- All that may be used again was made from the record that serves its key. -/
structure Bench.Faithful (c : Compiler Unit) (used : List Address) (b : Bench Unit) : Prop where
  unread : ∀ key, b.site.overlay.content.get? key = none
  of : b.state.registry.Of c.store.resolver used
  kept : c.settings.caching = true → ∀ {codeKey record},
    b.site.overlay.code.get? codeKey = some record → b.state.cache.get? codeKey = some record
  cached : c.settings.caching = true → ∀ {codeKey record},
    b.state.cache.get? codeKey = some record → b.state.registry.Vouches c used codeKey record

section

variable {c : Compiler Unit} {used : List Address} {a d : Address} {b b' : Bench Unit}
  {r r' : Registry} {record : ContentRecord} {renderer : CodeRecord} {key codeKey name : String}

/-- A change of the registry that leaves what serves the addresses with a code key. -/
theorem Registry.Vouches.keep (vouches : r.Vouches c used codeKey renderer)
    (stays : ∀ a ∈ used, ∀ {key}, a.key c.store.resolver .content = .ok key →
      a.key c.store.resolver .code = .ok codeKey →
        r'.serving a.name key a.isPlain = r.serving a.name key a.isPlain) :
    r'.Vouches c used codeKey renderer := by
  refine ⟨vouches.1, fun a known coded => ?_⟩
  obtain ⟨key, served, keyed, serves, made⟩ := vouches.2 a known coded
  exact ⟨key, served, keyed, (stays a known keyed coded).trans serves, made⟩

theorem Bench.Faithful.mirrored (faithful : b.Faithful c used) : b.Mirrored c :=
  ⟨faithful.unread, faithful.kept⟩

theorem Bench.Mirrored.register (mirrored : b.Mirrored c) (record : ContentRecord) :
    (Bench.register c.store.resolver record b).2.Mirrored c := by
  cases changed : (b.state.registry.register record).1.2.changed with
  | false =>
      rw [Bench.register_unchanged changed]
      exact ⟨mirrored.unread, mirrored.kept⟩
  | true =>
      rw [Bench.register_changed changed]
      refine ⟨?_, fun caching {codeKey found} there => ?_⟩
      · rw [Bench.content_invalidate]
        exact mirrored.unread
      -- The keys that become stale leave the overlay and the cache together.
      · rw [Bench.code_invalidate] at there
        rw [Bench.cache_invalidate, CodeCache.get?_invalidate]
        split at there
        · cases there
        · rw [if_neg ‹_›]
          exact mirrored.kept caching there

/-- The renderers that a removal leaves cached. -/
theorem Bench.cached_eraseName {resolver : Resolver} :
    (Bench.eraseName resolver name b).state.cache.get? codeKey = some renderer ↔
      codeKey ∉ b.detached resolver name ∧ b.state.cache.get? codeKey = some renderer ∧
        renderer.name ≠ name := by
  obtain ⟨keys, listed, cache⟩ : ∃ keys, (∀ k, k ∈ keys ↔ k ∈ b.detached resolver name) ∧
      (Bench.eraseName resolver name b).state.cache =
        ((b.state.cache.invalidate keys).2).dropName name := Bench.cache_eraseName
  rw [cache, CodeCache.get?_dropName, CodeCache.get?_invalidate, Option.filter_eq_some_iff,
    ← listed]
  by_cases named : codeKey ∈ keys
  · simp [named]
  · simp [named]

theorem Bench.Mirrored.unregister (mirrored : b.Mirrored c)
    (state : b'.state = (Bench.eraseName c.store.resolver name b).state)
    (overlay : b'.site.overlay =
      (Bench.eraseName c.store.resolver name b).site.overlay.eraseName name) :
    b'.Mirrored c := by
  refine ⟨fun key => ?_, fun caching {codeKey found} there => ?_⟩
  · rw [overlay]
    unfold Overlay.eraseName
    rw [KeyMap.get?_filter, Bench.content_eraseName, mirrored.unread]
    rfl
  · rw [overlay] at there
    unfold Overlay.eraseName Overlay.removeCode at there
    rw [KeyMap.get?_filter, Option.filter_eq_some_iff, Bench.code_eraseName] at there
    obtain ⟨there, other⟩ := there
    split at there
    · cases there
    · rw [state]
      exact Bench.cached_eraseName.2 ⟨‹_›, mirrored.kept caching there, by simpa using other⟩

theorem Bench.mirrored_blank (overlay : b.site.overlay = ∅) : b.Mirrored c := by
  refine ⟨fun key => ?_, fun caching {codeKey found} there => ?_⟩
  · rw [overlay]
    rfl
  · rw [overlay] at there
    cases there

theorem Bench.Faithful.register (faithful : b.Faithful c used)
    (separates : c.store.resolver.Separates used) (listed : d ∈ used)
    (named : record.name = d.name) (placed : d.key c.store.resolver .content = .ok record.key)
    (same : record.params.isNone = d.isBare) :
    (Bench.register c.store.resolver record b).2.Faithful c used := by
  obtain ⟨unread, kept⟩ := faithful.mirrored.register record
  have of :
      (Bench.register c.store.resolver record b).2.state.registry.Of c.store.resolver used := by
    rw [Bench.registry_register]
    exact faithful.of.register listed named placed same
  refine ⟨unread, of, kept, fun caching {codeKey found} there => ?_⟩
  cases changed : (b.state.registry.register record).1.2.changed with
  | false =>
      rw [Bench.register_unchanged changed] at there ⊢
      show (b.state.registry.register record).2.Vouches c used codeKey found
      rw [Registry.register_unchanged changed]
      exact faithful.cached caching there
  | true =>
      obtain ⟨overridden, stored, registry⟩ := Registry.register_changed changed
      rw [Bench.registry_register, registry]
      rw [Bench.register_changed changed, stored, Bench.cache_invalidate,
        CodeCache.get?_invalidate] at there
      split at there
      · cases there
      · rename_i spared
        exact (faithful.cached caching there).keep fun a known _ keyed coded =>
          separates.serving_insert faithful.of known listed keyed coded named placed same spared

theorem Bench.Faithful.unregister (faithful : b.Faithful c used)
    (separates : c.store.resolver.Separates used)
    (state : b'.state = (Bench.eraseName c.store.resolver name b).state)
    (overlay : b'.site.overlay =
      (Bench.eraseName c.store.resolver name b).site.overlay.eraseName name) :
    b'.Faithful c used := by
  obtain ⟨unread, kept⟩ := faithful.mirrored.unregister state overlay
  have registry : b'.state.registry = (b.state.registry.remove name).2 := by
    rw [state, Bench.registry_eraseName]
  refine ⟨unread, ?_, kept, fun caching {codeKey found} there => ?_⟩
  · rw [registry]
    exact faithful.of.remove name
  · rw [state] at there
    obtain ⟨spared, there, -⟩ := Bench.cached_eraseName.1 there
    unfold Bench.detached at spared
    rw [List.mem_append, not_or] at spared
    have plain_spared : c.store.resolver.resolve name .code none none ≠ .ok codeKey := by
      intro plain
      rw [plain] at spared
      exact spared.2 (List.mem_singleton_self _)
    rw [registry]
    exact (faithful.cached caching there).keep fun a known _ keyed coded =>
      separates.serving_remove faithful.of known keyed coded spared.1 plain_spared

theorem Bench.faithful_cleared (state : b'.state = b.cleared.state)
    (overlay : b'.site.overlay = ∅) : b'.Faithful c used := by
  obtain ⟨unread, kept⟩ : b'.Mirrored c := Bench.mirrored_blank overlay
  refine ⟨unread, ?_, kept, fun caching {codeKey found} there => ?_⟩
  · rw [state]
    exact Registry.of_empty
  · rw [state] at there
    cases there

theorem Compiler.make_ok {π : Type} {c : Compiler π} {address : Address}
    {codeKey contentKey : String} {found : Option ContentRecord} {made : CodeRecord}
    (makes : c.make address codeKey contentKey found = .ok made) :
    ∃ served, found = some served ∧ c.MadeFrom served.content made ∧ made.key = codeKey := by
  cases found with
  | none => cases makes
  | some served =>
      unfold Compiler.make at makes
      dsimp only at makes
      split at makes
      · cases makes
      · rename_i renderer generated
        cases makes
        exact ⟨served, rfl, generated, rfl⟩

/-- A renderer that was made is cached, as its compile began in this epoch. -/
theorem Compiler.get?_cacheAfter (sound : b.state.cache.Sound)
    (caching : c.settings.caching = true) (made : CodeRecord) (other : String) :
    (c.cacheAfter made.key b.state.cache.epoch b (.ok made)).get? other =
      if other = made.key then some made else b.state.cache.get? other := by
  have inserted : c.cacheAfter made.key b.state.cache.epoch b (.ok made) =
      (b.state.cache.insert made b.state.cache.epoch).2 := if_pos caching
  rw [inserted, CodeCache.insert_fresh sound.fresh]
  exact KeyMap.get?_insert _ _ _ _

theorem Bench.Mirrored.leaves (mirrored : b.Mirrored c) (sound : b.state.cache.Sound)
    {found : Option ContentRecord}
    (missed : c.settings.caching = true → b.state.cache.get? codeKey = none)
    (leaves : c.Leaves codeKey b.state.cache.epoch b (c.make a codeKey key found) b') :
    b'.Mirrored c := by
  obtain ⟨-, content, code, cache⟩ := leaves
  refine ⟨fun key => ?_, fun caching {other renderer} there => ?_⟩
  · rw [content]
    exact mirrored.unread key
  · rw [cache]
    cases makes : c.make a codeKey key found with
    | error e =>
        rw [makes] at code
        rcases code other renderer there with before | ⟨-, failed⟩
        · exact mirrored.kept caching before
        · cases failed
    | ok made =>
        rw [makes] at code
        obtain ⟨-, -, -, rfl⟩ := Compiler.make_ok makes
        rw [Compiler.get?_cacheAfter sound caching]
        rcases code other renderer there with before | ⟨rfl, same⟩
        · have cached := mirrored.kept caching before
          split
          -- The key that was compiled had no renderer in the overlay either.
          · rename_i own
            rw [own, missed caching] at cached
            cases cached
          · exact cached
        · cases same
          exact if_pos rfl

/-- A compile that found no renderer caches one that was made from what serves all addresses with
its code key. -/
theorem Bench.Faithful.leaves (faithful : b.Faithful c used)
    (separates : c.store.resolver.Separates used) (sound : b.state.cache.Sound) (known : a ∈ used)
    (keyed : a.key c.store.resolver .content = .ok key)
    (coded : a.key c.store.resolver .code = .ok codeKey)
    (missed : c.settings.caching = true → b.state.cache.get? codeKey = none)
    (leaves : c.Leaves codeKey b.state.cache.epoch b
      (c.make a codeKey key (b.state.registry.serving a.name key a.isPlain)) b') :
    b'.Faithful c used := by
  obtain ⟨unread, kept⟩ := faithful.mirrored.leaves sound missed leaves
  obtain ⟨registry, -, -, cache⟩ := leaves
  have of : b'.state.registry.Of c.store.resolver used := by
    rw [registry]
    exact faithful.of
  refine ⟨unread, of, kept, fun caching {other found} there => ?_⟩
  rw [registry]
  cases makes : c.make a codeKey key (b.state.registry.serving a.name key a.isPlain) with
  | error e =>
      rw [cache, makes] at there
      exact faithful.cached caching there
  | ok made =>
      obtain ⟨served, serves, from_, rfl⟩ := Compiler.make_ok makes
      rw [cache, makes, Compiler.get?_cacheAfter sound caching] at there
      split at there
      · rename_i own
        cases there
        refine ⟨own.symm, fun d listed coded' => ?_⟩
        obtain ⟨keyed', serves'⟩ := separates.serving_same faithful.of known listed keyed coded
          (own ▸ coded') serves
        exact ⟨key, served, keyed', serves', from_⟩
      · exact faithful.cached caching there

end

/-! ## Calls -/

/-- A registry once the content that comes with a compile is registered. -/
def Registry.accept (contentKey : String) (input : CompileInput) (r : Registry) : Registry :=
  match input.content with
  | none => r
  | some content => (r.register (input.record contentKey content)).2

/-- What a compiler answers that looks at nothing but its registry. -/
def Compiler.consult {π : Type} (c : Compiler π) (r : Registry) :
    Command → Except CompileError Answer × Registry
  | .compile input =>
    let address := input.address
    match address.key c.store.resolver .code, address.key c.store.resolver .content with
    | .ok codeKey, .ok contentKey =>
      let r := r.accept contentKey input
      ((c.make address codeKey contentKey
        (r.serving address.name contentKey address.isPlain)).map .code, r)
    | .error e, _ => (.error (.naming e), r)
    | _, .error e => (.error (.naming e), r)
  | .register name content =>
    match c.store.resolver.resolve name .content none none with
    | .error e => (.error (.naming e), r)
    | .ok key =>
      let record := ContentRecord.make name key content .explicit none none
      (.ok (.content (r.register record).1.1), (r.register record).2)
  | .unregister name =>
    match c.store.resolver.resolve name .content none none with
    | .error e => (.error (.naming e), r)
    | .ok _ => (.ok .nothing, (r.remove name).2)
  | .clear _ => (.ok .nothing, ∅)
  | _ => (.ok .nothing, r)

section

variable {π : Type} {c : Compiler π} {r : Registry} {input : CompileInput}
  {name codeKey contentKey : String} {content : Content} {e : NameError}

theorem Compiler.consult_compile (coded : input.address.key c.store.resolver .code = .ok codeKey)
    (keyed : input.address.key c.store.resolver .content = .ok contentKey) :
    c.consult r (.compile input) = ((c.make input.address codeKey contentKey
      ((r.accept contentKey input).serving input.address.name contentKey
        input.address.isPlain)).map .code, r.accept contentKey input) := by
  delta consult
  simp only [coded, keyed]

theorem Compiler.consult_compile_unnamed
    (unnamed : input.address.key c.store.resolver .code = .error e) :
    c.consult r (.compile input) = (.error (.naming e), r) := by
  delta consult
  simp only [unnamed]

theorem Compiler.consult_register
    (named : c.store.resolver.resolve name .content none none = .ok contentKey) :
    c.consult r (.register name content) =
      (.ok (.content (r.register (.make name contentKey content .explicit none none)).1.1),
        (r.register (.make name contentKey content .explicit none none)).2) := by
  delta consult
  simp only [named]

theorem Compiler.consult_register_unnamed
    (unnamed : c.store.resolver.resolve name .content none none = .error e) :
    c.consult r (.register name content) = (.error (.naming e), r) := by
  delta consult
  simp only [unnamed]

theorem Compiler.consult_unregister
    (named : c.store.resolver.resolve name .content none none = .ok contentKey) :
    c.consult r (.unregister name) = (.ok .nothing, (r.remove name).2) := by
  delta consult
  simp only [named]

theorem Compiler.consult_unregister_unnamed
    (unnamed : c.store.resolver.resolve name .content none none = .error e) :
    c.consult r (.unregister name) = (.error (.naming e), r) := by
  delta consult
  simp only [unnamed]

end

/-- Two answers are renderers under one key that were made from the same content, or they are the
same and no renderers. -/
inductive Compiler.Alike {π : Type} (c : Compiler π) :
    Except CompileError Answer → Except CompileError Answer → Prop where
  | code {record other : CodeRecord} {content : Content} (key : other.key = record.key)
      (made : c.MadeFrom content record) (also : c.MadeFrom content other) :
      Alike c (.ok (.code record)) (.ok (.code other))
  | same {answer : Except CompileError Answer} (other : ∀ record, answer ≠ .ok (.code record)) :
      Alike c answer answer

section

variable {π : Type} {c : Compiler π} {answer first second : Except CompileError Answer}
  {answers firsts seconds : List (Except CompileError Answer)}

theorem Compiler.alike_error (e : CompileError) : c.Alike (.error e) (.error e) :=
  .same fun _ same => by cases same

theorem Compiler.alike_content (record : ContentRecord) :
    c.Alike (.ok (.content record)) (.ok (.content record)) := .same fun _ same => by cases same

theorem Compiler.alike_nothing : c.Alike (.ok .nothing) (.ok .nothing) :=
  .same fun _ same => by cases same

/-- What is like the same answer is alike. -/
theorem Compiler.Alike.join (h : c.Alike answer first) (h' : c.Alike answer second) :
    c.Alike first second := by
  cases h with
  | code key made also =>
      cases h' with
      | code key' made' also' =>
          refine .code (key'.trans key.symm) also ?_
          unfold MadeFrom at *
          rw [made, ← made', also']
      | same other => exact absurd rfl (other _)
  | same other =>
      cases h' with
      | code key' made' also' => exact absurd rfl (other _)
      | same => exact .same other

theorem Compiler.Alike.joinAll (h : List.Forall₂ c.Alike answers firsts)
    (h' : List.Forall₂ c.Alike answers seconds) : List.Forall₂ c.Alike firsts seconds := by
  induction h generalizing seconds with
  | nil =>
      cases h'
      exact .nil
  | cons alike _ ih =>
      cases h' with
      | cons alike' rest => exact .cons (alike.join alike') (ih rest)

/-- It makes no difference to which renderers are alike whether they are used again. -/
theorem Compiler.Alike.of_caching {settings : CompilerSettings} {generator : Generator}
    {resolver : Resolver} {caching : Bool}
    (h : (Compiler.inMemory { settings with caching := caching } generator resolver).Alike
      first second) :
    (Compiler.inMemory settings generator resolver).Alike first second := by
  cases h with
  | code key made also => exact .code key made also
  | same other => exact .same other

end

section

variable {settings : CompilerSettings} {generator : Generator} {resolver : Resolver}
  {used : List Address} {b : Bench Unit}

/-- A call is answered as the registry has it, and the bench stays faithful. -/
def Bench.Answers (c : Compiler Unit) (used : List Address) (call : Command) (b : Bench Unit)
    (answer : Except CompileError Answer) (d : Bench Unit) : Prop :=
  c.Alike (c.consult b.state.registry call).1 answer ∧
    d.state.registry = (c.consult b.state.registry call).2 ∧ d.Faithful c used

/-- Accepted content is registered, and it is what serves the address then. -/
theorem Bench.accept_spec (resolver : Resolver) (b : Bench Unit) (contentKey : String)
    (input : CompileInput) :
    let accepted := b.accept resolver input.address contentKey input.content
    let served := accepted.2.state.registry.serving input.address.name contentKey
      input.address.isPlain
    accepted.2.state.registry = b.state.registry.accept contentKey input ∧
      b.Sheds accepted.2 ∧ accepted.1.or served = served := by
  obtain ⟨address, content⟩ := input
  cases content with
  | none => exact ⟨rfl, .refl b, rfl⟩
  | some content =>
      let record := (CompileInput.mk address (some content)).record contentKey content
      have there : (Bench.register resolver record b).2.state.registry.byKey.get? contentKey =
          some (Bench.register resolver record b).1 := by
        rw [Bench.registry_register]
        exact Registry.register_stored
      exact ⟨Bench.registry_register record, Bench.sheds_register record,
        (Registry.serving_known there).symm⟩

theorem Bench.Faithful.accept {c : Compiler Unit} {contentKey : String}
    (faithful : b.Faithful c used) (separates : c.store.resolver.Separates used)
    {input : CompileInput} (known : input.address ∈ used)
    (keyed : input.address.key c.store.resolver .content = .ok contentKey) :
    (b.accept c.store.resolver input.address contentKey input.content).2.Faithful c used := by
  obtain ⟨address, content⟩ := input
  cases content with
  | none => exact faithful
  | some content =>
      refine faithful.register separates known rfl keyed ?_
      show (address.params.filter fun p => !p.isEmpty).isNone =
        address.params.all fun p => p.isEmpty
      cases address.params with
      | none => rfl
      | some p => cases empty : p.isEmpty <;> simp [Option.filter, empty]

theorem Compiler.alike_make {π : Type} (c : Compiler π) (address : Address)
    (codeKey contentKey : String) (found : Option ContentRecord) :
    c.Alike ((c.make address codeKey contentKey found).map .code)
      ((c.make address codeKey contentKey found).map .code) := by
  cases makes : c.make address codeKey contentKey found with
  | error e => exact c.alike_error _
  | ok record =>
      obtain ⟨served, -, made, -⟩ := c.make_ok makes
      exact .code rfl made made

theorem Compiler.alike_cached {π : Type} {c : Compiler π} {served : ContentRecord}
    {record : CodeRecord} (made : c.MadeFrom served.content record) (address : Address)
    (contentKey : String) :
    c.Alike ((c.make address record.key contentKey (some served)).map .code)
      (.ok (.code record)) := by
  unfold make
  dsimp only
  rw [made]
  exact .code rfl made made

/-- A compile answers as the registry has it, with a cached renderer or a new one. -/
theorem ends_answer_compile (separates : resolver.Separates used)
    (faithful : b.Faithful (.inMemory settings generator resolver) used) (resting : b.Resting)
    {input : CompileInput} (known : input.address ∈ used) :
    (Command.work (.inMemory settings generator resolver) (.compile input)).run.Ends
      (b.Answers (.inMemory settings generator resolver) used (.compile input)) b := by
  let c := Compiler.inMemory settings generator resolver
  cases coded : input.address.key resolver .code with
  | error e =>
      have refused : (c.compile input).run = .done (.error (.naming e)) :=
        Session.compile_unnamed coded
      refine ⟨.error (.naming e), b, ?_, ?_⟩
      · exact congrArg (fun job => Job.finish (Job.bind job _) b) refused
      · unfold Bench.Answers
        rw [Compiler.consult_compile_unnamed (c := .inMemory settings generator resolver) coded]
        exact ⟨Compiler.alike_error _, rfl, faithful⟩
  | ok codeKey =>
      obtain ⟨contentKey, keyed⟩ : ∃ key, input.address.key resolver .content = .ok key :=
        Resolver.resolve_ok (Resolver.not_blank coded)
      have accepted : (b.accept resolver input.address contentKey input.content).2.Faithful c
          used := faithful.accept separates known keyed
      obtain ⟨registry, sheds, served⟩ := b.accept_spec resolver contentKey input
      have rested := sheds.resting resting
      -- A renderer in the overlay is cached too, so one that is not cached is not found there.
      have missing (caching : settings.caching = true) (_ : input.content = none)
          (uncached : b.state.cache.get? codeKey = none) :
          b.site.overlay.code.get? codeKey = none := by
        refine Option.eq_none_iff_forall_ne_some.2 fun record there => ?_
        rw [faithful.kept caching there] at uncached
        cases uncached
      refine Ends.mapExcept ((ends_compile coded keyed input.content (rested.free codeKey)
        (accepted.unread contentKey) missing).mono ?_)
      generalize b.accept resolver input.address contentKey input.content = given at *
      obtain ⟨given, d⟩ := given
      dsimp only at *
      unfold Bench.Answers
      rw [Compiler.consult_compile (c := .inMemory settings generator resolver) coded keyed,
        ← registry]
      rintro r u (⟨caching, rfl, record, cached, rfl⟩ | ⟨missed, made, leaves⟩)
      -- The cached renderer was made from what a compile without a cache would have found.
      · obtain ⟨rfl, serves⟩ := accepted.cached caching cached
        obtain ⟨key, served, keyed', serves, made⟩ := serves input.address known coded
        cases keyed.symm.trans keyed'
        rw [serves]
        exact ⟨Compiler.alike_cached made input.address contentKey, rfl, accepted⟩
      · rw [served] at made
        subst made
        exact ⟨c.alike_make .., leaves.registry,
          accepted.leaves separates rested.sound.cache known keyed coded missed leaves⟩

theorem ends_answer_register (separates : resolver.Separates used)
    (faithful : b.Faithful (.inMemory settings generator resolver) used) {name : String}
    (known : ⟨name, none, none⟩ ∈ used) (content : Content) :
    (Command.work (.inMemory settings generator resolver) (.register name content)).run.Ends
      (b.Answers (.inMemory settings generator resolver) used (.register name content)) b := by
  unfold Bench.Answers
  cases named : resolver.resolve name .content none none with
  | error e =>
      rw [Compiler.consult_register_unnamed (c := .inMemory settings generator resolver) named]
      refine ⟨.error (.naming e), b, ?_, Compiler.alike_error _, rfl, faithful⟩
      simp only [Command.work, Compiler.register, Compiler.inMemory, Store.memory, named]
      rfl
  | ok key =>
      rw [Compiler.consult_register (c := .inMemory settings generator resolver) named]
      exact ⟨_, _, finish_register named content, Compiler.alike_content _,
        Bench.registry_register _, faithful.register separates known rfl named rfl⟩

theorem ends_answer_unregister (separates : resolver.Separates used)
    (faithful : b.Faithful (.inMemory settings generator resolver) used) (name : String) :
    (Command.work (.inMemory settings generator resolver) (.unregister name)).run.Ends
      (b.Answers (.inMemory settings generator resolver) used (.unregister name)) b := by
  unfold Bench.Answers
  cases named : resolver.resolve name .content none none with
  | error e =>
      rw [Compiler.consult_unregister_unnamed (c := .inMemory settings generator resolver) named]
      refine ⟨.error (.naming e), b, ?_, Compiler.alike_error _, rfl, faithful⟩
      simp only [Command.work, Compiler.unregister, Compiler.inMemory, Store.memory, named]
      rfl
  | ok key =>
      rw [Compiler.consult_unregister (c := .inMemory settings generator resolver) named]
      refine (ends_unregister named).mono ?_
      rintro _ d ⟨rfl, state, overlay⟩
      refine ⟨Compiler.alike_nothing, ?_, faithful.unregister separates state overlay⟩
      rw [state]
      exact Bench.registry_eraseName

/-- Every call is answered as the registry has it. -/
theorem ends_answer (separates : resolver.Separates used)
    (faithful : b.Faithful (.inMemory settings generator resolver) used) (resting : b.Resting)
    {call : Command} (asked : call.IsCall) (known : ∀ a ∈ call.addresses, a ∈ used) :
    (call.work (.inMemory settings generator resolver)).run.Ends
      (b.Answers (.inMemory settings generator resolver) used call) b := by
  cases call with
  | compile input =>
      exact ends_answer_compile separates faithful resting (known _ (List.mem_singleton_self _))
  | register name content =>
      exact ends_answer_register separates faithful (known _ (List.mem_singleton_self _)) content
  | unregister name => exact ends_answer_unregister separates faithful name
  | clear all =>
      refine (ends_clear all).mono ?_
      rintro _ d ⟨rfl, state, overlay⟩
      refine ⟨Compiler.alike_nothing, ?_, Bench.faithful_cleared state overlay⟩
      rw [state]
      rfl
  | _ => exact asked.elim

/-- Answers calls, each of which is made when the one before has ended. -/
def Compiler.serve {π : Type} (c : Compiler π) :
    List Command → Bench π → Option (List (Except CompileError Answer) × Bench π)
  | [], b => some ([], b)
  | call :: rest, b =>
    match (call.work c).run.finish b with
    | none => none
    | some (answer, b) => (c.serve rest b).map fun (answers, b) => (answer :: answers, b)

/-- What a compiler answers to calls that looks at nothing but its registry. -/
def Compiler.consultAll {π : Type} (c : Compiler π) (r : Registry) :
    List Command → List (Except CompileError Answer)
  | [] => []
  | call :: rest => (c.consult r call).1 :: c.consultAll (c.consult r call).2 rest

/-- The registry does not tell whether renderers are used again. -/
theorem Compiler.consultAll_caching (caching : Bool) (r : Registry) (calls : List Command) :
    (Compiler.inMemory { settings with caching := caching } generator resolver).consultAll r calls =
      (Compiler.inMemory settings generator resolver).consultAll r calls := by
  induction calls generalizing r with
  | nil => rfl
  | cons call rest ih => exact congrArg (_ :: ·) (ih _)

/-- Calls are answered as the registry has it. -/
theorem serve_consults (settings : CompilerSettings) (generator : Generator)
    (separates : resolver.Separates used)
    (faithful : b.Faithful (.inMemory settings generator resolver) used) (resting : b.Resting)
    {calls : List Command} (asked : ∀ call ∈ calls, call.IsCall)
    (known : ∀ call ∈ calls, ∀ a ∈ call.addresses, a ∈ used) :
    ∃ answers d, (Compiler.inMemory settings generator resolver).serve calls b =
        some (answers, d) ∧
      List.Forall₂ (Compiler.inMemory settings generator resolver).Alike
        ((Compiler.inMemory settings generator resolver).consultAll b.state.registry calls)
        answers := by
  induction calls generalizing b with
  | nil => exact ⟨[], b, rfl, .nil⟩
  | cons call rest ih =>
      rw [List.forall_mem_cons] at asked known
      obtain ⟨answer, d, ends, alike, registry, faithful'⟩ :=
        ends_answer separates faithful resting asked.1 known.1
      have resting' : d.Resting :=
        (Compiler.does_of_finish ends).resting Store.memory_lawful resting
      obtain ⟨answers, e, served, alikes⟩ := ih faithful' resting' asked.2 known.2
      refine ⟨answer :: answers, e, ?_, ?_⟩
      · unfold Compiler.serve
        rw [ends]
        dsimp only
        rw [served]
        rfl
      · rw [registry] at alikes
        exact .cons alike alikes

end

theorem Bench.faithful_start {c : Compiler Unit} {used : List Address} {site : Site Unit}
    (blank : site.overlay = ∅) : (Compiler.start site).Faithful c used := by
  obtain ⟨unread, kept⟩ : (Compiler.start site).Mirrored c := Bench.mirrored_blank blank
  exact ⟨unread, Registry.of_empty, kept, fun caching {codeKey found} there => nomatch there⟩

/-- Compilers in memory that differ in nothing but whether they use renderers again answer alike. -/
def Compiler.CachesUnseen (settings : CompilerSettings) (generator : Generator)
    (resolver : Resolver) (calls : List Command) (site other : Site Unit) : Prop :=
  ∃ answers others d e,
    (Compiler.inMemory { settings with caching := true } generator resolver).serve calls
      (Compiler.start site) = some (answers, d) ∧
    (Compiler.inMemory { settings with caching := false } generator resolver).serve calls
      (Compiler.start other) = some (others, e) ∧
    List.Forall₂ (Compiler.inMemory settings generator resolver).Alike answers others

/-- Whether renderers are used again makes no difference as long as names keep apart. -/
theorem caching_is_transparent (settings : CompilerSettings) (generator : Generator)
    (resolver : Resolver) {calls : List Command} (asked : ∀ call ∈ calls, call.IsCall)
    (separates : resolver.Separates (calls.flatMap Command.addresses)) {site other : Site Unit}
    (blank : site.overlay = ∅) (blank' : other.overlay = ∅) :
    Compiler.CachesUnseen settings generator resolver calls site other := by
  have known : ∀ call ∈ calls, ∀ a ∈ call.addresses, a ∈ calls.flatMap Command.addresses :=
    fun call there a listed => List.mem_flatMap.2 ⟨call, there, listed⟩
  have served (caching : Bool) {site : Site Unit} (blank : site.overlay = ∅) :=
    have keyed : site.Keyed := fun key record found => by
      rw [blank] at found
      exact nomatch found
    serve_consults { settings with caching := caching } generator separates
      (Bench.faithful_start blank) (Bench.resting_start keyed) asked known
  obtain ⟨answers, d, runs, alike⟩ := served true blank
  obtain ⟨others, e, runs', alike'⟩ := served false blank'
  rw [Compiler.consultAll_caching] at alike alike'
  exact ⟨answers, others, d, e, runs, runs', Compiler.Alike.joinAll
    (alike.imp fun _ _ => Compiler.Alike.of_caching)
    (alike'.imp fun _ _ => Compiler.Alike.of_caching)⟩

namespace Sample

/-- Calls with a name, its variants, and a plain compile that a variant serves. -/
def calls : List Command := [
  .compile ⟨⟨"a", some "txt", none⟩, some (.text "a")⟩,
  .compile ⟨⟨"a", none, none⟩, none⟩,
  .register "a" (.text "b"),
  .compile ⟨⟨"a", none, none⟩, none⟩,
  .compile ⟨⟨"a", none, some (KeyMap.empty.insert "lang" "fr")⟩, some (.text "c")⟩,
  .unregister "a",
  .compile ⟨⟨"a", some "txt", none⟩, none⟩,
  .clear true]

/-- A variant of a name with a question mark, with a text and then with another one. -/
def asked : List Command := [
  .compile ⟨⟨"a?b", some "txt", none⟩, some (.text "old")⟩,
  .compile ⟨⟨"a?b", some "txt", none⟩, some (.text "new")⟩]

def source : Except CompileError Answer → Option String
  | .ok (.code record) => record.renderer.source
  | _ => none

theorem source_alike {c : Compiler Unit} {answer other : Except CompileError Answer}
    (h : c.Alike answer other) : source answer = source other := by
  cases h with
  | code key made also =>
      unfold Compiler.MadeFrom at *
      rw [made, Except.ok.injEq] at also
      simp only [source, also]
  | same => rfl

end Sample

open Sample

theorem variants_are_transparent :
    resolver.Separates (calls.flatMap Command.addresses) ∧
      Compiler.CachesUnseen {} generator resolver calls { own := () } { own := () } := by
  have alone : ∀ a ∈ calls.flatMap Command.addresses, ∀ d ∈ calls.flatMap Command.addresses,
      a.key resolver .content = d.key resolver .content →
        a.name = d.name ∧ a.isPlain = d.isPlain := by decide +kernel
  have separates : resolver.Separates (calls.flatMap Command.addresses) :=
    Resolver.separates_of_whole (by decide +kernel) (by decide +kernel)
      fun a known d listed _ keyed keyed' => alone a known d listed (keyed.trans keyed'.symm)
  have asked : ∀ call ∈ calls, call.IsCall := by
    simp [calls, Command.IsCall]
  exact ⟨separates, caching_is_transparent {} generator resolver asked separates rfl rfl⟩

/-- The key of the variant is cut at the question mark of the name, so its renderer stays. -/
theorem question_mark_shows_cache :
    (∀ call ∈ asked, call.IsCall) ∧
      ¬Compiler.CachesUnseen {} generator resolver asked { own := () } { own := () } := by
  refine ⟨by simp [asked, Command.IsCall], ?_⟩
  rintro ⟨answers, others, d, e, runs, runs', alike⟩
  have stale : ((Compiler.inMemory {} generator resolver).serve asked
      (Compiler.start { own := () })).map (·.1.map source) = some [some "old", some "old"] := by
    decide
  have fresh : ((Compiler.inMemory { caching := false } generator resolver).serve asked
      (Compiler.start { own := () })).map (·.1.map source) = some [some "old", some "new"] := by
    decide
  replace runs : (Compiler.inMemory {} generator resolver).serve asked
    (Compiler.start { own := () }) = some (answers, d) := runs
  rw [runs, Option.map_some, Option.some.injEq] at stale
  rw [runs', Option.map_some, Option.some.injEq] at fresh
  have same : answers.map source = others.map source := by
    rw [← List.forall₂_eq_eq_eq, List.forall₂_map_left_iff, List.forall₂_map_right_iff]
    exact alike.imp fun _ _ => source_alike
  rw [stale, fresh] at same
  exact absurd same (by decide)

end TemplateCache
