import TemplateCache.Generator.Basic
import TemplateCache.Proofs.Naming
import TemplateCache.Proofs.Store.Document
import TemplateCache.Proofs.Store.Sources
import TemplateCache.Store.Memory

/-!
# Variants apart in stores

Content that comes with parameters is a variant, all other content is common. A store keeps the two
apart if what it returns for a request without parameters is common as long as the medium has
nothing else to offer there: `Sorts` is that contract. It holds of all stores. A document of a
key-value engine does not tell its parameters, so there the medium has to have common content also
under those keys with parameters that are loaded.
-/

namespace TemplateCache

open Job

variable {π : Type}

/-- A key without a query. -/
def BareKey (key : String) : Prop := '?' ∉ key.toList

theorem BareKey.left {a b : String} (bare : BareKey (a ++ b)) : BareKey a := by
  intro asks
  exact bare (by rw [String.toList_append]; exact List.mem_append_left _ asks)

theorem BareKey.right {a b : String} (bare : BareKey (a ++ b)) : BareKey b := by
  intro asks
  exact bare (by rw [String.toList_append]; exact List.mem_append_right _ asks)

namespace Address

variable {a : Address} {r : Resolver} {key contentKey codeKey : String} {space : KeySpace}

theorem isBare_of_query (nothing : Resolver.query a.params = "") : a.isBare = true := by
  unfold isBare
  cases params : a.params with
  | none => rfl
  | some p =>
      rw [params] at nothing
      unfold Resolver.query at nothing
      dsimp only at nothing
      split at nothing
      · rename_i empty
        exact empty
      · have asks : '?' ∈ ("?" ++ p.canonical).toList := by
          rw [String.toList_append]
          exact List.mem_append_left _ (List.mem_singleton_self _)
        rw [nothing] at asks
        exact nomatch asks

/-- Only a request without parameters has a key without a query. -/
theorem isBare_of_key (named : a.key r space = .ok key) (bare : BareKey key) :
    a.isBare = true := by
  have made := (key_place named space).symm.trans named
  cases made
  exact isBare_of_query (Resolver.query_whole bare.right)

/-- Where the code key has no query, the content key has none. -/
theorem bareKey_content (coded : a.key r .code = .ok codeKey)
    (keyed : a.key r .content = .ok contentKey) (bare : BareKey codeKey) :
    BareKey contentKey := by
  have code := (key_place coded .code).symm.trans coded
  have content := (key_place coded .content).symm.trans keyed
  cases code
  cases content
  rw [Resolver.query_whole bare.right, String.append_empty]
  rw [Resolver.query_whole bare.right, String.append_empty] at bare
  show BareKey (_ ++ "")
  rw [String.append_empty]
  exact bare.left

end Address

/-- A choice among contents: those that count as common. Sources of renderers count as common at
least where the renderer was made of common content. -/
structure Common (generator : Generator) (options : Json.Value) where
  content : Content → Prop
  source : String → Prop
  generated : ∀ {x : Content} {renderer : Renderer} {text : String}, content x →
    generator.generate x options = .ok renderer → renderer.source = some text → source text

namespace Common

variable {generator : Generator} {options : Json.Value} (k : Common generator options)

/-- A renderer that is made of common content. -/
def Generates (renderer : Renderer) : Prop :=
  ∃ x, k.content x ∧ generator.generate x options = .ok renderer

/-- A renderer that is made of common content, or loaded from a common source. -/
def Renders (renderer : Renderer) : Prop :=
  k.Generates renderer ∨ ∃ text, k.source text ∧ generator.load text options = .ok renderer

/-- A record that may serve a request without parameters has common content. -/
def Suits (record : ContentRecord) : Prop :=
  BareKey record.key ∨ record.params = none → k.content record.content

/-- Stored code that is common. -/
def Offers : StoredCode → Prop
  | .live record => k.Renders record.renderer
  | .text _ _ text => k.source text

/-- A record that is found under a key stands there by right. -/
def Finds (key : String) (found : Option ContentRecord) : Prop :=
  ∀ record, found = some record → record.key = key ∧ k.Suits record

/-- Code that is found under a key has it, and is common if the key has no query. -/
def FindsCode (key : String) (found : Option StoredCode) : Prop :=
  ∀ code, found = some code →
    (∀ record, code = .live record → record.key = key) ∧ (BareKey key → k.Offers code)

/-- A renderer that is returned for a key is common if the key has no query. -/
def Serves (key : String) (record : CodeRecord) : Prop := BareKey key → k.Renders record.renderer

/-- A renderer that is found under a key has it. -/
def FindsRenderer (key : String) (found : Option CodeRecord) : Prop :=
  ∀ record, found = some record → record.key = key ∧ k.Serves key record

end Common

/-- What is demanded of the surroundings of a store: of what it remembers itself and of what it
shares with others, of the documents that it is asked to load, and of the content that it is given
to write. -/
structure Supply (π : Type) where
  own : π → Prop
  shared : Environment → Prop
  loads : Address → (contentKey : String) → Prop
  /-- Whether it may be asked to load everything. -/
  scans : Prop
  writes : Address → (contentKey : String) → Content → Prop

/-- A site at which requests without parameters find common content only. -/
structure Site.Sorted {generator : Generator} {options : Json.Value} (k : Common generator options)
    (supply : Supply π) (s : Site π) : Prop where
  content : ∀ key, k.Finds key (s.overlay.content.get? key)
  code : ∀ key, k.FindsRenderer key (s.overlay.code.get? key)
  own : supply.own s.own
  shared : supply.shared s.environment

/-- A store that keeps variants apart. -/
structure Store.Sorts {generator : Generator} {options : Json.Value} (store : Store π)
    (k : Common generator options) (supply : Supply π) : Prop where
  passes : ∀ {e : Environment} (clock : Clock), supply.shared e →
    supply.shared { e with clock := clock }
  readContent : ∀ {address : Address} {key : String} (token : Token),
    address.key store.resolver .content = .ok key → supply.loads address key →
    Yields (Site.Sorted k supply) (k.Finds key) (store.readContent address token)
  writeContent : ∀ {address : Address} {key : String} {content : Content} (token : Token),
    address.key store.resolver .content = .ok key → supply.writes address key content →
    Yields (Site.Sorted k supply) (fun _ => True) (store.writeContent address content token)
  readCode : ∀ {address : Address} {key : String} (token : Token),
    address.key store.resolver .code = .ok key →
    Yields (Site.Sorted k supply) (k.FindsCode key) (store.readCode address token)
  writeCode : ∀ {address : Address} {key : String} {renderer : Renderer} (token : Token),
    address.key store.resolver .code = .ok key → (BareKey key → k.Generates renderer) →
    Yields (Site.Sorted k supply) (fun record => record = ⟨key, address.name, renderer⟩)
      (store.writeCode address renderer token)
  scan : supply.scans → ∀ token, (store.scan token).Under (Site.Sorted k supply)
    fun discovery => ∀ record ∈ discovery.found, k.Suits record

section

variable {generator : Generator} {options : Json.Value} {k : Common generator options}
  {supply : Supply π} {s : Site π}

theorem Common.suits_of_content {record : ContentRecord} (common : k.content record.content) :
    k.Suits record := fun _ => common

/-- The record of a request has parameters where the request has. -/
theorem Common.suits_make {address : Address} {resolver : Resolver} {key name : String}
    {content : Content} {origin : Origin} {extension : Option String}
    (named : address.key resolver .content = .ok key)
    (common : address.isBare = true → k.content content) :
    k.Suits (.make name key content origin extension address.params) := by
  rintro (bare | none)
  · exact common (Address.isBare_of_key named bare)
  · refine common ?_
    unfold Address.isBare
    cases params : address.params with
    | none => rfl
    | some p =>
        rw [params] at none
        simpa [ContentRecord.make] using none

/-- A renderer that is found counts as code. -/
theorem Common.FindsRenderer.code {key : String} {found : Option CodeRecord}
    (h : k.FindsRenderer key found) : k.FindsCode key (found.map .live) := by
  intro code same
  obtain ⟨record, there, rfl⟩ := Option.map_eq_some_iff.1 same
  obtain ⟨own, renders⟩ := h record there
  exact ⟨fun _ same => (StoredCode.live.inj same) ▸ own, renders⟩

namespace Site.Sorted

theorem setClock (h : s.Sorted k supply)
    (passes : ∀ {e : Environment} (clock : Clock), supply.shared e →
      supply.shared { e with clock := clock }) (clock : Clock) :
    (Clocked.setClock clock s).Sorted k supply :=
  ⟨h.content, h.code, h.own, passes clock h.shared⟩

theorem putContent {record : ContentRecord} (h : s.Sorted k supply) (suits : k.Suits record) :
    ({ s with overlay := s.overlay.putContent record } : Site π).Sorted k supply where
  content key found there := by
    replace there : (s.overlay.content.insert record.key record).get? key = some found := there
    rw [KeyMap.get?_insert] at there
    split at there
    · cases there
      exact ⟨Eq.symm ‹_›, suits⟩
    · exact h.content key found there
  code := h.code
  own := h.own
  shared := h.shared

theorem putCode {record : CodeRecord} (h : s.Sorted k supply)
    (renders : k.Serves record.key record) :
    ({ s with overlay := s.overlay.putCode record } : Site π).Sorted k supply where
  content := h.content
  code key found there := by
    replace there : (s.overlay.code.insert record.key record).get? key = some found := there
    rw [KeyMap.get?_insert] at there
    split at there
    · cases there
      rename_i own
      exact ⟨own.symm, fun bare => renders (own ▸ bare)⟩
    · exact h.code key found there
  own := h.own
  shared := h.shared

end Site.Sorted

/-! ## Operations on the overlay -/

namespace Storing

theorem yields_within {α : Type} {good : α → Prop} {token : Token} {operation : String}
    {x : Storing π α} (h : Yields (Site.Sorted k supply) good x) :
    Yields (Site.Sorted k supply) good (within token operation x) := Yields.within h

theorem yields_overlay : Yields (Site.Sorted k supply) (fun o =>
    (∀ key, k.Finds key (o.content.get? key)) ∧ ∀ key, k.FindsRenderer key (o.code.get? key))
    (overlay : Storing π Overlay) :=
  yields_gets fun _ sorted => ⟨sorted.content, sorted.code⟩

theorem yields_keepContent {record : ContentRecord} (suits : k.Suits record) :
    Yields (Site.Sorted k supply) (fun kept => kept = record)
      (keepContent record : Storing π ContentRecord) :=
  (yields_modify fun _ sorted => sorted.putContent suits).seq fun _ => yields_pure rfl

theorem yields_keepCode {record : CodeRecord}
    (renders : k.Serves record.key record) :
    Yields (Site.Sorted k supply) (fun kept => kept = record)
      (keepCode record : Storing π CodeRecord) :=
  (yields_modify fun _ sorted => sorted.putCode renders).seq fun _ => yields_pure rfl

theorem yields_keepFound {record : ContentRecord} (suits : k.Suits record) :
    Yields (Site.Sorted k supply) (k.Finds record.key)
      (some <$> keepContent record : Storing π (Option ContentRecord)) := by
  refine Under.bind (yields_keepContent suits) fun r kept => ?_
  cases r with
  | error e => exact fun _ => nofun
  | ok v =>
      obtain rfl := kept v rfl
      rintro _ ⟨⟩ record ⟨⟩
      exact ⟨rfl, suits⟩

theorem yields_keepGenerated {key name : String} {renderer : Renderer}
    (generates : BareKey key → k.Generates renderer) :
    Yields (Site.Sorted k supply) (fun record => record = ⟨key, name, renderer⟩)
      (keepCode ⟨key, name, renderer⟩ : Storing π CodeRecord) :=
  yields_keepCode fun bare => .inl (generates bare)

theorem yields_ofExcept {α : Type} (r : Except StoreError α) :
    Yields (Site.Sorted k supply) (fun v => r = .ok v) (ofExcept r : Storing π α) :=
  fun _ same => same

theorem yields_named {α : Type} {good : α → Prop} {r : Except NameError String} {key : String}
    {rest : String → Storing π α} (named : r = .ok key)
    (h : Yields (Site.Sorted k supply) good (rest key)) :
    Yields (Site.Sorted k supply) good (do rest (← naming r)) := by
  refine Yields.bind (yields_naming fun _ same => same) fun found same => ?_
  rw [named] at same
  exact Except.ok.inj same ▸ h

section

variable {resolver : Resolver} {address : Address} {key : String}

/-- Content that the overlay has, or else the medium. -/
theorem yields_content {medium : String → Storing π (Option ContentRecord)}
    (named : address.key resolver .content = .ok key)
    (h : Yields (Site.Sorted k supply) (k.Finds key) (medium key)) :
    Yields (Site.Sorted k supply) (k.Finds key) (do
      let key ← naming (address.key resolver .content)
      match (← overlay).content.get? key with
      | some record => return some record
      | none => medium key) := by
  refine yields_named named ?_
  refine yields_overlay.bind fun o kept => ?_
  split
  · rename_i there
    exact yields_pure (there ▸ kept.1 _)
  · exact h

/-- Code that the overlay has, or else the medium. -/
theorem yields_code {medium : String → Storing π (Option StoredCode)}
    (named : address.key resolver .code = .ok key)
    (h : Yields (Site.Sorted k supply) (k.FindsCode key) (medium key)) :
    Yields (Site.Sorted k supply) (k.FindsCode key) (do
      let key ← naming (address.key resolver .code)
      match (← overlay).code.get? key with
      | some record => return some (.live record)
      | none => medium key) := by
  refine yields_named named ?_
  refine yields_overlay.bind fun o kept => ?_
  split
  · rename_i there
    exact yields_pure (there ▸ kept.2 _).code
  · exact h

end

end Storing

/-! ## Stores in memory -/

/-- Where the overlay is the medium, only what is written has to be common. -/
def Supply.overlay {generator : Generator} {options : Json.Value} (k : Common generator options) :
    Supply Unit where
  own _ := True
  shared _ := True
  loads _ _ := True
  scans := True
  writes address _ content := address.isBare = true → k.content content

namespace Store

open Storing

variable {resolver : Resolver} {address : Address} {key : String}

theorem yields_readOverlayContent (named : address.key resolver .content = .ok key) :
    Yields (Site.Sorted k supply) (k.Finds key)
      (readOverlayContent resolver address : Storing π (Option ContentRecord)) := by
  refine yields_named named ?_
  exact yields_overlay.bind fun o kept => yields_pure (kept.1 _)

theorem memory_sorts : (memory resolver).Sorts k (.overlay k) where
  passes _ shared := shared
  readContent _ named _ := yields_readOverlayContent named
  writeContent _ named common := by
    refine yields_named named ?_
    exact (yields_keepContent (Common.suits_make named common)).mono fun _ => trivial
  readCode {address key} _ named := by
    refine yields_named named ?_
    exact yields_overlay.bind fun o kept => yields_pure (kept.2 _).code
  writeCode _ named generates := by
    refine yields_named named ?_
    exact yields_keepGenerated generates
  scan _ _ := fun _ => nofun

theorem delayed_sorts (delay : Nat) : (delayed resolver delay).Sorts k (.overlay k) :=
  have memory : (memory resolver).Sorts k (.overlay k) := memory_sorts
  { memory with
    readContent := fun token named loads => by
      refine Yields.seq (yields_within (yields_lift ?_)) fun _ =>
        memory.readContent token named loads
      exact fun _ sorted => ⟨sorted, trivial⟩ }

end Store

end

/-! ## Key-value engines -/

namespace Store

open Storing

section

variable {generator : Generator} {options : Json.Value} {k : Common generator options}
  {resolver : Resolver}

namespace KeyValue

open Json

variable {α β : Type} {loads : String → Prop} {good : α → Prop}

/-- An engine whose documents are common where a request without parameters may come upon them. -/
structure Documents (k : Common generator options) (loads : String → Prop) (e : Engine) :
    Prop where
  content : ∀ {key bytes record}, BareKey key ∨ loads key →
    e.get? Collection.content.name key = some bytes →
    Decoder.ofBytes? (contentRecord key) bytes = some record → k.content record.content
  code : ∀ {key bytes code}, BareKey key → e.get? Collection.code.name key = some bytes →
    Decoder.ofBytes? (storedCode key) bytes = some code → k.Offers code

/-- A document does not tell its parameters, so those documents with parameters that are loaded
have to be common as well. What is read back need not be what was written, but has to be common. -/
def supply (k : Common generator options) (loads : String → Prop) : Supply Written where
  own _ := True
  shared e := Documents k loads e.engine
  loads _ key := BareKey key ∨ loads key
  scans := ∀ key, loads key
  writes address key content := (address.isBare = true → k.content content) ∧
    (BareKey key ∨ loads key → ∀ record, Decoder.ofBytes? (contentRecord key)
      (contentDocument address content).toUTF8.toList = some record → k.content record.content)

theorem key_of_contentRecord {key : String} {bytes : List UInt8} {record : ContentRecord}
    (read : Decoder.ofBytes? (contentRecord key) bytes = some record) : record.key = key := by
  unfold Decoder.ofBytes? at read
  simp only [Option.bind_eq_bind, Option.bind_eq_some_iff] at read
  obtain ⟨t, -, read⟩ := read
  unfold contentRecord at read
  simp only [Option.bind_eq_bind, Option.bind_eq_some_iff] at read
  obtain ⟨read, -, name, -, content, -, extension, -, made⟩ := read
  cases made
  rfl

/-- The document of some code is read as the source that was put into it. -/
theorem storedCode_document (key name source : String) :
    Decoder.ofBytes? (storedCode key) (codeDocument name source).toUTF8.toList =
      some (.text key name source) := by
  have named : SpellsMember ("name", .string name)
      (Tree.quoted "name", .text (Tree.quoted name)) := ⟨rfl, .string _⟩
  have filled : SpellsMember ("renderer", .string source)
      (Tree.quoted "renderer", .text (Tree.quoted source)) := ⟨rfl, .string _⟩
  unfold Decoder.ofBytes? codeDocument
  rw [Tree.parse?_record (.cons named (.cons filled .nil)), Option.bind_eq_bind,
    Option.bind_some]
  show storedCode key (126 + 1) _ = _
  simp [storedCode, Decoder.fields, Fields.placeMembers, Fields.place, Fields.required,
    Fields.get?, List.lookup_cons, Decoder.string]

theorem text_of_storedCode {key : String} {bytes : List UInt8} {code : StoredCode}
    (read : Decoder.ofBytes? (storedCode key) bytes = some code) (record : CodeRecord) :
    code ≠ .live record := by
  unfold Decoder.ofBytes? at read
  simp only [Option.bind_eq_bind, Option.bind_eq_some_iff] at read
  obtain ⟨t, -, read⟩ := read
  obtain ⟨name, source, rfl⟩ := storedCode_text read
  exact nofun

theorem Documents.putCode {e : Engine} {key source : String} (name : String)
    (documents : Documents k loads e) (common : BareKey key → k.source source) :
    Documents k loads (e.put Collection.code.name key
      (codeDocument name source).toUTF8.toList) where
  content asked there read := by
    rw [get?_put, if_neg nofun] at there
    exact documents.content asked there read
  code {k' bytes code} bare there read := by
    rw [get?_put] at there
    split at there
    · rename_i same
      cases same
      cases there
      rw [storedCode_document] at read
      cases read
      exact common bare
    · exact documents.code bare there read

theorem Documents.putContent {e : Engine} {key : String} {document : List UInt8}
    (documents : Documents k loads e) (common : BareKey key ∨ loads key → ∀ record,
      Decoder.ofBytes? (contentRecord key) document = some record → k.content record.content) :
    Documents k loads (e.put Collection.content.name key document) where
  content {k' bytes record} asked there read := by
    rw [get?_put] at there
    split at there
    · rename_i same
      cases same
      cases there
      exact common asked record read
    · exact documents.content asked there read
  code bare there read := by
    rw [get?_put, if_neg nofun] at there
    exact documents.code bare there read

/-- A call keeps what is demanded of an engine if it does so where it is made. -/
theorem yields_attempt {call : EngineCall} {collection : Collection} {key target : String}
    {f : Engine → α × Engine}
    (h : ∀ e, Documents k loads e → Documents k loads (f e).2 ∧ good (f e).1) :
    Yields (Site.Sorted k (supply k loads)) good (attempt call collection key target f) := by
  intro s sorted
  dsimp only
  unfold Engine.attempt
  split
  · exact ⟨⟨sorted.content, sorted.code, trivial, sorted.shared⟩, fun _ => nofun⟩
  · obtain ⟨kept, fine⟩ := h s.environment.engine sorted.shared
    refine ⟨⟨sorted.content, sorted.code, trivial, kept⟩, ?_⟩
    rintro v ⟨rfl⟩
    exact fine

theorem yields_engineDelay : Yields (Site.Sorted k (supply k loads)) (fun _ => True) engineDelay :=
  (yields_gets fun _ _ => trivial).seq fun _ => yields_lift fun _ sorted => ⟨sorted, trivial⟩

theorem yields_put {collection : Collection} {key document : String}
    (h : ∀ e, Documents k loads e →
      Documents k loads (e.put collection.name key document.toUTF8.toList)) :
    Yields (Site.Sorted k (supply k loads)) (fun _ => True) (put collection key document) :=
  yields_engineDelay.seq fun _ => yields_attempt fun e documents => ⟨h e documents, trivial⟩

theorem yields_remember (collection : Collection) (key : String) :
    Yields (Site.Sorted k (supply k loads)) (fun _ => True) (remember collection key) :=
  yields_modify fun _ sorted => ⟨sorted.content, sorted.code, trivial, sorted.shared⟩

theorem yields_decoded {key : String} {decoder : Decoder α} {document : Option (List UInt8)}
    (h : ∀ bytes, document = some bytes → ∀ v, Decoder.ofBytes? decoder bytes = some v → good v) :
    Yields (Site.Sorted k (supply k loads)) (fun found => ∀ v, found = some v → good v)
      (decoded key decoder document) := by
  unfold decoded
  split
  · exact yields_pure fun _ => nofun
  · split
    · rename_i bytes _ value read
      refine yields_pure fun v found => ?_
      cases found
      exact h bytes rfl _ read
    · exact yields_throw _

/-- What is loaded is common, and without parameters for those who look at the record. -/
theorem yields_loadContent {key : String} (asked : BareKey key ∨ loads key) :
    Yields (Site.Sorted k (supply k loads)) (k.Finds key) (loadContent key) := by
  have got : Yields (Site.Sorted k (supply k loads)) (fun document => ∀ bytes,
      document = some bytes → ∀ record, Decoder.ofBytes? (contentRecord key) bytes = some record →
        record.key = key ∧ k.content record.content) (get .content key) := by
    refine yields_attempt fun e documents => ⟨documents, fun bytes there record read => ?_⟩
    exact ⟨key_of_contentRecord read, documents.content asked there read⟩
  refine got.bind fun document fine => (yields_decoded fine).bind fun found fine => ?_
  split
  · exact yields_pure fun _ => nofun
  · rename_i record
    obtain ⟨rfl, common⟩ := fine record rfl
    exact yields_keepFound (Common.suits_of_content common)

theorem yields_together {operation : β → Keeping α} {inputs : List β}
    (h : ∀ x, Yields (Site.Sorted k (supply k loads)) good (operation x)) :
    Yields (Site.Sorted k (supply k loads))
      (fun outcomes => ∀ r ∈ outcomes, ∀ v, r = .ok v → good v)
      (together operation inputs) := by
  have all : Yields (Site.Sorted k (supply k loads))
      (fun outcomes => ∀ r ∈ outcomes, ∀ v, r = .ok v → good v)
      (Storing.always (inputs.mapM fun input => (operation input).run)) := by
    refine yields_lift (Under.mono (fun fine r there => ?_) (Under.mapM fun x _ => h x))
    obtain ⟨x, -, fine⟩ := fine r there
    exact fine
  unfold together
  dsimp only
  split
  · exact all
  · exact yields_engineDelay.seq fun _ => all

theorem yields_page {collection : Collection} {limit : Option Nat} {cursor : Option String}
    {token : Token} : Yields (Site.Sorted k (supply k loads)) (fun _ => True)
      (page collection limit cursor token) := by
  refine Yields.seq (yields_within (yields_engineDelay.seq fun _ => ?_)) fun keys => ?_
  · exact yields_attempt fun e documents => ⟨documents, trivial⟩
  · split
    · exact yields_pure trivial
    · exact yields_pure trivial

/-- What every visit yields, all outcomes of a sweep have. -/
theorem yields_sweepFrom {collection : Collection} {pageSize : Nat} {token : Token}
    {visit : String → Keeping α}
    (h : ∀ key, Yields (Site.Sorted k (supply k loads)) good (visit key))
    (pages : Nat) (cursor : Option String) :
    Yields (Site.Sorted k (supply k loads))
      (fun outcomes => ∀ r ∈ outcomes, ∀ v, r = .ok v → good v)
      (sweepFrom collection pageSize token visit pages cursor) := by
  induction pages generalizing cursor with
  | zero => exact yields_page.seq fun _ => yields_together h
  | succ pages ih =>
      refine yields_page.seq fun found => (yields_together h).bind fun outcomes first => ?_
      dsimp only
      split
      · refine (ih _).bind fun later rest => yields_pure fun r there => ?_
        exact (List.mem_append.1 there).elim (first r) (rest r)
      · exact yields_pure first

theorem under_scan {pageSize : Nat} {token : Token} (all : ∀ key, loads key) :
    (KeyValue.scan pageSize token).Under (Site.Sorted k (supply k loads))
      fun discovery => ∀ record ∈ discovery.found, k.Suits record := by
  have visit (key : String) : Yields (Site.Sorted k (supply k loads))
      (fun found => ∀ record, found.2 = some record → k.Suits record)
      (do return (key, ← loadContent key) : Keeping (String × Option ContentRecord)) :=
    (yields_loadContent (.inr (all key))).bind fun found fine =>
      yields_pure fun record there => (fine record there).2
  have swept : Yields (Site.Sorted k (supply k loads)) _
      (sweep .content pageSize token fun key => do return (key, ← loadContent key)) :=
    (yields_gets fun _ _ => trivial).seq fun _ => yields_sweepFrom visit _ _
  refine Under.bind swept fun r fine => ?_
  cases r with
  | error e => exact fun _ none => absurd none List.not_mem_nil
  | ok outcomes =>
      -- Documents that could not be loaded are left out of the list, and so are missing ones.
      intro record listed
      obtain ⟨found, valued, same⟩ := List.mem_filterMap.1 listed
      obtain ⟨r, there, succeeded⟩ := List.mem_filterMap.1 valued
      cases r with
      | error e => exact nomatch succeeded
      | ok v =>
          cases succeeded
          exact fine outcomes rfl _ there _ rfl record same

end KeyValue

open KeyValue in
/-- A store over an engine keeps variants apart as far as the documents that it loads do. -/
theorem keyValue_sorts (pageSize : Nat) (loads : String → Prop) :
    (keyValue resolver pageSize).Sorts k (KeyValue.supply k loads) where
  passes _ shared := shared
  readContent _ named asked :=
    yields_content named (yields_within (yields_engineDelay.seq fun _ => yields_loadContent asked))
  writeContent {address key content} token named writes := by
    refine yields_named named ?_
    refine Yields.seq (yields_within (yields_put fun e documents => documents.putContent writes.2))
      fun _ => (yields_remember _ _).seq fun _ => ?_
    exact (yields_keepContent (Common.suits_make named writes.1)).mono fun _ => trivial
  readCode {address key} token named := by
    have got : Yields (Site.Sorted k (KeyValue.supply k loads)) (fun document => ∀ bytes,
        document = some bytes → ∀ code, Json.Decoder.ofBytes? (storedCode key) bytes = some code →
          (∀ record, code = .live record → record.key = key) ∧ (BareKey key → k.Offers code))
        (do engineDelay; get .code key) := by
      refine yields_engineDelay.seq fun _ => yields_attempt fun e documents =>
        ⟨documents, fun bytes there code read => ⟨fun record live => ?_, fun bare => ?_⟩⟩
      · exact absurd live (text_of_storedCode read record)
      · exact documents.code bare there read
    refine yields_code named ?_
    exact Yields.bind (yields_within got) fun document fine => yields_decoded fine
  writeCode {address key renderer} token named generates := by
    refine yields_named named ?_
    dsimp only
    split
    · exact yields_keepGenerated generates
    · rename_i source sourced
      have puts : Yields (Site.Sorted k (KeyValue.supply k loads)) (fun _ => True)
          (put .code key (codeDocument address.name source)) := by
        refine yields_put fun e documents => documents.putCode _ fun bare => ?_
        obtain ⟨x, common, made⟩ := generates bare
        exact k.generated common made sourced
      exact Yields.seq (yields_within puts) fun _ =>
        (yields_remember _ _).seq fun _ => yields_keepGenerated generates
  scan all token := under_scan all

/-! ## Networks -/

namespace Remote

variable {r : Remote} {loads : String → Prop}

/-- The request for a document. -/
def request (r : Remote) (url : Url) : Request :=
  { method := .get, url := url.text, userAgent := r.userAgent }

/-- A network whose replies are common where a request without parameters may come upon them. -/
structure Replies (r : Remote) (k : Common generator options) (loads : String → Prop)
    (n : Network) : Prop where
  content : ∀ {key url reply}, BareKey key ∨ loads key → r.urlOf key = .ok url →
    n.respond (r.request url) = some reply → reply.isSuccess = true →
    k.content (.ofSource reply.body (if isJson reply then some "json" else extensionOf key))
  code : ∀ {key url reply}, BareKey key → r.urlOf key = .ok url →
    n.respond (r.request url) = some reply → reply.isSuccess = true → k.source reply.body

/-- A name may have a question mark itself, and then has a key with a query without having
parameters. -/
def supply (r : Remote) (k : Common generator options) (loads : String → Prop) : Supply Unit where
  own _ := True
  shared e := Replies r k loads e.network
  loads address key := address.isBare = true → BareKey key ∨ loads key
  scans := True
  writes address _ content := address.isBare = true → k.content content

theorem yields_exchange {q : Request} :
    Yields (Site.Sorted k (supply r k loads)) (fun reply => ∃ n, Replies r k loads n ∧
      n.respond q = some reply) (exchange q) := by
  refine Yields.bind (show Yields (Site.Sorted k (supply r k loads))
    (fun reply => ∃ n, Replies r k loads n ∧ n.respond q = reply) _ from ?_) fun reply fine => ?_
  · refine yields_lift fun s sorted => ⟨?_, _, sorted.shared, rfl⟩
    exact ⟨sorted.content, sorted.code, trivial, sorted.shared.content, sorted.shared.code⟩
  · refine Yields.seq (yields_lift trivial) fun _ => ?_
    split
    · exact yields_pure fine
    · exact yields_throw _

theorem yields_get {url : Url} {token : Token} :
    Yields (Site.Sorted k (supply r k loads)) (fun found => ∀ reply, found = some reply →
      reply.isSuccess = true ∧ ∃ n, Replies r k loads n ∧ n.respond (r.request url) = some reply)
      (r.get url token) := by
  refine yields_within (yields_exchange.bind fun reply fine => ?_)
  split
  · exact yields_pure fun _ => nofun
  · have checks : Yields (Site.Sorted k (supply r k loads))
        (fun v => v = reply ∧ reply.isSuccess = true)
        (Storing.ofExcept (checked url.text reply)) := by
      unfold checked
      split
      · rename_i success
        rintro v ⟨⟩
        exact ⟨rfl, success⟩
      · exact fun _ => nofun
    refine checks.bind fun v same => yields_pure fun found there => ?_
    cases there
    obtain ⟨rfl, success⟩ := same
    exact ⟨success, fine⟩

theorem yields_post {url : Url} {contentType body : String} {token : Token} :
    Yields (Site.Sorted k (supply r k loads)) (fun _ => True)
      (r.post url contentType body token) := by
  refine yields_within ((yields_exchange.mono fun _ => trivial).seq fun reply => ?_)
  exact (yields_ofExcept _).bind fun _ _ => yields_pure trivial

end Remote

open Remote in
/-- A store behind a network keeps variants apart as far as the other side does. -/
theorem remote_sorts (r : Remote) (loads : String → Prop) :
    (remote r).Sorts k (Remote.supply r k loads) where
  passes _ shared := shared
  readContent {address key} token named asked := by
    refine yields_content named ?_
    generalize located : r.urlOf key = place
    refine (yields_ofExcept place).bind fun url same => yields_get.bind fun found fine => ?_
    rw [same] at located
    split
    · exact yields_pure fun _ => nofun
    · rename_i reply
      obtain ⟨success, n, replies, answered⟩ := fine reply rfl
      refine yields_keepFound (Common.suits_make named fun bare => ?_)
      exact replies.content (asked bare) located answered success
  writeContent {address key content} token named common := by
    refine yields_named named ?_
    generalize r.urlOf key = place
    refine (yields_ofExcept place).bind fun url _ => yields_post.seq fun _ => ?_
    exact (yields_keepContent (Common.suits_make named common)).mono fun _ => trivial
  readCode {address key} token named := by
    refine yields_code named ?_
    generalize located : r.urlOf key = place
    refine (yields_ofExcept place).bind fun url same => yields_get.bind fun found fine => ?_
    rw [same] at located
    refine yields_pure fun code there => ?_
    obtain ⟨reply, same, rfl⟩ := Option.map_eq_some_iff.1 there
    obtain ⟨success, n, replies, answered⟩ := fine reply same
    exact ⟨fun _ => nofun, fun bare => replies.code bare located answered success⟩
  writeCode {address key renderer} token named generates := by
    refine yields_named named ?_
    dsimp only
    split
    · exact yields_keepGenerated generates
    · generalize r.urlOf key = place
      exact (yields_ofExcept place).bind fun url _ => yields_post.seq fun _ =>
        yields_keepGenerated generates
  scan _ _ := fun _ => nofun

end

end Store

end TemplateCache
