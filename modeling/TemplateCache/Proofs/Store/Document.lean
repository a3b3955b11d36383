import TemplateCache.Proofs.Json.RoundTrip
import TemplateCache.Proofs.Store.Lawful
import TemplateCache.Proofs.Store.Shadow
import TemplateCache.Proofs.Job.Runs

/-!
# Documents of content

What one store writes another one of the same engine reads back. A document has the name, the
content and the extension of a record and is filed under its key, so these come back. Text and
structured content are told apart by their form alone, so a structured value that is just text
comes back as text.
-/

namespace TemplateCache

open Job Json

/-- Content as a document can tell it: a structured value that is just text counts as text. -/
def Content.untagged : Content → Content
  | .json (.string s) => .text s
  | content => content

/-- What a record that was read has of the one that was written. -/
structure ContentRecord.Recovers (read written : ContentRecord) : Prop where
  key : read.key = written.key
  name : read.name = written.name
  content : read.content = written.content.untagged
  extension : read.extension = written.extension
  params : written.params = none → read.params = none

/-! ## Reading a document -/

namespace Json

/-- The tree of a record's text has the given members in their order. -/
theorem Tree.parse?_record {members : List (String × Value)} {ts : List (List Piece × Tree)}
    (spelled : List.Forall₂ SpellsMember members ts) :
    parse? (Value.recordText members).toUTF8.toList = some (.object ts) :=
  Tree.parse?_of_scan fun _ enough => Spells.scanValue_object spelled enough

end Json

namespace Store.KeyValue

theorem decode_content {content : Content} {t : Tree} {room : Nat}
    (spelled : Spells content.toValue t) (fits : content.toValue.Fits room) :
    Content.decode room t = some content.untagged := by
  unfold Content.decode Value.ofTree?
  rw [spelled.means fits]
  rcases content with s | v
  · rfl
  · cases v <;> rfl

/-- The document of some content is read as what it tells of it. -/
theorem contentRecord_document {address : Address} {content : Content} (key : String)
    (whole : content.toValue.Whole) (fits : content.toValue.Fits 126) :
    Decoder.ofBytes? (contentRecord key) (contentDocument address content).toUTF8.toList =
      some (.make address.name key content.untagged .discovered address.extension none) := by
  obtain ⟨t, spelled⟩ := whole.spelled
  have decoded := decode_content spelled fits
  have named : SpellsMember ("name", .string address.name)
      (Tree.quoted "name", .text (Tree.quoted address.name)) := ⟨rfl, .string _⟩
  have filled : SpellsMember ("content", content.toValue) (Tree.quoted "content", t) :=
    ⟨rfl, spelled⟩
  unfold Decoder.ofBytes? contentDocument
  cases address.extension with
  | none =>
      have parsed := Tree.parse?_record (.cons named (.cons filled .nil))
      dsimp only [List.cons_append, List.nil_append]
      rw [parsed, Option.bind_eq_bind, Option.bind_some]
      show contentRecord key (126 + 1) _ = _
      simp [contentRecord, Decoder.fields, Fields.placeMembers, Fields.place, Fields.required,
        Fields.withDefault, Fields.get?, List.lookup_cons, Decoder.string, decoded]
  | some extension =>
      have extended : SpellsMember ("extension", .string extension)
          (Tree.quoted "extension", .text (Tree.quoted extension)) := ⟨rfl, .string _⟩
      have parsed := Tree.parse?_record (.cons named (.cons filled (.cons extended .nil)))
      dsimp only [List.cons_append, List.nil_append]
      rw [parsed, Option.bind_eq_bind, Option.bind_some]
      show contentRecord key (126 + 1) _ = _
      simp [contentRecord, Decoder.fields, Fields.placeMembers, Fields.place, Fields.required,
        Fields.withDefault, Fields.get?, List.lookup_cons, Decoder.string, Decoder.optional,
        decoded]

/-! ## Writing a document -/

variable {s : Site Written} {token : Token} {resolver : Resolver} {pageSize : Nat}

/-- Any change. -/
abbrev Any (_ _ : Site Written) : Prop := True

/-- A document that was put without an error is there. -/
theorem ensures_put (collection : Collection) (key text : String) :
    (put collection key text).run.Ensures Any (fun r t =>
      r = .ok () → document collection key t = some text.toUTF8.toList) s := by
  refine Storing.ensures_bind ⟨trivial, trivial, fun t => ?_⟩
  let write : Engine → Unit × Engine :=
    fun e => ((), e.put collection.name key text.toUTF8.toList)
  refine ⟨trivial, fun fine => ?_⟩
  dsimp only at fine ⊢
  cases fault : t.environment.engine.fault? .put collection.name key with
  | some error =>
      have failed : t.environment.engine.attempt .put collection.name key write =
          (.error error, t.environment.engine) := by
        unfold Engine.attempt
        rw [fault]
      rw [failed] at fine
      exact nomatch fine
  | none =>
      have done : t.environment.engine.attempt .put collection.name key write =
          (.ok (), (write t.environment.engine).2) := by
        unfold Engine.attempt
        rw [fault]
        rfl
      rw [done]
      exact (get?_put _ _ _ _ _ _).trans (if_pos rfl)

theorem ensures_writeContent (address : Address) (content : Content) :
    ((keyValue resolver pageSize).writeContent address content token).run.Ensures Any (fun r t =>
      ∀ written, r = .ok written →
        address.key resolver .content = .ok written.key ∧
          written = writtenRecord address written.key content ∧
            document .content written.key t =
              some (contentDocument address content).toUTF8.toList) s := by
  cases named : address.key resolver .content with
  | error e =>
      refine Storing.ensures_bind ?_
      rw [named]
      exact fun written => nofun
  | ok key =>
      refine Storing.ensures_bind (Storing.ensures_naming named ?_)
      refine Storing.ensures_bind ((Ensures.within (fun _ => trivial) (fun _ _ => nofun)
        (ensures_put .content key (contentDocument address content))).mono id ?_)
      rintro (e | ⟨⟩) t there
      · exact fun written => nofun
      refine Storing.ensures_bind ⟨trivial, trivial, ?_⟩
      rintro written ⟨⟩
      exact ⟨rfl, rfl, there rfl⟩

/-- What is written is read back by another store of the engine whose overlay does not have the key,
as long as the document stays as it is. -/
theorem ends_read_written {reader : Site Written} {address : Address} {content : Content}
    {key : String} (keyed : address.key resolver .content = .ok key)
    (stays : document .content key reader = some (contentDocument address content).toUTF8.toList)
    (unread : reader.overlay.content.get? key = none) (ready : Ready token reader)
    (whole : content.toValue.Whole) (fits : content.toValue.Fits 126) :
    ((keyValue resolver pageSize).readContent address token).run.Ends (fun r _ =>
      r = .ok (some (.make address.name key content.untagged .discovered address.extension none)))
      reader := by
  refine Ends.bindExcept ⟨_, _, rfl, ?_⟩
  rw [keyed]
  refine Ends.bindExcept ⟨_, _, rfl, ?_⟩
  dsimp only
  rw [unread]
  refine ends_within_delayed ready (instant_loadContent key) fun now => ?_
  refine Ends.bindExcept
    ⟨_, _, finish_get .content key (s := moment reader now) ready.faultless, ?_⟩
  have decoded : Decoder.ofBytes? (contentRecord key)
      (contentDocument address content).toUTF8.toList = _ := contentRecord_document key whole fits
  replace stays : document .content key (moment reader now) = _ := stays
  rw [stays]
  unfold KeyValue.decoded
  dsimp only
  rw [decoded]
  exact ⟨_, _, rfl, rfl⟩

end Store.KeyValue

/-- What one store has written, however it was interleaved with others, another store of the engine
reads back. -/
theorem Store.written_content_is_read {resolver resolver' : Resolver} {pageSize pageSize' : Nat}
    {others : Site Written → Site Written → Prop} {writer writer' reader : Site Written}
    {address : Address} {content : Content} {token token' : Token} {written : ContentRecord}
    (writes : ((keyValue resolver pageSize).writeContent address content token).run.Runs others
      writer (.ok written) writer')
    (same : address.key resolver' .content = address.key resolver .content)
    (stays : KeyValue.document .content written.key reader =
      KeyValue.document .content written.key writer')
    (unread : reader.overlay.content.get? written.key = none)
    (ready : KeyValue.Ready token' reader)
    (whole : content.toValue.Whole) (fits : content.toValue.Fits 126) :
    written = writtenRecord address written.key content ∧
      ((keyValue resolver' pageSize').readContent address token').run.Ends (fun r _ =>
        ∃ read, r = .ok (some read) ∧ read.Recovers written) reader := by
  have put := ((KeyValue.ensures_writeContent address content).runs (fun _ => True) writes
    (fun _ _ => trivial) (fun _ _ => trivial) trivial).2
  obtain ⟨named, made, there⟩ := put written rfl
  refine ⟨made, Ends.mono ?_ (KeyValue.ends_read_written (same.trans named) (stays.trans there)
    unread ready whole fits)⟩
  rintro r t rfl
  refine ⟨_, rfl, ?_⟩
  rw [made]
  exact ⟨rfl, rfl, rfl, rfl, fun _ => rfl⟩

namespace Sample

/-- Arrays inside each other. -/
def nested : Nat → Value
  | 0 => .array []
  | n + 1 => .array [nested n]

/-- A structured value that is no text. -/
def listing : Value := .object [("items", .array [.number (.int 3), .null]), ("title", .string "x")]

/-- Whether content that one store writes for a name is what another one of the same engine, with
the given overlay, reads for it; nothing if the writing fails. -/
def comesBack (content : Content) (overlay : Overlay) : Option Bool := do
  let store := Store.keyValue ⟨.standard, none⟩ 100
  let fresh : Site Written := { own := [] }
  let (.ok _, writer) ← (store.writeContent { name := "a" } content ⟨[0], none⟩).run.finish fresh
    | none
  let reader : Site Written := { overlay, own := [], environment := writer.environment }
  let (read, _) ← (store.readContent { name := "a" } ⟨[1], none⟩).run.finish reader
  match read with
  | .ok (some record) => return record.content.same content
  | _ => return false

end Sample

open Sample

/-- A structured value, under a key with an extension. -/
theorem Store.listing_is_read :
    ∃ written writer', ((keyValue ⟨.standard, none⟩ 100).writeContent ⟨"a", some "txt", none⟩
        (.json listing) ⟨[0], none⟩).run.Runs KeyValue.Any { own := [] } (.ok written) writer' ∧
      ((keyValue ⟨.standard, none⟩ 1).readContent ⟨"a", some "txt", none⟩ ⟨[1], none⟩).run.Ends
        (fun r _ => ∃ read, r = .ok (some read) ∧ read.Recovers written)
        { own := [], environment := writer'.environment } := by
  obtain ⟨written, writer', writes, faultless, live⟩ : ∃ written writer',
      ((keyValue ⟨.standard, none⟩ 100).writeContent ⟨"a", some "txt", none⟩ (.json listing)
        ⟨[0], none⟩).run.Runs KeyValue.Any { own := [] } (.ok written) writer' ∧
      writer'.environment.engine.faults = [] ∧ writer'.environment.clock.cancelled = [] :=
    ⟨_, _, runs_of_finish (fun _ => trivial) (fun _ _ => trivial) (fun _ _ => rfl) rfl, rfl, rfl⟩
  have word : Number.IsWord 3 := by unfold Number.IsWord; decide
  have whole : listing.Whole := by
    exact ⟨by decide, ⟨word, trivial, trivial⟩, trivial, trivial⟩
  have fits : listing.Fits 126 := by
    exact ⟨by decide, ⟨trivial, trivial, trivial⟩, trivial, trivial⟩
  refine ⟨written, writer', writes, ?_⟩
  let reader : Site Written := { own := [], environment := writer'.environment }
  have stays : KeyValue.document .content written.key reader =
      KeyValue.document .content written.key writer' := rfl
  have ready : KeyValue.Ready ⟨[1], none⟩ reader := by
    refine ⟨faultless, ?_, nofun⟩
    show [1].any writer'.environment.clock.cancelled.contains = false
    rw [live]
    rfl
  exact (written_content_is_read writes rfl stays rfl ready whole fits).2

/-- Structured text comes back as text, a document is one level deeper than its content, a member
name of the reader's makes an object stand for something else, and an overlay answers first. -/
theorem Store.content_that_differs :
    comesBack (.json (.string "x")) ∅ = some false ∧
      comesBack (.json (nested 126)) ∅ = some false ∧
      comesBack (.json (.object [(Value.embeddedName, .string "1")])) ∅ = some false ∧
      comesBack (.text "new") (Overlay.empty.putContent
        (.make "a" "partials/a.html" (.text "old") .discovered none none)) = some false := by
  refine ⟨?_, ?_, ?_, ?_⟩ <;> decide +kernel

end TemplateCache
