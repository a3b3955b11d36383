import TemplateCache.Proofs.Store.Repetition

/-!
# What a store does to the documents of its engine

A store over an engine remembers which documents it put, by collection and key. All that its
operations do to the documents is this: a write puts its document and remembers it before it ends
with success; a removal takes documents away and forgets each as it goes. Whatever fails in between,
nothing is left half done.
-/

namespace TemplateCache

open Job Relation

namespace Store.KeyValue

variable {α β : Type} {s t u : Site Written} {among : Collection × String → Prop} {token : Token}
  {d : Collection × String}

/-! ## Operations that put nothing -/

/-- A store has put nothing. Some of the given documents are gone, and it does not remember them any
more. -/
structure Sheds (among : Collection × String → Prop) (s t : Site Written) : Prop where
  nodup : s.own.Nodup → t.own.Nodup
  own : ∀ d ∈ t.own, d ∈ s.own
  left : ∀ d : Collection × String, document d.1 d.2 t = document d.1 d.2 s ∨
    among d ∧ document d.1 d.2 t = none ∧ (s.own.Nodup → d ∉ t.own)

theorem sheds_of_eq (own : t.own = s.own)
    (same : ∀ d : Collection × String, document d.1 d.2 t = document d.1 d.2 s) :
    Sheds among s t where
  nodup := by
    rw [own]
    exact id
  own := by
    rw [own]
    exact fun _ => id
  left d := .inl (same d)

theorem Sheds.refl (s : Site Written) : Sheds among s s := sheds_of_eq rfl fun _ => rfl

theorem Sheds.trans (h : Sheds among s u) (h' : Sheds among u t) : Sheds among s t where
  nodup distinct := h'.nodup (h.nodup distinct)
  own d listed := h.own d (h'.own d listed)
  left d := by
    rcases h'.left d with same | ⟨given, gone, forgotten⟩
    · rw [same]
      rcases h.left d with first | ⟨given, gone, forgotten⟩
      · exact .inl first
      · exact .inr ⟨given, gone, fun distinct there => forgotten distinct (h'.own d there)⟩
    · exact .inr ⟨given, gone, fun distinct => forgotten (h.nodup distinct)⟩

theorem Sheds.mono {more : Collection × String → Prop} (imp : ∀ d, among d → more d)
    (h : Sheds among s t) : Sheds more s t where
  nodup := h.nodup
  own := h.own
  left d := (h.left d).imp_right (And.imp_left (imp d))

theorem sheds_passes (passes : ReflTransGen Passes s t) : Sheds among s t := by
  induction passes with
  | refl => exact .refl _
  | tail _ last ih =>
      obtain ⟨clock, rfl⟩ := last
      exact ih.trans (sheds_of_eq rfl fun _ => rfl)

/-- An operation that puts nothing, however it ends. -/
def Shedding (among : Collection × String → Prop) (x : Keeping α) : Prop :=
  ∀ ⦃s r t⦄, x.run.Runs Passes s r t → Sheds among s t

theorem Shedding.bind {x : Keeping α} {f : α → Keeping β} (h : Shedding among x)
    (hf : ∀ v, Shedding among (f v)) : Shedding among (x >>= f) := by
  intro s r t runs
  rcases runs.of_bindExcept with ⟨v, u, first, second⟩ | ⟨e, failed, -⟩
  · exact (h first).trans (hf v second)
  · exact h failed

/-- What puts and deletes nothing at any step may be bound by a token. -/
theorem shedding_of_keeps {x : Keeping α} (h : x.run.Keeps (Sheds among)) : Shedding among x := by
  intro s r t runs
  refine ((h s).runs (Sheds among s) runs (fun step before => before.trans step) ?_ (.refl s)).1
  exact fun passes before => before.trans (sheds_passes (.single passes))

theorem keeps_within {x : Keeping α} (h : x.run.Keeps (Sheds among)) (operation : String) :
    (Storing.within token operation x).run.Keeps (Sheds among) :=
  fun s => Ensures.within (fun _ => .refl _) (fun _ _ => trivial) (h s)

theorem keeps_gets (f : Site Written → α) : (Storing.gets f).run.Keeps (Sheds among) :=
  fun _ => ⟨.refl _, trivial⟩

theorem keeps_delay : engineDelay.run.Keeps (Sheds among) :=
  Keeps.bindExcept (keeps_gets _) fun _ => keeps_lift fun _ => ⟨.refl _, fun _ => trivial⟩

/-- A call that only looks at the engine. -/
theorem keeps_look {call : EngineCall} {collection : Collection} {key target : String}
    (f : Engine → α) :
    (attempt call collection key target fun e => (f e, e)).run.Keeps (Sheds among) := by
  refine keeps_modifyGet fun s => sheds_of_eq rfl fun d => ?_
  dsimp only
  unfold Engine.attempt
  split
  · rfl
  · rfl

theorem keeps_decoded (key : String) (decoder : Json.Decoder α) (found : Option (List UInt8)) :
    (decoded key decoder found).run.Keeps (Sheds among) := by
  unfold decoded
  split
  · exact keeps_pure _
  · split
    · exact keeps_pure _
    · exact keeps_throw _

theorem keeps_keepContent (record : ContentRecord) :
    (Storing.keepContent record : Keeping _).run.Keeps (Sheds among) :=
  fun _ => ⟨sheds_of_eq rfl fun _ => rfl, trivial⟩

theorem keeps_keepCode (record : CodeRecord) :
    (Storing.keepCode record : Keeping _).run.Keeps (Sheds among) :=
  fun _ => ⟨sheds_of_eq rfl fun _ => rfl, trivial⟩

theorem keeps_loadContent (key : String) : (loadContent key).run.Keeps (Sheds among) := by
  refine Keeps.bindExcept (keeps_look _) fun found => ?_
  refine Keeps.bindExcept (keeps_decoded _ _ _) fun record => ?_
  cases record with
  | none => exact keeps_pure _
  | some record => exact Keeps.mapExcept (keeps_keepContent _)

theorem keeps_naming (named : Except NameError α) :
    (Storing.naming named : Keeping α).run.Keeps (Sheds among) := fun _ => trivial

theorem shedding_readContent (resolver : Resolver) (pageSize : Nat) (address : Address) :
    Shedding among ((keyValue resolver pageSize).readContent address token) := by
  refine shedding_of_keeps (Keeps.bindExcept (keeps_naming _) fun key => ?_)
  refine Keeps.bindExcept (keeps_gets _) fun overlay => ?_
  split
  · exact keeps_pure _
  · exact keeps_within (Keeps.bindExcept keeps_delay fun _ => keeps_loadContent key) _

theorem shedding_readCode (resolver : Resolver) (pageSize : Nat) (address : Address) :
    Shedding among ((keyValue resolver pageSize).readCode address token) := by
  refine shedding_of_keeps (Keeps.bindExcept (keeps_naming _) fun key => ?_)
  refine Keeps.bindExcept (keeps_gets _) fun overlay => ?_
  split
  · exact keeps_pure _
  · refine Keeps.bindExcept ?_ fun found => keeps_decoded _ _ _
    exact keeps_within (Keeps.bindExcept keeps_delay fun _ => keeps_look _) _

/-! ## Deletions -/

/-- A deletion takes the document away and forgets it, or fails and does neither. -/
theorem shedding_delete {collection : Collection} {key : String} (given : among (collection, key)) :
    Shedding among (delete collection key) := by
  intro s r t runs
  rcases runs_call runs with ⟨error, -, -, rfl⟩ | ⟨-, rest⟩
  · exact .refl _
  · cases rest with
    | act rest =>
        cases rest
        refine ⟨fun distinct => distinct.erase _, fun d => List.mem_of_mem_erase, fun d => ?_⟩
        have left := get?_delete s.environment.engine collection d.1 key d.2
        by_cases own : d = (collection, key)
        · subst own
          refine .inr ⟨given, left.trans (if_pos rfl), fun distinct => ?_⟩
          exact distinct.not_mem_erase
        · exact .inl (left.trans (if_neg own))

theorem Visits.sheds {visit : β → Keeping α} {visited : List (β × Except StoreError α)}
    (visits : Visits Passes visit s visited t)
    (each : ∀ v ∈ visited, Shedding among (visit v.1)) : Sheds among s t := by
  induction visits with
  | nil changed => exact sheds_passes changed
  | cons changed runs later ih =>
      rw [List.forall_mem_cons] at each
      exact (sheds_passes changed).trans ((each.1 runs).trans (ih each.2))

theorem shedding_together {visit : β → Keeping α} {keys : List β}
    (each : ∀ key ∈ keys, Shedding among (visit key)) : Shedding among (together visit keys) := by
  intro s r t runs
  obtain ⟨visited, rfl, -, visits⟩ := runs_together runs
  exact visits.sheds fun v there => each v.1 (List.mem_map_of_mem there)

theorem shedding_batch (outcomes : List (Except StoreError String)) :
    Shedding among (Storing.batch outcomes : Keeping Unit) :=
  shedding_of_keeps (fun _ => trivial)

/-- Documents that are deleted under a token: their number is known before it begins. -/
theorem shedding_deleteAll {documents : List (Collection × String)}
    (given : ∀ d ∈ documents, among d) (operation : String) :
    Shedding among (Storing.within token operation (deleteAll documents)) := by
  have deletes : Shedding among (deletions documents) := by
    refine Shedding.bind (fun {s r t} runs => ?_) fun _ => shedding_batch _
    obtain ⟨outcomes, -, visiting⟩ := Runs.of_lift runs
    obtain ⟨visited, rfl, -, visits⟩ := runs_visits visiting
    refine visits.sheds fun v there => ?_
    exact shedding_delete (given v.1 (List.mem_map_of_mem there))
  intro s r t runs
  cases documents with
  | nil =>
      rw [deleteAll_nil] at runs
      rcases runs_within_instant (instant_deletions _) runs with deleting | ⟨-, rfl⟩
      · exact deletes deleting
      · exact .refl _
  | cons d rest =>
      rw [deleteAll_cons] at runs
      rcases runs_within_delayed (instant_deletions _) runs with
        ⟨u, changed, deleting⟩ | ⟨-, changed⟩
      · exact (sheds_passes changed).trans (deletes deleting)
      · exact sheds_passes changed

theorem shedding_sweep {visit : String → Keeping α} (each : ∀ key, Shedding among (visit key))
    (collection : Collection) (pageSize : Nat) :
    Shedding among (sweep collection pageSize token visit) := by
  have page (limit : Option Nat) (cursor : Option String) :
      Shedding among (page collection limit cursor token) := by
    refine shedding_of_keeps (Keeps.bindExcept ?_ fun keys => ?_)
    · exact keeps_within (Keeps.bindExcept keeps_delay fun _ => keeps_look _) _
    · cases limit with
      | none => exact keeps_pure _
      | some n => exact keeps_pure _
  have swept (pages : Nat) (cursor : Option String) :
      Shedding among (sweepFrom collection pageSize token visit pages cursor) := by
    induction pages generalizing cursor with
    | zero => exact (page _ _).bind fun _ => shedding_together fun key _ => each key
    | succ pages ih =>
        refine (page _ _).bind fun listed => ?_
        refine (shedding_together fun key _ => each key).bind fun outcomes => ?_
        dsimp only
        split
        · exact (ih _).bind fun _ => shedding_of_keeps (keeps_pure _)
        · exact shedding_of_keeps (keeps_pure _)
  exact (shedding_of_keeps (keeps_gets _)).bind fun _ => swept _ _

theorem shedding_scan (resolver : Resolver) (pageSize : Nat) {found : Discovery}
    (runs : ((keyValue resolver pageSize).scan token).Runs Passes s found t) :
    Sheds among s t := by
  obtain ⟨outcomes, u, swept, rest⟩ := Runs.of_bind runs
  have same : t = u := by
    cases outcomes with
    | error e =>
        cases rest
        rfl
    | ok outcomes =>
        cases rest
        rfl
  rw [same]
  refine shedding_sweep (fun key => ?_) _ _ swept
  exact (shedding_of_keeps (keeps_loadContent key)).bind fun _ => shedding_of_keeps (keeps_pure _)

theorem shedding_changeOverlay (f : Overlay → Overlay) :
    Shedding among (Storing.changeOverlay f : Keeping Unit) :=
  shedding_of_keeps fun _ => ⟨sheds_of_eq rfl fun _ => rfl, trivial⟩

theorem shedding_unregister (resolver : Resolver) (pageSize : Nat) (name : String) :
    Shedding (fun _ => True) ((keyValue resolver pageSize).unregister name token) := by
  refine (shedding_of_keeps (keeps_gets _)).bind fun before => ?_
  refine (shedding_changeOverlay _).bind fun _ => ?_
  refine (shedding_of_keeps (keeps_naming _)).bind fun contentKey => ?_
  refine (shedding_of_keeps (keeps_naming _)).bind fun codeKey => ?_
  exact shedding_deleteAll (fun _ _ => trivial) _

theorem shedding_clearAll (resolver : Resolver) (pageSize : Nat) :
    Shedding (fun _ => True) ((keyValue resolver pageSize).clear true token) := by
  refine (shedding_changeOverlay _).bind fun _ => ?_
  have sweeps (collection : Collection) : Shedding (fun _ => True)
      (sweep collection (max pageSize 1) token (delete collection)) :=
    shedding_sweep (fun key => shedding_delete trivial) _ _
  refine (sweeps .content).bind fun content => ?_
  exact (sweeps .code).bind fun code => shedding_batch _

/-- Clearing a store deletes documents that the store remembers, and forgets them all. -/
theorem runs_clearOwn {resolver : Resolver} {pageSize : Nat} {r : Except StoreError Unit}
    (runs : ((keyValue resolver pageSize).clear false token).run.Runs Passes s r t) :
    Sheds (· ∈ s.own) s t ∧ t.own = [] := by
  have deleting := Storing.runs_modify (Storing.runs_gets (Storing.runs_modify runs))
  have sheds := shedding_deleteAll (fun _ => id) "kv clear" deleting
  have none : t.own = [] := List.eq_nil_iff_forall_not_mem.2 fun d there =>
    absurd (sheds.own d there) List.not_mem_nil
  refine ⟨⟨fun _ => ?_, fun d there => ?_, fun d => ?_⟩, none⟩
  · rw [none]
    exact List.nodup_nil
  · rw [none] at there
    cases there
  · rcases sheds.left d with same | ⟨given, gone, -⟩
    · exact .inl same
    · refine .inr ⟨given, gone, fun _ => ?_⟩
      rw [none]
      exact List.not_mem_nil

/-! ## Writes -/

/-- A store has put a document and remembers it. -/
structure Puts (d : Collection × String) (bytes : List UInt8) (s t : Site Written) : Prop where
  nodup : s.own.Nodup → t.own.Nodup
  own : ∀ other ∈ t.own, other = d ∨ other ∈ s.own
  there : document d.1 d.2 t = some bytes
  other : ∀ other : Collection × String, other ≠ d →
    document other.1 other.2 t = document other.1 other.2 s

/-- The site once a document is put. -/
def stored (collection : Collection) (key : String) (bytes : List UInt8) (s : Site Written) :
    Site Written :=
  { s with
    environment.engine := s.environment.engine.put collection.name key bytes }

/-- A write under a token has put the document, or has failed and put none. -/
theorem runs_put {collection : Collection} {key text operation : String}
    {r : Except StoreError Unit}
    (runs : (Storing.within token operation (put collection key text)).run.Runs Passes s r t) :
    r = .ok () ∧ (∃ u, Sheds (fun _ => False) s u ∧
        t = stored collection key text.toUTF8.toList u) ∨
      (∃ e, r = .error e) ∧ Sheds (fun _ => False) s t := by
  have instant : (attempt .put collection key key fun e =>
      ((), e.put collection.name key text.toUTF8.toList)).run.Instant := fun _ => trivial
  rcases runs_within_delayed instant runs with ⟨u, changed, putting⟩ | ⟨early, changed⟩
  · obtain ⟨answer, same⟩ := runs_attempt putting
    rw [attempt_fault] at answer same
    cases fault : u.environment.engine.fault? .put collection.name key with
    | none =>
        rw [fault] at answer same
        exact .inl ⟨answer, u, sheds_passes changed, same⟩
    | some error =>
        rw [fault] at answer same
        refine .inr ⟨⟨_, answer⟩, ?_⟩
        rw [same]
        exact sheds_passes changed
  · refine .inr ⟨?_, sheds_passes changed⟩
    rcases early with cancelled | late
    · exact ⟨_, cancelled⟩
    · exact ⟨_, late⟩

theorem of_mem_remembered {own : Written} {e : Collection × String}
    (there : e ∈ if d ∈ own then own else own ++ [d]) : e = d ∨ e ∈ own := by
  split at there
  · exact .inr there
  · rcases List.mem_append.1 there with before | new
    · exact .inr before
    · exact .inl (List.mem_singleton.1 new)

theorem nodup_remembered {own : Written} (distinct : own.Nodup) :
    (if d ∈ own then own else own ++ [d]).Nodup := by
  split
  · exact distinct
  · rename_i new
    rw [← List.concat_eq_append]
    exact distinct.concat new

theorem runs_named {named : Except NameError β} {f : β → Keeping α} {r : Except StoreError α}
    (runs : (Storing.naming named >>= f).run.Runs Passes s r t) :
    (∃ v, named = .ok v ∧ (f v).run.Runs Passes s r t) ∨ t = s := by
  cases named with
  | ok v => exact .inl ⟨v, rfl, runs⟩
  | error reason =>
      cases runs
      exact .inr rfl

theorem runs_keepContent {record : ContentRecord} {r : Except StoreError ContentRecord}
    (runs : (Storing.keepContent record : Keeping _).run.Runs Passes s r t) : r = .ok record := by
  cases runs with
  | act rest =>
      cases rest
      rfl

theorem runs_keepCode {record : CodeRecord} {r : Except StoreError CodeRecord}
    (runs : (Storing.keepCode record : Keeping _).run.Runs Passes s r t) : r = .ok record := by
  cases runs with
  | act rest =>
      cases rest
      rfl

/-- A write puts its document and remembers it before it ends with success, or it fails and puts
none. -/
theorem runs_write {collection : Collection} {key text operation : String} {keep : Keeping α}
    {v : α} (keeps : keep.run.Keeps (Sheds fun _ => False))
    (succeeds : ∀ {u r t}, keep.run.Runs Passes u r t → r = .ok v) {r : Except StoreError α}
    (runs : (do
      Storing.within token operation (put collection key text)
      remember collection key
      keep : Keeping α).run.Runs Passes s r t) :
    r = .ok v ∧ Puts (collection, key) text.toUTF8.toList s t ∨ Sheds (fun _ => False) s t := by
  rcases runs.of_bindExcept with ⟨_, w, putting, rest⟩ | ⟨e, failed, rfl⟩
  · rcases runs_put putting with ⟨-, u, before, rfl⟩ | ⟨⟨e, failed⟩, -⟩
    · -- The store remembers the document in the stretch in which it was put.
      have keeping := Storing.runs_modify rest
      have after := shedding_of_keeps keeps keeping
      have left (other : Collection × String) : document other.1 other.2 t =
          if other = (collection, key) then some text.toUTF8.toList
          else document other.1 other.2 s := by
        rw [(after.left other).resolve_right fun gone => gone.1,
          ← (before.left other).resolve_right fun gone => gone.1]
        exact get?_put u.environment.engine collection other.1 key other.2 _
      refine .inl ⟨succeeds keeping, ?_, fun other there => ?_, ?_, fun other different => ?_⟩
      · exact fun distinct => after.nodup (nodup_remembered (before.nodup distinct))
      · exact (of_mem_remembered (after.own other there)).imp_right (before.own other)
      · exact (left (collection, key)).trans (if_pos rfl)
      · exact (left other).trans (if_neg different)
    · cases failed
  · rcases runs_put failed with ⟨same, -⟩ | ⟨-, sheds⟩
    · cases same
    · exact .inr sheds

/-! ## All operations -/

/-- A store over an engine: how it names documents, and how many keys it lists at a time. -/
structure Client where
  resolver : Resolver
  pageSize : Nat

def Client.store (c : Client) : Store Written := keyValue c.resolver c.pageSize

/-- What a store over an engine can be asked to do. -/
inductive Operation where
  | call (call : StoreCall) (token : Token)
  | scan (token : Token)

namespace Operation

variable {c : Client} {r : Except StoreError Unit}

/-- Does what is asked; all that counts is how it ends. -/
def job (c : Client) : Operation → Job (Site Written) (Except StoreError Unit)
  | call given token => ((fun _ => ()) <$> c.store.answer token given).run
  | scan token => (fun found => found.outcome.map fun _ => ()) <$> c.store.scan token

/-- The document that an operation is to put. -/
def document? (c : Client) : Operation → Option ((Collection × String) × List UInt8)
  | call (.writeContent address content) _ =>
    (address.key c.resolver .content).toOption.map fun key =>
      ((.content, key), (contentDocument address content).toUTF8.toList)
  | call (.writeCode address renderer) _ =>
    renderer.source.bind fun source =>
      (address.key c.resolver .code).toOption.map fun key =>
        ((.code, key), (codeDocument address.name source).toUTF8.toList)
  | _ => none

/-- Clears the store alone, which then remembers no documents. -/
def forgets : Operation → Bool
  | call (.clear all) _ => !all
  | _ => false

/-- The documents that an operation of a store may take away. -/
def May : Operation → Written → Collection × String → Prop
  | call (.unregister _) _, _, _ => True
  | call (.clear all) _, own, d => all = true ∨ d ∈ own
  | _, _, _ => False

theorem document?_content {address : Address} {content : Content} {key : String}
    (named : address.key c.resolver .content = .ok key) :
    (call (.writeContent address content) token).document? c =
      some ((.content, key), (contentDocument address content).toUTF8.toList) := by
  simp only [document?, named, Except.toOption, Option.map_some]

theorem document?_code {address : Address} {renderer : Renderer} {key source : String}
    (named : address.key c.resolver .code = .ok key) (made : renderer.source = some source) :
    (call (.writeCode address renderer) token).document? c =
      some ((.code, key), (codeDocument address.name source).toUTF8.toList) := by
  simp only [document?, named, made, Except.toOption, Option.map_some, Option.bind_some]

/-- An operation puts its document and succeeds, or it puts none. -/
def Settles (c : Client) (op : Operation) (s : Site Written) (r : Except StoreError Unit)
    (t : Site Written) : Prop :=
  (r = .ok () ∧ ∃ d bytes, op.document? c = some (d, bytes) ∧ Puts d bytes s t) ∨
    Sheds (op.May s.own) s t ∧ (op.forgets = true → t.own = [])

theorem settles_of_sheds {op : Operation} (keeps : op.forgets = false)
    (sheds : Sheds (op.May s.own) s t) : op.Settles c s r t :=
  .inr ⟨sheds, fun forgets => Bool.noConfusion (keeps.symm.trans forgets)⟩

theorem settles_writeContent {address : Address} {content : Content}
    {v : Except StoreError ContentRecord}
    (runs : (c.store.writeContent address content token).run.Runs Passes s v t) :
    (call (.writeContent address content) token).Settles c s (v.map fun _ => ()) t := by
  rcases runs_named runs with ⟨key, named, runs⟩ | rfl
  · rcases runs_write (keeps_keepContent _) runs_keepContent runs with ⟨rfl, puts⟩ | sheds
    · exact .inl ⟨rfl, _, _, document?_content named, puts⟩
    · exact settles_of_sheds rfl sheds
  · exact settles_of_sheds rfl (.refl _)

theorem settles_writeCode {address : Address} {renderer : Renderer}
    {v : Except StoreError CodeRecord}
    (runs : (c.store.writeCode address renderer token).run.Runs Passes s v t) :
    (call (.writeCode address renderer) token).Settles c s (v.map fun _ => ()) t := by
  rcases runs_named runs with ⟨key, named, runs⟩ | rfl
  · dsimp only at runs
    cases made : renderer.source with
    | none =>
        -- Code without a source is only kept in the overlay.
        rw [made] at runs
        exact settles_of_sheds rfl (shedding_of_keeps (keeps_keepCode _) runs)
    | some source =>
        rw [made] at runs
        rcases runs_write (keeps_keepCode _) runs_keepCode runs with ⟨rfl, puts⟩ | sheds
        · exact .inl ⟨rfl, _, _, document?_code named made, puts⟩
        · exact settles_of_sheds rfl sheds
  · exact settles_of_sheds rfl (.refl _)

theorem runs_job {op : Operation} (runs : (op.job c).Runs Passes s r t) :
    op.Settles c s r t := by
  cases op with
  | scan token =>
      obtain ⟨found, u, scanning, rest⟩ := Runs.of_bind runs
      cases rest
      exact settles_of_sheds rfl (shedding_scan _ _ scanning)
  | call given token =>
      obtain ⟨answer, answering, rfl⟩ := Runs.of_map runs
      cases given with
      | readContent address =>
          obtain ⟨found, reading, rfl⟩ := Runs.of_map answering
          exact settles_of_sheds rfl (shedding_readContent _ _ _ reading)
      | readCode address =>
          obtain ⟨found, reading, rfl⟩ := Runs.of_map answering
          exact settles_of_sheds rfl (shedding_readCode _ _ _ reading)
      | writeContent address content =>
          obtain ⟨v, writing, rfl⟩ := Runs.of_map answering
          have settled := settles_writeContent writing
          cases v with
          | ok record => exact settled
          | error e => exact settled
      | writeCode address renderer =>
          obtain ⟨v, writing, rfl⟩ := Runs.of_map answering
          have settled := settles_writeCode writing
          cases v with
          | ok record => exact settled
          | error e => exact settled
      | unregister name =>
          obtain ⟨v, removing, rfl⟩ := Runs.of_map answering
          exact settles_of_sheds rfl (shedding_unregister _ _ _ removing)
      | clear all =>
          obtain ⟨v, clearing, rfl⟩ := Runs.of_map answering
          cases all with
          | true =>
              have sheds := shedding_clearAll _ _ clearing
              exact settles_of_sheds rfl (sheds.mono fun _ _ => .inl rfl)
          | false =>
              obtain ⟨sheds, forgotten⟩ := runs_clearOwn clearing
              exact .inr ⟨sheds.mono fun _ there => .inr there, fun _ => forgotten⟩

theorem timed_write {collection : Collection} {key text operation : String} {keep : Keeping α}
    (h : keep.run.Timed) : (do
      Storing.within token operation (put collection key text)
      remember collection key
      keep : Keeping α).run.Timed := by
  refine Timed.bindExcept (Timed.within (timed_delayed fun _ => trivial)) fun _ => ?_
  exact Timed.bindExcept (fun _ => trivial) fun _ => h

theorem timed_answer (c : Client) (given : StoreCall) : (c.store.answer token given).run.Timed := by
  have mapped {α γ : Type} {x : Keeping α} {f : α → γ} (h : x.run.Timed) :
      (f <$> x : Keeping γ).run.Timed := h.bindExcept fun _ => trivial
  have named {α γ : Type} {x : Except NameError α} {g : α → Keeping γ}
      (h : ∀ v, (g v).run.Timed) : (Storing.naming x >>= g).run.Timed :=
    Timed.bindExcept trivial h
  have deleting (documents : List (Collection × String)) (operation : String) :
      (Storing.within token operation (deleteAll documents)).run.Timed := by
    refine Timed.within ?_
    cases documents with
    | nil =>
        rw [deleteAll_nil]
        exact (instant_deletions _).timed
    | cons d rest =>
        rw [deleteAll_cons]
        exact timed_delayed (instant_deletions _).timed
  cases given with
  | readContent address =>
      refine mapped (named fun key => Timed.bindExcept (fun _ => trivial) fun overlay => ?_)
      split
      · trivial
      · exact Timed.within (timed_delayed (instant_loadContent key).timed)
  | writeContent address content =>
      exact mapped (named fun key => timed_write fun _ => trivial)
  | readCode address =>
      refine mapped (named fun key => Timed.bindExcept (fun _ => trivial) fun overlay => ?_)
      split
      · trivial
      · refine Timed.bindExcept (Timed.within (timed_delayed fun _ => trivial)) fun found => ?_
        exact (instant_decoded _ _ _).timed
  | writeCode address renderer =>
      refine mapped (named fun key => ?_)
      dsimp only
      split
      · exact fun _ => trivial
      · exact timed_write fun _ => trivial
  | unregister name =>
      refine mapped (Timed.bindExcept (fun _ => trivial) fun before => ?_)
      refine Timed.bindExcept (fun _ => trivial) fun _ => ?_
      exact named fun contentKey => named fun codeKey => deleting _ _
  | clear all =>
      refine mapped ?_
      cases all with
      | true => exact timed_clear _ _
      | false =>
          refine Timed.bindExcept (fun _ => trivial) fun _ => ?_
          refine Timed.bindExcept (fun _ => trivial) fun written => ?_
          exact Timed.bindExcept (fun _ => trivial) fun _ => deleting _ _

/-- Every operation comes to an end. -/
theorem timed_job (op : Operation) (c : Client) : (op.job c).Timed := by
  cases op with
  | call given token => exact (timed_answer c given).bindExcept fun _ => trivial
  | scan token => exact (timed_scan c.resolver c.pageSize).bind fun _ => trivial

end Operation
end Store.KeyValue
end TemplateCache
