import TemplateCache.Proofs.Job.Finish
import TemplateCache.Proofs.Naming
import TemplateCache.Proofs.Store.Unregister
import TemplateCache.Store.Calls
import TemplateCache.Store.Memory

/-!
# A key-value store on an engine of its own

`Overlay.serve` is what a call comes to where the overlay is all there is, as it is for a store in
memory. A key-value store whose engine nobody else uses does the same: every document is shadowed by
a record of the overlay and is listed among the store's own, so the overlay answers every read, and
whatever drops records of the overlay deletes their documents too.
-/

namespace TemplateCache

open Job

/-! ## The overlay as a store -/

/-- The answer to a call, and the overlay after it. -/
def Overlay.serve (resolver : Resolver) (o : Overlay) :
    StoreCall → Except StoreError StoreAnswer × Overlay
  | .readContent address =>
    match address.key resolver .content with
    | .error e => (.error (.naming e), o)
    | .ok key => (.ok (.content (o.content.get? key)), o)
  | .writeContent address content =>
    match address.key resolver .content with
    | .error e => (.error (.naming e), o)
    | .ok key =>
      let record := Store.writtenRecord address key content
      (.ok (.written record), o.putContent record)
  | .readCode address =>
    match address.key resolver .code with
    | .error e => (.error (.naming e), o)
    | .ok key => (.ok (.code ((o.code.get? key).map .live)), o)
  | .writeCode address renderer =>
    match address.key resolver .code with
    | .error e => (.error (.naming e), o)
    | .ok key =>
      (.ok (.kept ⟨key, address.name, renderer⟩), o.putCode ⟨key, address.name, renderer⟩)
  | .unregister name => (.ok .nothing, o.eraseName name)
  | .clear _ => (.ok .nothing, ∅)

/-- A store in memory is its overlay. -/
theorem Store.finish_memory (resolver : Resolver) (token : Token) (call : StoreCall)
    (site : Site Unit) :
    (((memory resolver).answer token call).run).finish site =
      some ((site.overlay.serve resolver call).1,
        { site with overlay := (site.overlay.serve resolver call).2 }) := by
  cases call with
  | readContent address =>
      dsimp only [answer, memory, readOverlayContent, Overlay.serve]
      cases address.key resolver .content <;> rfl
  | writeContent address content =>
      dsimp only [answer, memory, writeOverlayContent, Overlay.serve]
      cases address.key resolver .content <;> rfl
  | readCode address =>
      dsimp only [answer, memory, readOverlayCode, Overlay.serve]
      cases address.key resolver .code <;> rfl
  | writeCode address renderer =>
      dsimp only [answer, memory, writeOverlayCode, Overlay.serve]
      cases address.key resolver .code <;> rfl
  | unregister name => rfl
  | clear all => rfl

namespace Store.KeyValue

variable {α : Type} {s t u : Site Written} {token : Token} {operation : String}

/-! ## Calls that do not fail -/

/-- No call of the engine fails, and a token outlasts each of them. -/
structure Ready (token : Token) (s : Site Written) : Prop where
  faultless : s.environment.engine.faults = []
  live : isCancelled token s = false
  lasts : ∀ timeout, token.timeout = some timeout →
    Duration.timer s.environment.engine.delay ≤ Duration.timer timeout.ticks

/-- What no call of a store changes. -/
structure Steady (s t : Site Written) : Prop where
  delay : t.environment.engine.delay = s.environment.engine.delay
  faults : t.environment.engine.faults = s.environment.engine.faults
  cancelled : (Clocked.clock t).cancelled = (Clocked.clock s).cancelled

theorem Steady.trans (h : Steady s t) (h' : Steady t u) : Steady s u :=
  ⟨h'.delay.trans h.delay, h'.faults.trans h.faults, h'.cancelled.trans h.cancelled⟩

theorem Ready.steady (h : Ready token s) (steady : Steady s t) : Ready token t where
  faultless := steady.faults.trans h.faultless
  live := by
    have live := h.live
    unfold isCancelled Clock.isCancelled at *
    rwa [steady.cancelled]
  lasts := by
    rw [steady.delay]
    exact h.lasts

/-- A site at another time. -/
abbrev moment (s : Site Written) (now : Nat) : Site Written :=
  Clocked.setClock { Clocked.clock s with now := now } s

theorem finish_attempt {call : EngineCall} {collection : Collection} {key target : String}
    {f : Engine → α × Engine} (faultless : s.environment.engine.faults = []) :
    (attempt call collection key target f).run.finish s =
      some (.ok (f s.environment.engine).1,
        { s with environment := { s.environment with engine := (f s.environment.engine).2 } }) := by
  have fine : s.environment.engine.attempt call collection.name key f =
      (.ok (f s.environment.engine).1, (f s.environment.engine).2) := by
    unfold Engine.attempt Engine.fault?
    rw [faultless]
    rfl
  show some ((s.environment.engine.attempt call collection.name key f).1.mapError _,
    { s with environment := { s.environment with
      engine := (s.environment.engine.attempt call collection.name key f).2 } }) = _
  rw [fine]
  rfl

theorem ends_delayed {x : Keeping α} {ok : Except StoreError α → Site Written → Prop}
    (h : ∀ now, x.run.Ends ok (moment s now)) : (do engineDelay; x : Keeping α).run.Ends ok s := by
  have slept : (sleep (σ := Site Written) s.environment.engine.delay).Ends
      (fun _ t => x.run.Ends ok t) s := ends_sleep rfl h
  exact slept.bind

theorem finish_within_delayed {x : Keeping α} (ready : Ready token s) (instant : x.run.Instant) :
    (Storing.within token operation (do engineDelay; x)).run.finish s =
      (do engineDelay; x : Keeping α).run.finish s := by
  show (if isCancelled token s then _ else _ : Job (Site Written) _).finish s = _
  rw [if_neg (Bool.eq_false_iff.1 ready.live)]
  refine finish_boundedBy_sleep (fun _ => rfl) instant (fun d same => ?_) ready.live
  obtain ⟨timeout, lasts, rfl⟩ := Option.map_eq_some_iff.1 same
  exact Nat.add_le_add_left (ready.lasts timeout lasts) _

theorem ends_within_delayed {x : Keeping α} {ok : Except StoreError α → Site Written → Prop}
    (ready : Ready token s) (instant : x.run.Instant) (h : ∀ now, x.run.Ends ok (moment s now)) :
    (Storing.within token operation (do engineDelay; x)).run.Ends ok s := by
  obtain ⟨r, t, ends, fine⟩ := ends_delayed h
  exact ⟨r, t, (finish_within_delayed ready instant).trans ends, fine⟩

/-! ## Deletions -/

/-- Some documents are deleted and listed no more, while time may have passed. -/
structure Deletes (documents : List (Collection × String)) (s t : Site Written) : Prop where
  removes : Removes documents s t
  own : ∀ d ∈ s.own, d ∉ documents → d ∈ t.own
  overlay : t.overlay = s.overlay
  steady : Steady s t

theorem Deletes.append {documents more : List (Collection × String)} (h : Deletes documents s t)
    (h' : Deletes more t u) : Deletes (documents ++ more) s u where
  removes := h.removes.append h'.removes
  own d listed apart := by
    rw [List.mem_append, not_or] at apart
    exact h'.own d (h.own d listed apart.1) apart.2
  overlay := h'.overlay.trans h.overlay
  steady := h.steady.trans h'.steady

theorem deletes_nil (s : Site Written) (now : Nat) : Deletes [] s (moment s now) where
  removes := ⟨fun none => absurd none List.not_mem_nil, fun _ => rfl⟩
  own _ listed _ := listed
  overlay := rfl
  steady := ⟨rfl, rfl, rfl⟩

theorem ends_delete (collection : Collection) (key : String)
    (faultless : s.environment.engine.faults = []) :
    (delete collection key).run.Ends
      (fun r t => r = .ok key ∧ Deletes [(collection, key)] s t) s := by
  refine Ends.bindExcept ⟨_, _, finish_attempt faultless, _, _, rfl, rfl, ?_⟩
  refine ⟨⟨fun own => ?_, fun other => ?_⟩, fun d listed apart => ?_, rfl, rfl, rfl, rfl⟩
  · exact (get?_delete _ _ _ _ _).trans (if_pos (List.mem_singleton.1 own))
  · exact (get?_delete _ _ _ _ _).trans (if_neg fun own => other (List.mem_singleton.2 own))
  · exact (List.mem_erase_of_ne (List.ne_of_not_mem_cons apart)).2 listed

theorem ends_deletions (documents : α → Collection × String) (inputs : List α)
    (faultless : s.environment.engine.faults = []) :
    (inputs.mapM fun a => (delete (documents a).1 (documents a).2).run).Ends (fun outcomes t =>
      outcomes = inputs.map (fun a => .ok (documents a).2) ∧
        Deletes (inputs.map documents) s t) s := by
  suffices loop : ∀ (gone : List α) (t : Site Written), Deletes (gone.map documents) s t →
      (List.mapM.loop (fun a => (delete (documents a).1 (documents a).2).run) inputs
        (gone.map fun a => .ok (documents a).2).reverse).Ends (fun outcomes u =>
          outcomes = (gone ++ inputs).map (fun a => .ok (documents a).2) ∧
            Deletes ((gone ++ inputs).map documents) s u) t from
    loop [] s (deletes_nil s s.environment.clock.now)
  -- The induction is on what is still to be deleted; `gone` is what has been.
  induction inputs with
  | nil =>
      intro gone t deleted
      refine ⟨_, _, rfl, ?_⟩
      rw [List.append_nil, List.reverse_reverse]
      exact ⟨rfl, deleted⟩
  | cons a rest ih =>
      intro gone t deleted
      refine Ends.bind ((ends_delete _ _ (deleted.steady.faults.trans faultless)).mono ?_)
      rintro r u ⟨rfl, next⟩
      have more := ih (gone ++ [a]) u (by
        rw [List.map_append]
        exact deleted.append next)
      have made :
          ((gone ++ [a]).map fun a => (.ok (documents a).2 : Except StoreError String)).reverse =
            .ok (documents a).2 :: (gone.map fun a => .ok (documents a).2).reverse := by simp
      rwa [made, List.append_assoc] at more

/-- A batch without failures succeeds. -/
theorem batch_ok (keys : List String) :
    (Storing.batch (keys.map .ok) : Keeping Unit) = Storing.ofExcept (.ok ()) := by
  have none : Batch.failuresOf (keys.map (.ok : String → Except StoreError String)) = [] := by
    unfold Batch.failuresOf
    simp only [List.filterMap_eq_nil_iff]
    rintro ⟨outcome, index⟩ there
    obtain ⟨value, -, rfl⟩ := List.mem_map.1 (List.fst_mem_of_mem_zipIdx there)
    rfl
  unfold Storing.batch Batch.collect
  rw [none]
  rfl

/-- Operations that delete documents, all at the same time. -/
theorem ends_together (documents : α → Collection × String) (inputs : List α)
    (faultless : s.environment.engine.faults = []) :
    (together (fun a => delete (documents a).1 (documents a).2) inputs).run.Ends (fun r t =>
      r = .ok (inputs.map fun a => .ok (documents a).2) ∧
        Deletes (inputs.map documents) s t) s := by
  have deletions {u : Site Written} (passed : Deletes [] s u) :
      (Storing.always (inputs.mapM fun a => (delete (documents a).1 (documents a).2).run)).run.Ends
        (fun r t => r = .ok (inputs.map fun a => .ok (documents a).2) ∧
          Deletes (inputs.map documents) s t) u := by
    refine Ends.bind ((ends_deletions documents inputs
      (passed.steady.faults.trans faultless)).mono ?_)
    rintro outcomes t ⟨rfl, deleted⟩
    exact ends_done ⟨rfl, passed.append deleted⟩
  unfold together
  by_cases empty : inputs.isEmpty = true
  · rw [empty]
    exact deletions (deletes_nil s s.environment.clock.now)
  · rw [Bool.not_eq_true] at empty
    rw [empty]
    exact ends_delayed fun now => deletions (deletes_nil s now)

theorem ends_deleteAll (documents : List (Collection × String))
    (faultless : s.environment.engine.faults = []) :
    (deleteAll documents).run.Ends (fun r t => r = .ok () ∧ Deletes documents s t) s := by
  refine Ends.bindExcept ((ends_together id documents faultless).mono ?_)
  rintro r t ⟨rfl, deleted⟩
  rw [List.map_id] at deleted
  have done := batch_ok (documents.map (·.2))
  rw [List.map_map] at done
  exact ⟨_, _, congrArg (fun x => ExceptT.run x |>.finish t) done, rfl, deleted⟩

theorem instant_delete (collection : Collection) (key : String) :
    (delete collection key).run.Instant :=
  Instant.bindExcept (fun _ => trivial) fun _ _ => trivial

/-- Deletions that are due. -/
abbrev deletions (documents : List (Collection × String)) : Keeping Unit := do
  let outcomes ← Storing.always (documents.mapM fun d => (delete d.1 d.2).run)
  Storing.batch outcomes

theorem deleteAll_nil : deleteAll [] = deletions [] := rfl

theorem deleteAll_cons (d : Collection × String) (rest : List (Collection × String)) :
    deleteAll (d :: rest) = (do engineDelay; deletions (d :: rest)) := by
  unfold deleteAll together
  rw [List.isEmpty_cons]
  rfl

theorem instant_deletions (documents : List (Collection × String)) :
    (deletions documents).run.Instant := by
  refine Instant.bindExcept ?_ fun _ => trivial
  refine Instant.bind (f := fun outcomes => done (Except.ok outcomes)) ?_ fun _ => trivial
  refine Instant.mapM ?_ documents
  exact fun d => instant_delete d.1 d.2

theorem ends_within_deleteAll (documents : List (Collection × String)) (ready : Ready token s) :
    (Storing.within token operation (deleteAll documents)).run.Ends
      (fun r t => r = .ok () ∧ Deletes documents s t) s := by
  obtain ⟨r, t, ends, fine⟩ := ends_deleteAll documents ready.faultless
  refine ⟨r, t, Eq.trans ?_ ends, fine⟩
  cases documents with
  | nil =>
      rw [deleteAll_nil]
      exact (instant_deletions _).within ready.live
  | cons d rest =>
      rw [deleteAll_cons]
      exact finish_within_delayed ready (instant_deletions _)

/-! ## Sweeps -/

theorem ascending_keysBehind (e : Engine) (collection : String) (after : Option String) :
    (e.keysBehind collection after).Pairwise (· < ·) :=
  (List.pairwise_map.2 (e.documents collection).ascending).filter _

theorem mem_keysBehind {collection : Collection} {after : Option String} {key : String} :
    key ∈ s.environment.engine.keysBehind collection.name after ↔
      (∃ bytes, document collection key s = some bytes) ∧
        ∀ cursor, after = some cursor → cursor < key := by
  unfold Engine.keysBehind
  rw [List.mem_filter, KeyMap.mem_keys]
  cases after <;> simp [document, Engine.get?]

theorem ends_page (collection : Collection) (limit : Option Nat) (cursor : Option String)
    (ready : Ready token s) :
    (page collection limit cursor token).run.Ends (fun r t =>
      let keys := s.environment.engine.keysBehind collection.name cursor
      r = .ok ((limit.elim keys keys.take), limit.any (· ≤ keys.length)) ∧ Deletes [] s t) s := by
  refine Ends.bindExcept (ends_within_delayed ready (fun _ => trivial) fun now => ?_)
  refine ⟨_, _, finish_attempt (s := moment s now) ready.faultless, ?_⟩
  cases limit with
  | none => exact ends_done ⟨rfl, deletes_nil s now⟩
  | some n => exact ends_done ⟨rfl, deletes_nil s now⟩

/-- Of ascending keys, those that a page leaves are behind its last one. -/
theorem last_lt {keys : List String} (ascending : keys.Pairwise (· < ·)) {n : Nat}
    {last key : String} (at_end : (keys.take n).getLast? = some last) (there : key ∈ keys)
    (left : key ∉ keys.take n) :
    last < key := by
  rw [← List.take_append_drop n keys] at ascending there
  exact (List.pairwise_append.1 ascending).2.2 last (List.mem_of_getLast? at_end) key
    ((List.mem_append.1 there).resolve_left left)

/-- What is still there after some keys were visited was there before and was not visited. -/
theorem unvisited_of_deletes {collection : Collection} {keys : List String} {key : String}
    {bytes : List UInt8} (deleted : Deletes (keys.map (collection, ·)) s t)
    (still : document collection key t = some bytes) :
    document collection key s = some bytes ∧ key ∉ keys := by
  have unvisited : (collection, key) ∉ keys.map (collection, ·) := fun there => by
    rw [deleted.removes.gone there] at still
    exact nomatch still
  rw [deleted.removes.kept unvisited] at still
  exact ⟨still, fun there => unvisited (List.mem_map_of_mem there)⟩

theorem ends_visit (collection : Collection) (keys : List String) (passed : Deletes [] s t)
    (ready : Ready token s) :
    (together (delete collection) keys).run.Ends (fun r u =>
      r = .ok (keys.map .ok) ∧ Deletes (keys.map (collection, ·)) s u) t := by
  refine (ends_together (fun key => (collection, key)) keys
    (ready.steady passed.steady).faultless).mono ?_
  rintro r u ⟨rfl, deleted⟩
  exact ⟨rfl, passed.append deleted⟩

/-- A sweep that deletes what it visits leaves nothing, if it begins with nothing at or in front of
its cursor. -/
theorem ends_sweepFrom (collection : Collection) {pageSize : Nat} (size : 0 < pageSize)
    (pages : Nat) (cursor : Option String) (ready : Ready token s)
    (behind : ∀ key bytes, document collection key s = some bytes →
      ∀ c, cursor = some c → c < key) :
    (sweepFrom collection pageSize token (delete collection) pages cursor).run.Ends (fun r t =>
      ∃ keys : List String, r = .ok (keys.map .ok) ∧ Deletes (keys.map (collection, ·)) s t ∧
        ∀ key, document collection key t = none) s := by
  induction pages generalizing s cursor with
  | zero =>
      -- The last page has no limit: it visits all that is behind the cursor.
      refine Ends.bindExcept ((ends_page collection none cursor ready).mono ?_)
      rintro r t ⟨rfl, passed⟩
      refine (ends_visit collection _ passed ready).mono ?_
      rintro r u ⟨rfl, deleted⟩
      refine ⟨_, rfl, deleted, fun key => Option.eq_none_iff_forall_ne_some.2 fun bytes still => ?_⟩
      obtain ⟨there, unvisited⟩ := unvisited_of_deletes deleted still
      exact unvisited (mem_keysBehind.2 ⟨⟨bytes, there⟩, behind key bytes there⟩)
  | succ pages ih =>
      refine Ends.bindExcept ((ends_page collection (some pageSize) cursor ready).mono ?_)
      rintro r t ⟨rfl, passed⟩
      refine Ends.bindExcept ((ends_visit collection _ passed ready).mono ?_)
      rintro r u ⟨rfl, deleted⟩
      dsimp only [Option.elim_some, Option.any_some] at deleted ⊢
      have ascending := ascending_keysBehind s.environment.engine collection.name cursor
      have remains {key : String} {bytes : List UInt8}
          (still : document collection key u = some bytes) :
          key ∈ s.environment.engine.keysBehind collection.name cursor ∧
            key ∉ (s.environment.engine.keysBehind collection.name cursor).take pageSize := by
        obtain ⟨there, unvisited⟩ := unvisited_of_deletes deleted still
        exact ⟨mem_keysBehind.2 ⟨⟨bytes, there⟩, behind key bytes there⟩, unvisited⟩
      generalize s.environment.engine.keysBehind collection.name cursor = keys at *
      split
      -- What a full page leaves is behind its last key, where the next one begins.
      · rename_i full
        have full := of_decide_eq_true full
        have nonempty : keys.take pageSize ≠ [] := by
          rw [← List.length_pos_iff, List.length_take, Nat.min_eq_left full]
          exact size
        obtain ⟨last, isLast⟩ :=
          Option.ne_none_iff_exists'.1 (mt List.getLast?_eq_none_iff.1 nonempty)
        rw [isLast, Option.some_or]
        refine Ends.bindExcept ((ih (some last) (ready.steady deleted.steady) ?_).mono ?_)
        · rintro key bytes still _ ⟨⟩
          exact last_lt ascending isLast (remains still).1 (remains still).2
        · rintro r v ⟨more, rfl, rest, gone⟩
          refine ends_done ⟨keys.take pageSize ++ more, ?_, ?_, gone⟩
          · rw [List.map_append]
          · rw [List.map_append]
            exact deleted.append rest
      -- A short page has visited all that was there.
      · rename_i short
        have short : ¬pageSize ≤ keys.length := fun le => short (decide_eq_true le)
        have all : keys.take pageSize = keys := List.take_of_length_le (Nat.le_of_not_le short)
        refine ends_done ⟨_, rfl, deleted, fun key => ?_⟩
        refine Option.eq_none_iff_forall_ne_some.2 fun bytes still => (remains still).2 ?_
        rw [all]
        exact (remains still).1

theorem ends_sweep (collection : Collection) {pageSize : Nat} (size : 0 < pageSize)
    (ready : Ready token s) :
    (sweep collection pageSize token (delete collection)).run.Ends (fun r t =>
      ∃ keys : List String, r = .ok (keys.map .ok) ∧ Deletes (keys.map (collection, ·)) s t ∧
        ∀ key, document collection key t = none) s :=
  ends_sweepFrom collection size _ none ready fun _ _ _ _ => nofun

/-! ## Shadows -/

end Store.KeyValue

namespace Overlay

variable {o : Overlay} {key : String}

/-- A key has a record of content, under a name that is not blank. -/
def HasContent (o : Overlay) (key : String) : Prop :=
  ∃ record, o.content.get? key = some record ∧ Text.isBlankOnly record.name = false

/-- A key has a renderer, under a name that is not blank. -/
def HasCode (o : Overlay) (key : String) : Prop :=
  ∃ record, o.code.get? key = some record ∧ Text.isBlankOnly record.name = false

theorem hasContent_put {record : ContentRecord} (named : Text.isBlankOnly record.name = false)
    (there : key = record.key ∨ o.HasContent key) : (o.putContent record).HasContent key := by
  unfold HasContent putContent
  rw [KeyMap.get?_insert]
  split
  · exact ⟨record, rfl, named⟩
  · exact there.resolve_left ‹_›

theorem hasCode_put {record : CodeRecord} (named : Text.isBlankOnly record.name = false)
    (there : key = record.key ∨ o.HasCode key) : (o.putCode record).HasCode key := by
  unfold HasCode putCode
  rw [KeyMap.get?_insert]
  split
  · exact ⟨record, rfl, named⟩
  · exact there.resolve_left ‹_›

theorem HasContent.eraseName {name : String} (there : o.HasContent key)
    (other : key ∉ o.contentKeys name) : (o.eraseName name).HasContent key := by
  obtain ⟨record, found, named⟩ := there
  have kept : record.name ≠ name := fun own => other (mem_contentKeys.2 ⟨record, found, own⟩)
  refine ⟨record, ?_, named⟩
  simp [Overlay.eraseName, removeCode, found, kept]

theorem HasCode.eraseName {name : String} (there : o.HasCode key)
    (other : key ∉ o.codeKeys name) : (o.eraseName name).HasCode key := by
  obtain ⟨record, found, named⟩ := there
  have kept : record.name ≠ name := fun own => other (mem_codeKeys.2 ⟨record, found, own⟩)
  refine ⟨record, ?_, named⟩
  simp [Overlay.eraseName, removeCode, found, kept]

/-- A blank name has no such record. -/
theorem HasContent.not_blank {name : String} (there : o.HasContent key)
    (own : key ∈ o.contentKeys name) : ¬Text.isBlankOnly name = true := by
  obtain ⟨record, found, named⟩ := there
  obtain ⟨same, again, rfl⟩ := mem_contentKeys.1 own
  cases again.symm.trans found
  exact Bool.eq_false_iff.1 named

theorem HasCode.not_blank {name : String} (there : o.HasCode key)
    (own : key ∈ o.codeKeys name) : ¬Text.isBlankOnly name = true := by
  obtain ⟨record, found, named⟩ := there
  obtain ⟨same, again, rfl⟩ := mem_codeKeys.1 own
  cases again.symm.trans found
  exact Bool.eq_false_iff.1 named

end Overlay

namespace Store.KeyValue

variable {s t u : Site Written} {token : Token} {operation : String}

/-- Every document has a record in the overlay, and the store knows it as its own. -/
structure Shadowed (s : Site Written) : Prop where
  content : ∀ key bytes, document .content key s = some bytes → s.overlay.HasContent key
  code : ∀ key bytes, document .code key s = some bytes → s.overlay.HasCode key
  own : ∀ collection key bytes, document collection key s = some bytes →
    (collection, key) ∈ s.own

theorem shadowed_of_empty (empty : ∀ collection key, document collection key s = none) :
    Shadowed s where
  content key bytes there := by simp [empty] at there
  code key bytes there := by simp [empty] at there
  own collection key bytes there := by simp [empty] at there

theorem get?_put (e : Engine) (collection other : Collection) (key k : String)
    (bytes : List UInt8) :
    (e.put collection.name key bytes).get? other.name k =
      if (other, k) = (collection, key) then some bytes else e.get? other.name k := by
  unfold Engine.get? Engine.put Engine.documents
  dsimp only
  rw [KeyMap.get?_insert]
  by_cases own : other = collection
  · subst own
    rw [if_pos rfl, Option.getD_some, KeyMap.get?_insert]
    simp
  · rw [if_neg fun same => own (name_injective same),
      if_neg fun same => own (congrArg Prod.fst same)]

end Store.KeyValue

/-- Only the unregistration of a name without keys is answered in another way. -/
def StoreCall.IsKeyed (resolver : Resolver) : StoreCall → Prop
  | .unregister name => ∃ key, resolver.resolve name .content none none = .ok key
  | _ => True

namespace Store.KeyValue

variable {resolver : Resolver} {pageSize : Nat} {call : StoreCall}

/-- A call is served as by the overlay alone, and documents stay shadowed. -/
def Serves (resolver : Resolver) (call : StoreCall) (s : Site Written)
    (r : Except StoreError StoreAnswer) (t : Site Written) : Prop :=
  (call.IsKeyed resolver → r = (s.overlay.serve resolver call).1) ∧
    t.overlay = (s.overlay.serve resolver call).2 ∧ Steady s t ∧ Shadowed t

theorem ends_naming {β : Type} {r : Except NameError β} {f : β → Keeping α}
    {ok : Except StoreError α → Site Written → Prop}
    (failed : ∀ e, r = .error e → ok (.error (.naming e)) s)
    (named : ∀ v, r = .ok v → (f v).run.Ends ok s) : (Storing.naming r >>= f).run.Ends ok s := by
  cases r with
  | ok v => exact named v rfl
  | error e => exact ⟨_, _, rfl, failed e rfl⟩

theorem steady_refl (s : Site Written) : Steady s s := ⟨rfl, rfl, rfl⟩

theorem serves {answer : Except StoreError StoreAnswer} {o : Overlay}
    (same : s.overlay.serve resolver call = (answer, o)) (overlay : t.overlay = o)
    (steady : Steady s t) (shadowed : Shadowed t) : Serves resolver call s answer t := by
  unfold Serves
  rw [same]
  exact ⟨fun _ => rfl, overlay, steady, shadowed⟩

theorem Shadowed.moment (shadowed : Shadowed s) (now : Nat) : Shadowed (moment s now) :=
  ⟨shadowed.content, shadowed.code, shadowed.own⟩

/-- Where the overlay has no record, there is no document either. -/
theorem Shadowed.no_content (shadowed : Shadowed s) {key : String}
    (none : s.overlay.content.get? key = none) : document .content key s = .none := by
  refine Option.eq_none_iff_forall_ne_some.2 fun bytes there => ?_
  obtain ⟨record, found, -⟩ := shadowed.content key bytes there
  rw [none] at found
  exact nomatch found

theorem Shadowed.no_code (shadowed : Shadowed s) {key : String}
    (none : s.overlay.code.get? key = none) : document .code key s = .none := by
  refine Option.eq_none_iff_forall_ne_some.2 fun bytes there => ?_
  obtain ⟨record, found, -⟩ := shadowed.code key bytes there
  rw [none] at found
  exact nomatch found

theorem finish_get (collection : Collection) (key : String)
    (faultless : s.environment.engine.faults = []) :
    (get collection key).run.finish s = some (.ok (document collection key s), s) :=
  finish_attempt faultless

theorem instant_decoded (key : String) (decoder : Json.Decoder α) (bytes : Option (List UInt8)) :
    (decoded key decoder bytes).run.Instant := by
  cases bytes with
  | none => trivial
  | some bytes =>
      unfold decoded
      dsimp only
      split <;> trivial

theorem instant_loadContent (key : String) : (loadContent key).run.Instant := by
  unfold loadContent
  refine Instant.bindExcept (fun _ => trivial) fun bytes => ?_
  refine Instant.bindExcept (instant_decoded _ _ _) fun found => ?_
  cases found with
  | none => trivial
  | some record => exact fun _ => trivial

theorem ends_readContent (address : Address) (ready : Ready token s) (shadowed : Shadowed s) :
    ((keyValue resolver pageSize).answer token (.readContent address)).run.Ends
      (Serves resolver (.readContent address) s) s := by
  refine Ends.mapExcept (ends_naming (fun e unnamed => ?_) fun key named => ?_)
  · exact serves (by simp only [Overlay.serve, unnamed, Except.map]) rfl (steady_refl s) shadowed
  have same : s.overlay.serve resolver (.readContent address) =
      (.ok (.content (s.overlay.content.get? key)), s.overlay) := by
    simp only [Overlay.serve, named]
  refine Ends.bindExcept ⟨_, _, rfl, ?_⟩
  dsimp only
  cases found : s.overlay.content.get? key with
  | some record =>
      rw [found] at same
      exact ends_done (serves same rfl (steady_refl s) shadowed)
  | none =>
      rw [found] at same
      refine ends_within_delayed ready (instant_loadContent key) fun now => ?_
      refine Ends.bindExcept ⟨_, _, finish_get .content key (s := moment s now) ready.faultless, ?_⟩
      have missing : document .content key (moment s now) = .none := shadowed.no_content found
      rw [missing]
      exact ends_done (serves same rfl ⟨rfl, rfl, rfl⟩ (shadowed.moment now))

theorem ends_readCode (address : Address) (ready : Ready token s) (shadowed : Shadowed s) :
    ((keyValue resolver pageSize).answer token (.readCode address)).run.Ends
      (Serves resolver (.readCode address) s) s := by
  refine Ends.mapExcept (ends_naming (fun e unnamed => ?_) fun key named => ?_)
  · exact serves (by simp only [Overlay.serve, unnamed, Except.map]) rfl (steady_refl s) shadowed
  have same : s.overlay.serve resolver (.readCode address) =
      (.ok (.code ((s.overlay.code.get? key).map .live)), s.overlay) := by
    simp only [Overlay.serve, named]
  refine Ends.bindExcept ⟨_, _, rfl, ?_⟩
  dsimp only
  cases found : s.overlay.code.get? key with
  | some record =>
      rw [found] at same
      exact ends_done (serves same rfl (steady_refl s) shadowed)
  | none =>
      rw [found] at same
      refine Ends.bindExcept (ends_within_delayed ready (fun _ => trivial) fun now => ?_)
      refine ⟨_, _, finish_get .code key (s := moment s now) ready.faultless, ?_⟩
      have missing : document .code key (moment s now) = .none := shadowed.no_code found
      rw [missing]
      exact ends_done (serves same rfl ⟨rfl, rfl, rfl⟩ (shadowed.moment now))

theorem ends_put (collection : Collection) (key text : String) (ready : Ready token s) :
    (Storing.within token operation (put collection key text)).run.Ends (fun r t =>
      r = .ok () ∧ t.overlay = s.overlay ∧ t.own = s.own ∧ Steady s t ∧
        ∀ other k, document other k t =
          if (other, k) = (collection, key) then some text.toUTF8.toList
          else document other k s) s := by
  refine ends_within_delayed ready (fun _ => trivial) fun now => ?_
  refine ⟨_, _, finish_attempt (s := moment s now) ready.faultless, rfl, rfl, rfl, ⟨rfl, rfl, rfl⟩,
    fun other k => ?_⟩
  exact get?_put _ _ _ _ _ _

/-- A document is written with its shadow. -/
theorem Shadowed.written {collection : Collection} {key : String} {bytes : List UInt8}
    (shadowed : Shadowed s) (documents : ∀ other k, document other k t =
      if (other, k) = (collection, key) then some bytes else document other k s)
    (own : ∀ d, d = (collection, key) ∨ d ∈ s.own → d ∈ t.own)
    (content : ∀ k, (.content, k) = (collection, key) ∨ s.overlay.HasContent k →
      t.overlay.HasContent k)
    (code : ∀ k, (.code, k) = (collection, key) ∨ s.overlay.HasCode k → t.overlay.HasCode k) :
    Shadowed t := by
  have cases {other : Collection} {k : String} {found : List UInt8}
      (there : document other k t = some found) :
      (other, k) = (collection, key) ∨ document other k s = some found := by
    rw [documents] at there
    split at there
    · exact .inl ‹_›
    · exact .inr there
  exact ⟨fun k found there => content k ((cases there).imp id (shadowed.content k found)),
    fun k found there => code k ((cases there).imp id (shadowed.code k found)),
    fun other k found there => own _ ((cases there).imp id (shadowed.own other k found))⟩

theorem mem_remembered {own : Written} {d e : Collection × String} (there : e = d ∨ e ∈ own) :
    e ∈ if d ∈ own then own else own ++ [d] := by
  split
  · exact there.elim (fun same => same ▸ ‹_›) id
  · exact there.elim (fun same => List.mem_append_right _ (List.mem_singleton.2 same))
      (List.mem_append_left _)

theorem ends_writeContent (address : Address) (content : Content) (ready : Ready token s)
    (shadowed : Shadowed s) :
    ((keyValue resolver pageSize).answer token (.writeContent address content)).run.Ends
      (Serves resolver (.writeContent address content) s) s := by
  refine Ends.mapExcept (ends_naming (fun e unnamed => ?_) fun key named => ?_)
  · exact serves (by simp only [Overlay.serve, unnamed, Except.map]) rfl (steady_refl s) shadowed
  have same : s.overlay.serve resolver (.writeContent address content) =
      (.ok (.written (writtenRecord address key content)),
        s.overlay.putContent (writtenRecord address key content)) := by
    simp only [Overlay.serve, named]
  refine Ends.bindExcept ((ends_put _ _ _ ready).mono ?_)
  rintro r ⟨o, own, environment⟩ ⟨rfl, rfl, rfl, steady, documents⟩
  refine ⟨_, _, rfl, serves same rfl ⟨steady.delay, steady.faults, steady.cancelled⟩ ?_⟩
  refine shadowed.written documents (fun _ => mem_remembered) (fun k there => ?_) fun k there => ?_
  · exact Overlay.hasContent_put (Resolver.not_blank named) (there.imp (congrArg Prod.snd) id)
  · exact there.resolve_left nofun

theorem ends_writeCode (address : Address) (renderer : Renderer) (ready : Ready token s)
    (shadowed : Shadowed s) :
    ((keyValue resolver pageSize).answer token (.writeCode address renderer)).run.Ends
      (Serves resolver (.writeCode address renderer) s) s := by
  refine Ends.mapExcept (ends_naming (fun e unnamed => ?_) fun key named => ?_)
  · exact serves (by simp only [Overlay.serve, unnamed, Except.map]) rfl (steady_refl s) shadowed
  have same : s.overlay.serve resolver (.writeCode address renderer) =
      (.ok (.kept ⟨key, address.name, renderer⟩),
        s.overlay.putCode ⟨key, address.name, renderer⟩) := by
    simp only [Overlay.serve, named]
  cases source : renderer.source with
  | none =>
      refine ⟨_, _, rfl, serves same rfl ⟨rfl, rfl, rfl⟩ ?_⟩
      exact ⟨shadowed.content, fun k bytes there => Overlay.hasCode_put (Resolver.not_blank named)
        (.inr (shadowed.code k bytes there)), shadowed.own⟩
  | some text =>
      refine Ends.bindExcept ((ends_put _ _ _ ready).mono ?_)
      rintro r ⟨o, own, environment⟩ ⟨rfl, rfl, rfl, steady, documents⟩
      refine ⟨_, _, rfl, serves same rfl ⟨steady.delay, steady.faults, steady.cancelled⟩ ?_⟩
      refine shadowed.written documents (fun _ => mem_remembered) (fun k there => ?_)
        fun k there => ?_
      · exact there.resolve_left nofun
      · exact Overlay.hasCode_put (Resolver.not_blank named) (there.imp (congrArg Prod.snd) id)

/-- What an unregistration leaves of the documents has a record under another name. -/
theorem Shadowed.unregistered {name : String} {documents : List (Collection × String)}
    (shadowed : Shadowed s) (deletes : Deletes documents
      { s with overlay := s.overlay.eraseName name } t)
    (content : ∀ key, s.overlay.HasContent key → key ∈ s.overlay.contentKeys name →
      (.content, key) ∈ documents)
    (code : ∀ key, s.overlay.HasCode key → key ∈ s.overlay.codeKeys name →
      (.code, key) ∈ documents) : Shadowed t := by
  have left {collection : Collection} {key : String} {bytes : List UInt8}
      (there : document collection key t = some bytes) :
      (collection, key) ∉ documents ∧ document collection key s = some bytes := by
    have kept : (collection, key) ∉ documents := fun gone => by
      rw [deletes.removes.gone gone] at there
      exact nomatch there
    rw [deletes.removes.kept kept] at there
    exact ⟨kept, there⟩
  refine ⟨fun key bytes there => ?_, fun key bytes there => ?_,
    fun collection key bytes there => ?_⟩
  · have had := shadowed.content key bytes (left there).2
    rw [deletes.overlay]
    exact had.eraseName fun own => (left there).1 (content key had own)
  · have had := shadowed.code key bytes (left there).2
    rw [deletes.overlay]
    exact had.eraseName fun own => (left there).1 (code key had own)
  · exact deletes.own _ (shadowed.own collection key bytes (left there).2) (left there).1

theorem ends_unregister (name : String) (ready : Ready token s) (shadowed : Shadowed s) :
    ((keyValue resolver pageSize).answer token (.unregister name)).run.Ends
      (Serves resolver (.unregister name) s) s := by
  refine Ends.mapExcept ?_
  refine Ends.bindExcept ⟨_, _, rfl, ?_⟩
  refine Ends.bindExcept ⟨_, _, rfl, ?_⟩
  dsimp only
  by_cases named : Text.isBlankOnly name = true
  · -- No record has a blank name.
    have unnamed : resolver.resolve name .content none none = .error .empty := by
      unfold Resolver.resolve Resolver.assemble
      rw [if_pos named]
    rw [unnamed]
    refine ⟨_, _, rfl, fun ⟨key, keyed⟩ => ?_, rfl, ⟨rfl, rfl, rfl⟩, ?_⟩
    · rw [unnamed] at keyed
      exact nomatch keyed
    · refine shadowed.unregistered (deletes_nil _ s.environment.clock.now)
        (fun key had own => ?_) fun key had own => ?_
      · exact absurd named (had.not_blank own)
      · exact absurd named (had.not_blank own)
  · have real := Bool.eq_false_iff.2 named
    obtain ⟨contentKey, content⟩ : ∃ key, resolver.resolve name .content none none = .ok key :=
      Resolver.resolve_ok real
    obtain ⟨codeKey, code⟩ : ∃ key, resolver.resolve name .code none none = .ok key :=
      Resolver.resolve_ok real
    rw [content, code]
    have ready : Ready token { s with overlay := s.overlay.eraseName name } :=
      ⟨ready.faultless, ready.live, ready.lasts⟩
    refine (ends_within_deleteAll _ ready).mono ?_
    rintro r t ⟨rfl, deleted⟩
    refine serves rfl deleted.overlay
      ⟨deleted.steady.delay, deleted.steady.faults, deleted.steady.cancelled⟩
      (shadowed.unregistered deleted (fun key had own => ?_) fun key had own => ?_)
    · exact List.mem_append_left _
        (List.mem_map_of_mem (mem_sorted.2 (List.mem_cons_of_mem _ own)))
    · exact List.mem_append_right _
        (List.mem_map_of_mem (mem_sorted.2 (List.mem_cons_of_mem _ own)))

/-- Both sweeps of a store that is cleared for all. -/
theorem ends_sweeps (size : 0 < pageSize) (ready : Ready token s) :
    (do
      let content ← sweep .content pageSize token (delete .content)
      let code ← sweep .code pageSize token (delete .code)
      Storing.batch (content ++ code) : Keeping Unit).run.Ends (fun r t =>
        r = .ok () ∧ ∃ documents, Deletes documents s t ∧
          ∀ collection key, document collection key t = none) s := by
  refine Ends.bindExcept ((ends_sweep .content size ready).mono ?_)
  rintro r t ⟨content, rfl, first, contentGone⟩
  refine Ends.bindExcept ((ends_sweep .code size (ready.steady first.steady)).mono ?_)
  rintro r u ⟨code, rfl, second, codeGone⟩
  have done := batch_ok (content ++ code)
  rw [List.map_append] at done
  refine ⟨_, _, congrArg (fun x => ExceptT.run x |>.finish u) done, rfl, _, first.append second,
    fun collection key => ?_⟩
  cases collection with
  | content =>
      rw [second.removes.kept (by simp)]
      exact contentGone key
  | code => exact codeGone key

theorem ends_clear (all : Bool) (ready : Ready token s) (shadowed : Shadowed s) :
    ((keyValue resolver pageSize).answer token (.clear all)).run.Ends
      (Serves resolver (.clear all) s) s := by
  refine Ends.mapExcept ?_
  refine Ends.bindExcept ⟨_, _, rfl, ?_⟩
  dsimp only
  cases all with
  | true =>
      refine (ends_sweeps (Nat.le_max_right pageSize 1)
        (s := { s with overlay := ∅ }) ⟨ready.faultless, ready.live, ready.lasts⟩).mono ?_
      rintro r t ⟨rfl, documents, deleted, empty⟩
      exact serves rfl deleted.overlay
        ⟨deleted.steady.delay, deleted.steady.faults, deleted.steady.cancelled⟩
        (shadowed_of_empty empty)
  | false =>
      refine Ends.bindExcept ⟨_, _, rfl, ?_⟩
      refine Ends.bindExcept ⟨_, _, rfl, ?_⟩
      dsimp only
      have ready' : Ready token { s with overlay := ∅, own := [] } :=
        ⟨ready.faultless, ready.live, ready.lasts⟩
      refine (ends_within_deleteAll s.own ready').mono ?_
      rintro r t ⟨rfl, deleted⟩
      refine serves rfl deleted.overlay
        ⟨deleted.steady.delay, deleted.steady.faults, deleted.steady.cancelled⟩
        (shadowed_of_empty fun collection key => ?_)
      by_cases own : (collection, key) ∈ s.own
      · exact deleted.removes.gone own
      · rw [deleted.removes.kept own]
        exact Option.eq_none_iff_forall_ne_some.2 fun bytes there =>
          own (shadowed.own collection key bytes there)

/-- One call keeps the shadows, and is served by them. -/
theorem ends_answer (resolver : Resolver) (pageSize : Nat) (call : StoreCall)
    (ready : Ready token s) (shadowed : Shadowed s) :
    ((keyValue resolver pageSize).answer token call).run.Ends (Serves resolver call s) s := by
  cases call with
  | readContent address => exact ends_readContent address ready shadowed
  | writeContent address content => exact ends_writeContent address content ready shadowed
  | readCode address => exact ends_readCode address ready shadowed
  | writeCode address renderer => exact ends_writeCode address renderer ready shadowed
  | unregister name => exact ends_unregister name ready shadowed
  | clear all => exact ends_clear all ready shadowed

end Store.KeyValue

/-! ## Runs -/

namespace Store

open KeyValue

variable {π ρ : Type} {resolver : Resolver}

/-- Two answers to a call are the same, and code is answered with live renderers only. -/
structure Alike (resolver : Resolver) (call : StoreCall) (a b : Except StoreError StoreAnswer) :
    Prop where
  same : call.IsKeyed resolver → a = b
  live : ∀ key name source, b ≠ .ok (.code (some (.text key name source)))

/-- Two stores answer every call of a sequence, and each one alike. -/
def AnswerAlike (first : Store π) (second : Store ρ) (calls : List (StoreCall × Token))
    (s : Site π) (m : Site ρ) : Prop :=
  ∃ (answers others : List (Except StoreError StoreAnswer)) (s' : Site π) (m' : Site ρ),
    first.serve calls s = some (answers, s') ∧ second.serve calls m = some (others, m') ∧
      ∀ (i : Nat) (call : StoreCall) (token : Token), calls[i]? = some (call, token) →
        ∃ a b, answers[i]? = some a ∧ others[i]? = some b ∧ Alike second.resolver call a b

theorem serve_live (o : Overlay) (call : StoreCall) (key name source : String) :
    (o.serve resolver call).1 ≠ .ok (.code (some (.text key name source))) := by
  cases call with
  | readCode address =>
      simp only [Overlay.serve]
      cases address.key resolver .code with
      | error e => simp
      | ok k => cases o.code.get? k <;> simp
  | unregister name => simp [Overlay.serve]
  | clear all => simp [Overlay.serve]
  | _ =>
      unfold Overlay.serve
      dsimp only
      split <;> simp

/-- Shadowed by the same overlay, a key-value store goes on like one in memory. -/
theorem answerAlike_of_shadowed {pageSize : Nat} {calls : List (StoreCall × Token)}
    {s : Site Written} {m : Site Unit} (ready : ∀ c ∈ calls, Ready c.2 s) (shadowed : Shadowed s)
    (same : s.overlay = m.overlay) :
    AnswerAlike (keyValue resolver pageSize) (memory resolver) calls s m := by
  induction calls generalizing s m with
  | nil => exact ⟨[], [], s, m, rfl, rfl, nofun⟩
  | cons c rest ih =>
      rcases c with ⟨call, token⟩
      obtain ⟨a, t, ends, answered, overlay, steady, still⟩ :=
        ends_answer resolver pageSize call (ready _ List.mem_cons_self) shadowed
      rw [same] at answered overlay
      obtain ⟨answers, others, s', m', runs, also, alike⟩ := ih
        (m := { m with overlay := (m.overlay.serve resolver call).2 })
        (fun c there => (ready c (List.mem_cons_of_mem _ there)).steady steady) still overlay
      refine ⟨a :: answers, (m.overlay.serve resolver call).1 :: others, s', m', ?_, ?_, ?_⟩
      · unfold serve
        rw [ends]
        exact congrArg (Option.map _) runs
      · unfold serve
        rw [finish_memory]
        exact congrArg (Option.map _) also
      · intro i call' token' there
        cases i with
        | zero =>
            cases there
            exact ⟨_, _, rfl, rfl, answered, serve_live _ _⟩
        | succ i => exact alike i call' token' there

/-- A key-value store alone on an engine that begins empty answers every sequence of calls as a
store in memory does. -/
theorem keyValue_alike_memory (resolver : Resolver) (pageSize : Nat)
    (calls : List (StoreCall × Token)) {s : Site Written} {m : Site Unit} (fresh : s.overlay = ∅)
    (empty : s.environment.engine.collections = ∅) (ready : ∀ c ∈ calls, Ready c.2 s)
    (blank : m.overlay = ∅) :
    AnswerAlike (keyValue resolver pageSize) (memory resolver) calls s m := by
  refine answerAlike_of_shadowed ready (shadowed_of_empty fun collection key => ?_)
    (fresh.trans blank.symm)
  unfold document Engine.get? Engine.documents
  rw [empty]
  rfl

/-- An engine that takes its time, pages of one key, and a name that leads to another one's key. -/
theorem header_alike_memory :
    let resolver : Resolver := ⟨.standard, none⟩
    let header : Address := { name := "header" }
    let calls : List (StoreCall × Token) := [
      (.writeContent header (.text "<p>"), ⟨[0], some ⟨5000000⟩⟩),
      (.writeCode header ⟨some "<p>", fun _ _ => .ok "<p>"⟩, ⟨[1], none⟩),
      (.unregister "header.html", ⟨[2], none⟩),
      (.readContent header, ⟨[3], none⟩),
      (.clear true, ⟨[4], none⟩),
      (.readCode header, ⟨[5], none⟩)]
    let s : Site Written := { own := [], environment := { engine := { delay := 5 } } }
    let m : Site Unit := { own := () }
    (∀ c ∈ calls, Ready c.2 s) ∧
      AnswerAlike (keyValue resolver 1) (memory resolver) calls s m := by
  intro resolver header calls s m
  have ready : ∀ c ∈ calls, Ready c.2 s := by
    intro c there
    refine ⟨rfl, ?_, ?_⟩
    · simp [isCancelled, Clock.isCancelled, s, Clocked.clock]
    · simp only [calls, List.mem_cons, List.not_mem_nil, or_false] at there
      rcases there with rfl | rfl | rfl | rfl | rfl | rfl
      · rintro _ ⟨⟩
        decide
      all_goals nofun
  exact ⟨ready, keyValue_alike_memory resolver 1 calls rfl rfl ready rfl⟩

end Store

end TemplateCache
