import TemplateCache.Proofs.Job.Heed
import TemplateCache.Store.Files
import TemplateCache.Store.KeyValue
import TemplateCache.Store.Memory
import TemplateCache.Store.Remote

/-!
# Stores and their tokens

What a compile asks of a store heeds its token: all that it waits for is bounded by it. And no
operation of a store says that it was cancelled unless it was, whether it heeds its token throughout
or, like a sweep, in part of its steps.
-/

namespace TemplateCache

open Job

variable {π α β : Type}

/-- It says that it was cancelled only if its token is. -/
def Storing.Honest (token : Token) (x : Storing π α) : Prop := x.run.Honest token

/-- It ends at once when it gets a turn after its token was cancelled. -/
def Storing.Heeds (token : Token) (x : Storing π α) : Prop := x.run.Heeds token Cancelled

/-- What a store makes of tokens. -/
structure Store.Obedient (store : Store π) : Prop where
  heedsReadContent : ∀ address token, (store.readContent address token).Heeds token
  heedsReadCode : ∀ address token, (store.readCode address token).Heeds token
  heedsWriteCode : ∀ address renderer token, (store.writeCode address renderer token).Heeds token
  readContent : ∀ address token, (store.readContent address token).Honest token
  readCode : ∀ address token, (store.readCode address token).Honest token
  writeCode : ∀ address renderer token, (store.writeCode address renderer token).Honest token
  unregister : ∀ name token, (store.unregister name token).Honest token
  clear : ∀ all token, (store.clear all token).Honest token
  scan : ∀ token s, (store.scan token).Ensures SameClock
    (fun discovery t => Cancelled discovery.outcome → isCancelled token t = true) s
  readSource : ∀ path token, (store.readSource path token).Honest token

namespace Storing

variable {token : Token}

/-! ## Heeding -/

theorem Heeds.bind {x : Storing π α} {f : α → Storing π β} (h : x.Heeds token)
    (hf : ∀ v, (f v).Heeds token) : (x >>= f).Heeds token := Job.Heeds.bindExcept h hf

theorem heeds_ofExcept (r : Except StoreError α) : (ofExcept r : Storing π α).Heeds token := trivial

theorem heeds_pure (v : α) : (pure v : Storing π α).Heeds token := trivial

theorem heeds_gets (f : Site π → α) : (gets f).Heeds token := fun _ => trivial

theorem heeds_modify (f : Site π → Site π) : (modify f).Heeds token := fun _ => trivial

theorem heeds_keepContent (record : ContentRecord) :
    (keepContent record : Storing π _).Heeds token := fun _ => trivial

theorem heeds_keepCode (record : CodeRecord) : (keepCode record : Storing π _).Heeds token :=
  fun _ => trivial

theorem heeds_within (x : Storing π α) (operation : String) :
    (x.within token operation).Heeds token := Job.heeds_within

theorem Heeds.map {x : Storing π α} {f : α → β} (h : x.Heeds token) : (f <$> x).Heeds token := by
  refine Job.Heeds.bind h ?_ fun r => ?_
  · rintro _ s ⟨e, rfl, ended⟩
    exact ⟨e, rfl, ended⟩
  · cases r with
    | ok v => trivial
    | error e => trivial

/-! ## Honesty -/

theorem not_cancelled {e : StoreError} (plain : ∀ operation, e ≠ .cancelled operation) :
    ¬Cancelled (α := α) (.error e) := by
  rintro ⟨_, ⟨⟩, operation, same⟩
  exact plain operation same

theorem honest_ofExcept (r : Except StoreError α) (plain : ¬Cancelled r) :
    (ofExcept r : Storing π α).Honest token := fun _ ended => absurd ended plain

theorem honest_pure (v : α) : (pure v : Storing π α).Honest token :=
  honest_ofExcept _ (by rintro ⟨e, ⟨⟩, -⟩)

theorem honest_throw {e : StoreError} (plain : ∀ operation, e ≠ .cancelled operation) :
    (throw e : Storing π α).Honest token := honest_ofExcept _ (not_cancelled plain)

theorem honest_naming (r : Except NameError α) : (naming r : Storing π α).Honest token := by
  cases r with
  | ok v => exact honest_pure v
  | error e => exact honest_throw fun _ => nofun

theorem Honest.bind {x : Storing π α} {f : α → Storing π β} (h : x.Honest token)
    (hf : ∀ v, (f v).Honest token) : (x >>= f).Honest token := by
  intro s
  refine Ensures.bind (f := ExceptT.bindCont f) ((h s).mono id ?_)
  intro r t fine
  cases r with
  | ok v => exact hf v t
  | error e =>
      rintro ⟨_, ⟨⟩, ended⟩
      exact fine ⟨e, rfl, ended⟩

theorem Honest.map {x : Storing π α} {f : α → β} (h : x.Honest token) :
    (f <$> x).Honest token := by
  refine fun s => Ensures.bind ((h s).mono id ?_)
  intro r t fine
  cases r with
  | ok v => exact honest_pure (f v) t
  | error e =>
      rintro ⟨_, ⟨⟩, ended⟩
      exact fine ⟨e, rfl, ended⟩

theorem Honest.keeps {x : Storing π α} (h : x.Honest token) : x.run.Keeps SameClock :=
  fun s => (h s).mono id fun _ => trivial

theorem honest_always {job : Job (Site π) α} (h : job.Keeps SameClock) :
    (always job).Honest token := by
  refine fun s => Ensures.bind ((h s).mono id ?_)
  intro v t _
  exact honest_pure v t

theorem honest_gets (f : Site π → α) : (gets f).Honest token :=
  fun _ => ⟨rfl, honest_pure _ _⟩

theorem honest_modify {f : Site π → Site π}
    (h : ∀ s, (f s).environment.clock = s.environment.clock) : (modify f).Honest token :=
  fun s => ⟨h s, honest_pure _ _⟩

theorem honest_overlay : (overlay : Storing π Overlay).Honest token := honest_gets _

theorem honest_changeOverlay (f : Overlay → Overlay) :
    (changeOverlay f : Storing π Unit).Honest token := honest_modify fun _ => rfl

theorem honest_keepContent (record : ContentRecord) :
    (keepContent record : Storing π _).Honest token :=
  (honest_changeOverlay _).bind fun _ => honest_pure _

theorem honest_keepCode (record : CodeRecord) : (keepCode record : Storing π _).Honest token :=
  (honest_changeOverlay _).bind fun _ => honest_pure _

theorem honest_yield : (always Job.yield : Storing π Unit).Honest token :=
  honest_always fun _ _ => trivial

theorem Honest.within {x : Storing π α} (h : x.Honest token) (operation : String) :
    (x.within token operation).Honest token := Job.Honest.within h

theorem batch_plain {results : List (Except StoreError String)} {f : List String → β} :
    ¬Cancelled (((Batch.collect results).mapError StoreError.batch).map f) := by
  cases Batch.collect results with
  | ok values => rintro ⟨e, ⟨⟩, -⟩
  | error e => exact not_cancelled fun _ => nofun

theorem honest_batch (results : List (Except StoreError String)) :
    (batch results : Storing π Unit).Honest token := honest_ofExcept _ batch_plain

theorem honest_mapM {f : β → Storing π α} (h : ∀ x, (f x).Honest token) (l : List β) :
    (l.mapM f).Honest token := by
  suffices loop : ∀ made, (List.mapM.loop f l made).Honest token from loop []
  induction l with
  | nil => exact fun made => honest_pure _
  | cons x rest ih => exact fun made => (h x).bind fun y => ih (y :: made)

end Storing

namespace Store

open Storing

variable {token : Token}

/-! ## Memory -/

theorem memory_obedient (resolver : Resolver) : (memory resolver).Obedient where
  heedsReadContent address token := (heeds_ofExcept _).bind fun _ => (heeds_gets _).bind fun _ =>
    heeds_pure _
  heedsReadCode address token := (heeds_ofExcept _).bind fun _ => (heeds_gets _).bind fun _ =>
    heeds_pure _
  heedsWriteCode address renderer token := (heeds_ofExcept _).bind fun _ => heeds_keepCode _
  readContent address token := (honest_naming _).bind fun _ => honest_overlay.bind fun _ =>
    honest_pure _
  readCode address token := (honest_naming _).bind fun _ => honest_overlay.bind fun _ =>
    honest_pure _
  writeCode address renderer token := (honest_naming _).bind fun _ => honest_keepCode _
  unregister name token := honest_changeOverlay (·.eraseName name)
  clear all token := honest_changeOverlay fun _ => ∅
  scan token s := by
    rintro ⟨e, same, -⟩
    exact nomatch same
  readSource path token := honest_pure _

theorem delayed_obedient (resolver : Resolver) (delay : Nat) : (delayed resolver delay).Obedient :=
  have memory : (memory resolver).Obedient := memory_obedient resolver
  { memory with
    heedsReadContent := fun address token =>
      (heeds_within _ _).bind fun _ => memory.heedsReadContent address token
    readContent := fun address token => by
      refine Honest.bind (.within (honest_always ?_) _) fun _ => memory.readContent address token
      exact fun _ => ⟨rfl, fun _ => trivial⟩ }

/-! ## A key-value engine -/

namespace KeyValue

theorem honest_engineDelay : engineDelay.Honest token :=
  (honest_gets _).bind fun _ => honest_always fun _ => ⟨rfl, fun _ => trivial⟩

theorem honest_attempt (call : EngineCall) (collection : Collection) (key target : String)
    (f : Engine → α × Engine) : (attempt call collection key target f).Honest token := by
  refine fun s => ⟨rfl, ?_⟩
  rintro ⟨e, same, operation, rfl⟩
  dsimp only at same
  cases made : (s.environment.engine.attempt call collection.name key f).1 with
  | ok v =>
      rw [made] at same
      exact nomatch same
  | error reason =>
      rw [made] at same
      exact nomatch same

theorem honest_put (collection : Collection) (key document : String) :
    (put collection key document).Honest token :=
  honest_engineDelay.bind fun _ => honest_attempt _ _ _ _ _

theorem honest_remember (collection : Collection) (key : String) :
    (remember collection key).Honest token := honest_modify fun _ => rfl

theorem honest_delete (collection : Collection) (key : String) :
    (delete collection key).Honest token := by
  refine (honest_attempt _ _ _ _ _).bind fun _ => ?_
  exact (honest_modify fun _ => rfl).bind fun _ => honest_pure _

theorem honest_decoded (key : String) (decoder : Json.Decoder α) (document : Option (List UInt8)) :
    (decoded key decoder document).Honest token := by
  unfold decoded
  split
  · exact honest_pure _
  · split
    · exact honest_pure _
    · exact honest_throw fun _ => nofun

theorem honest_loadContent (key : String) : (loadContent key).Honest token := by
  refine (honest_attempt _ _ _ _ _).bind fun document => ?_
  refine (honest_decoded _ _ _).bind fun found => ?_
  split
  · exact honest_pure _
  · exact (honest_keepContent _).map

theorem honest_together {operation : α → Keeping β} (h : ∀ x, (operation x).Honest token)
    (inputs : List α) : (together operation inputs).Honest token := by
  have all : (Storing.always (inputs.mapM fun input => (operation input).run)).Honest token :=
    honest_always (Keeps.mapM (fun x => (h x).keeps) inputs)
  unfold together
  dsimp only
  split
  · exact all
  · exact honest_engineDelay.bind fun _ => all

theorem honest_deleteAll (documents : List (Collection × String)) :
    (deleteAll documents).Honest token :=
  (honest_together (fun _ => honest_delete _ _) _).bind fun _ => honest_batch _

theorem honest_page (collection : Collection) (limit : Option Nat) (cursor : Option String) :
    (page collection limit cursor token).Honest token := by
  refine .bind (.within ?_ _) fun keys => ?_
  · exact honest_engineDelay.bind fun _ => honest_attempt _ _ _ _ _
  · split
    · exact honest_pure _
    · exact honest_pure _

theorem honest_sweepFrom {visit : String → Keeping α} (h : ∀ key, (visit key).Honest token)
    (collection : Collection) (pageSize : Nat) (pages : Nat) (cursor : Option String) :
    (sweepFrom collection pageSize token visit pages cursor).Honest token := by
  induction pages generalizing cursor with
  | zero => exact (honest_page _ _ _).bind fun _ => honest_together h _
  | succ pages ih =>
      refine (honest_page _ _ _).bind fun found => (honest_together h _).bind fun outcomes => ?_
      dsimp only
      split
      · exact (ih _).bind fun _ => honest_pure _
      · exact honest_pure _

theorem honest_sweep {visit : String → Keeping α} (h : ∀ key, (visit key).Honest token)
    (collection : Collection) (pageSize : Nat) :
    (sweep collection pageSize token visit).Honest token :=
  (honest_gets _).bind fun _ => honest_sweepFrom h _ _ _ _

theorem honest_scan (pageSize : Nat) (s : Site Written) :
    (KeyValue.scan pageSize token).Ensures SameClock
      (fun discovery t => Cancelled discovery.outcome → isCancelled token t = true) s := by
  have swept : (sweep .content pageSize token fun key => do
      return (key, ← loadContent key)).Honest token :=
    honest_sweep (fun key => (honest_loadContent key).bind fun _ => honest_pure _) _ _
  refine Ensures.bind ((swept s).mono id ?_)
  intro r t fine
  cases r with
  | error e =>
      rintro ⟨_, ⟨⟩, ended⟩
      exact fine ⟨e, rfl, ended⟩
  | ok outcomes => exact fun ended => absurd ended batch_plain

end KeyValue

/-! ## A network -/

namespace Remote

theorem honest_checked (url : String) (reply : Reply) :
    (Storing.ofExcept (checked url reply) : Fetching Reply).Honest token := by
  unfold checked
  split
  · exact honest_pure reply
  · exact honest_throw fun _ => nofun

theorem honest_urlOf (r : Remote) (key : String) :
    (Storing.ofExcept (r.urlOf key) : Fetching Url).Honest token := by
  unfold urlOf
  dsimp only
  cases r.base.join (String.ofList ((splitQuery key).1.toList.dropWhile (· == '/'))) with
  | ok url => exact honest_pure _
  | error e => exact honest_throw fun _ => nofun

theorem honest_exchange (request : Request) : (exchange request).Honest token := by
  unfold exchange
  refine .bind (honest_always ?_) fun reply => honest_yield.bind fun _ => ?_
  · exact keeps_modifyGet fun _ => rfl
  · split
    · exact honest_pure _
    · exact honest_throw fun _ => nofun

theorem heeds_get (r : Remote) (url : Url) : (r.get url token).Heeds token := heeds_within _ _

theorem heeds_post (r : Remote) (url : Url) (contentType body : String) :
    (r.post url contentType body token).Heeds token := heeds_within _ _

theorem honest_get (r : Remote) (url : Url) : (r.get url token).Honest token := by
  refine Honest.within ?_ _
  refine (honest_exchange _).bind fun reply => ?_
  split
  · exact honest_pure _
  · exact (honest_checked _ _).bind fun _ => honest_pure _

theorem honest_post (r : Remote) (url : Url) (contentType body : String) :
    (r.post url contentType body token).Honest token := by
  refine Honest.within ?_ _
  exact (honest_exchange _).bind fun _ => (honest_checked _ _).bind fun _ => honest_pure _

end Remote

/-! ## Files -/

namespace Files

theorem honest_access (f : FileTree → α × FileTree) : (access f).Honest token :=
  honest_always (keeps_modifyGet fun _ => rfl)

theorem honest_transfer (f : FileTree → α × FileTree) : (transfer f).Honest token :=
  (honest_access f).bind fun a => honest_yield.bind fun _ => honest_pure a

theorem honest_output : output.Honest token := honest_gets _

theorem honest_changeOutput (f : Output → Output) : (changeOutput f).Honest token :=
  honest_modify fun _ => rfl

theorem fileError_plain (target : String) (kind : FileErrorKind) (operation : String) :
    fileError target kind ≠ .cancelled operation := nofun

theorem honest_readText (path : Path) (target : String) : (readText path target).Honest token := by
  refine (honest_transfer _).bind fun found => ?_
  split
  · exact honest_pure _
  · exact honest_pure _
  · exact honest_throw (fileError_plain _ _)

theorem heeds_access (f : FileTree → α × FileTree) : (access f).Heeds token := fun _ => trivial

theorem heeds_outputRoot (settings : FileStoreSettings) : (outputRoot settings).Heeds token := by
  refine (heeds_gets _).bind fun o => ?_
  split
  · exact heeds_pure _
  · with_reducible refine (heeds_access _).bind fun made => ?_
    split
    · exact heeds_ofExcept _
    · exact (heeds_modify _).bind fun _ => heeds_pure _

theorem honest_outputRoot (settings : FileStoreSettings) : (outputRoot settings).Honest token := by
  refine honest_output.bind fun o => ?_
  split
  · exact honest_pure _
  · refine (honest_access _).bind fun made => ?_
    split
    · exact honest_throw (fileError_plain _ _)
    · exact (honest_changeOutput _).bind fun _ => honest_pure _

theorem honest_provideDir (dir : Path) : (provideDir dir).Honest token := by
  refine honest_output.bind fun o => ?_
  split
  · exact honest_pure _
  · refine (honest_transfer _).bind fun made => ?_
    split
    · exact honest_throw (fileError_plain _ _)
    · exact honest_changeOutput _

theorem honest_writeText (path : Path) (target text : String) :
    (writeText path target text).Honest token := by
  unfold writeText
  extract_lets write
  have honest u : (write u).Honest token := by
    refine (honest_transfer _).bind fun written => ?_
    split
    · exact honest_pure _
    · exact honest_throw (fileError_plain _ _)
  split
  · exact honest ()
  · exact (honest_provideDir _).bind honest

theorem honest_removeAll (remove : FileTree → Path → Except FileErrorKind Unit × FileTree)
    (paths : List Path) : (removeAll remove paths).Honest token := by
  refine (honest_access _).bind fun results => ?_
  dsimp only
  split
  · exact honest_batch _
  · exact honest_yield.bind fun _ => honest_batch _

theorem honest_provideDirs (s : Sources) (relative : List Path) :
    (provideDirs s relative).Honest token := by
  refine (honest_outputRoot _).bind fun root => (honest_provideDir _).bind fun _ => ?_
  refine .bind (honest_mapM (fun path => ?_) _) fun dirs => honest_pure _
  exact (honest_provideDir _).bind fun _ => honest_pure _

theorem honest_readSource (s : Sources) (path : Path) : (readSource s path token).Honest token := by
  have keep (name source : String) : (do
      let key ← Storing.naming (s.keyOf name path)
      let extension := path.extension?
      some <$> Storing.keepContent
        (.make name key (.ofSource source extension) .discovered extension none) :
        Filing (Option ContentRecord)).Honest token :=
    (honest_naming _).bind fun _ => (honest_keepContent _).map
  unfold readSource
  split
  · exact honest_pure _
  · refine .bind (Honest.within ?_ _) fun source => ?_
    · refine (honest_transfer _).bind fun found => ?_
      split
      · exact honest_readText _ _
      · exact honest_pure _
      · exact honest_pure _
      · exact honest_throw (fileError_plain _ _)
    · split
      · exact honest_pure _
      · dsimp only
        split
        · exact keep _ _
        · split
          · exact keep _ _
          · refine (honest_outputRoot _).bind fun root => ?_
            exact (honest_provideDir _).bind fun _ => keep _ _

theorem honest_scan (s : Sources) (site : Site Output) :
    (Files.scan s token).Ensures SameClock
      (fun discovery t => Cancelled discovery.outcome → isCancelled token t = true) site := by
  have swept : (do
      let found ← Storing.within token "filesystem scan" (walk s)
      let _ ← provideDirs s found.directories
      let loaded ← Storing.within token "filesystem scan"
        (Storing.always (found.files.mapM fun path => (readSource s path token).run))
      return (found, loaded) : Filing _).Honest token := by
    refine ((honest_transfer _).within _).bind fun found => ?_
    refine (honest_provideDirs _ _).bind fun _ => ?_
    refine .bind (Honest.within (honest_always ?_) _) fun _ => honest_pure _
    exact Keeps.mapM (fun path => (honest_readSource s path).keeps) _
  refine Ensures.bind ((swept site).mono id ?_)
  intro r t fine
  cases r with
  | error e =>
      rintro ⟨_, ⟨⟩, ended⟩
      exact fine ⟨e, rfl, ended⟩
  | ok outcomes => exact fun ended => absurd ended batch_plain

theorem honest_tempDirs (settings : FileStoreSettings) : (tempDirs settings).Honest token := by
  refine (honest_transfer _).bind fun found => ?_
  split
  · exact honest_throw (fileError_plain _ _)
  · exact honest_pure _

end Files

open KeyValue in
theorem keyValue_obedient (resolver : Resolver) (pageSize : Nat) :
    (keyValue resolver pageSize).Obedient where
  heedsReadContent address token := by
    refine (heeds_ofExcept _).bind fun key => (heeds_gets _).bind fun overlay => ?_
    split
    · exact heeds_pure _
    · exact heeds_within _ _
  heedsReadCode address token := by
    refine (heeds_ofExcept _).bind fun key => (heeds_gets _).bind fun overlay => ?_
    split
    · exact heeds_pure _
    · refine (heeds_within _ _).bind fun document => ?_
      unfold decoded
      split
      · exact heeds_pure _
      · split
        · exact heeds_pure _
        · exact heeds_ofExcept _
  heedsWriteCode address renderer token := by
    refine (heeds_ofExcept _).bind fun key => ?_
    split
    · exact heeds_keepCode _
    · exact (heeds_within _ _).bind fun _ => (heeds_modify _).bind fun _ => heeds_keepCode _
  readContent address token := by
    refine (honest_naming _).bind fun key => honest_overlay.bind fun overlay => ?_
    split
    · exact honest_pure _
    · exact .within (honest_engineDelay.bind fun _ => honest_loadContent _) _
  readCode address token := by
    refine (honest_naming _).bind fun key => honest_overlay.bind fun overlay => ?_
    split
    · exact honest_pure _
    · refine .bind (.within ?_ _) fun document => honest_decoded _ _ _
      exact honest_engineDelay.bind fun _ => honest_attempt _ _ _ _ _
  writeCode address renderer token := by
    refine (honest_naming _).bind fun key => ?_
    split
    · exact honest_keepCode _
    · refine .bind (.within (honest_put _ _ _) _) fun _ => ?_
      exact (honest_remember _ _).bind fun _ => honest_keepCode _
  unregister name token := by
    refine honest_overlay.bind fun before => (honest_changeOverlay _).bind fun _ => ?_
    refine (honest_naming _).bind fun _ => (honest_naming _).bind fun _ => ?_
    exact .within (honest_deleteAll _) _
  clear all token := by
    refine (honest_changeOverlay _).bind fun _ => ?_
    split
    · refine (honest_sweep (fun key => honest_delete _ _) _ _).bind fun content => ?_
      exact (honest_sweep (fun key => honest_delete _ _) _ _).bind fun code => honest_batch _
    · refine (honest_gets _).bind fun written => ?_
      refine (honest_modify (f := fun s => { s with own := [] }) fun _ => rfl).bind fun _ => ?_
      exact .within (honest_deleteAll _) _
  scan token s := KeyValue.honest_scan _ s
  readSource path token := honest_pure _

open Remote in
theorem remote_obedient (r : Remote) : (remote r).Obedient where
  heedsReadContent address token := by
    refine (heeds_ofExcept _).bind fun key => (heeds_gets _).bind fun overlay => ?_
    split
    · exact heeds_pure _
    · generalize r.urlOf key = found
      refine (heeds_ofExcept found).bind fun url => (heeds_get r url).bind fun reply => ?_
      split
      · exact heeds_pure _
      · exact (heeds_keepContent _).map
  heedsReadCode address token := by
    refine (heeds_ofExcept _).bind fun key => (heeds_gets _).bind fun overlay => ?_
    split
    · exact heeds_pure _
    · generalize r.urlOf key = found
      refine (heeds_ofExcept found).bind fun url => (heeds_get r url).bind fun reply => ?_
      exact heeds_pure _
  heedsWriteCode address renderer token := by
    refine (heeds_ofExcept _).bind fun key => ?_
    split
    · exact heeds_keepCode _
    · generalize r.urlOf key = found
      refine (heeds_ofExcept found).bind fun url => (heeds_post r url _ _).bind fun _ => ?_
      exact heeds_keepCode _
  readContent address token := by
    refine (honest_naming _).bind fun key => honest_overlay.bind fun overlay => ?_
    split
    · exact honest_pure _
    · have joined : (Storing.ofExcept (r.urlOf key)).Honest token := honest_urlOf r key
      generalize r.urlOf key = found at joined ⊢
      refine joined.bind fun url => (honest_get r url).bind fun reply => ?_
      split
      · exact honest_pure _
      · exact (honest_keepContent _).map
  readCode address token := by
    refine (honest_naming _).bind fun key => honest_overlay.bind fun overlay => ?_
    split
    · exact honest_pure _
    · have joined : (Storing.ofExcept (r.urlOf key)).Honest token := honest_urlOf r key
      generalize r.urlOf key = found at joined ⊢
      refine joined.bind fun url => (honest_get r url).bind fun reply => ?_
      exact honest_pure _
  writeCode address renderer token := by
    refine (honest_naming _).bind fun key => ?_
    split
    · exact honest_keepCode _
    · have joined : (Storing.ofExcept (r.urlOf key)).Honest token := honest_urlOf r key
      generalize r.urlOf key = found at joined ⊢
      refine joined.bind fun url => (honest_post r url _ _).bind fun _ => ?_
      exact honest_keepCode _
  unregister name token := honest_changeOverlay (·.eraseName name)
  clear all token := honest_changeOverlay fun _ => ∅
  scan token s := by
    rintro ⟨e, same, -⟩
    exact nomatch same
  readSource path token := honest_pure _

open Files in
theorem files_obedient (s : Sources) : (files s).Obedient where
  heedsReadContent address token := by
    refine (heeds_ofExcept _).bind fun key => (heeds_gets _).bind fun overlay => ?_
    split
    · exact heeds_pure _
    · exact heeds_within _ _
  heedsReadCode address token := by
    refine (heeds_ofExcept _).bind fun key => (heeds_gets _).bind fun overlay => ?_
    split
    · exact heeds_pure _
    · refine (heeds_gets _).bind fun o => ?_
      split
      · exact heeds_pure _
      · exact heeds_within _ _
  heedsWriteCode address renderer token := by
    refine (heeds_ofExcept _).bind fun key => ?_
    split
    · exact heeds_keepCode _
    · refine (heeds_outputRoot _).bind fun root => (heeds_within _ _).bind fun _ => ?_
      exact heeds_keepCode _
  readContent address token := by
    refine (honest_naming _).bind fun key => honest_overlay.bind fun overlay => ?_
    split
    · exact honest_pure _
    · refine Honest.within ((honest_readText _ _).bind fun text => ?_) _
      split
      · exact honest_pure _
      · exact (honest_keepContent _).map
  readCode address token := by
    refine (honest_naming _).bind fun key => honest_overlay.bind fun overlay => ?_
    split
    · exact honest_pure _
    · refine honest_output.bind fun o => ?_
      split
      · exact honest_pure _
      · exact Honest.within ((honest_readText _ _).bind fun _ => honest_pure _) _
  writeCode address renderer token := by
    refine (honest_naming _).bind fun key => ?_
    split
    · exact honest_keepCode _
    · refine (honest_outputRoot _).bind fun root => ?_
      exact .bind (.within (honest_writeText _ _ _) _) fun _ => honest_keepCode _
  unregister name token := by
    refine honest_overlay.bind fun before => (honest_changeOverlay _).bind fun _ => ?_
    refine (honest_naming _).bind fun _ => (honest_naming _).bind fun _ => ?_
    refine honest_output.bind fun o => ?_
    split
    · exact honest_pure _
    · exact .within (honest_removeAll _ _) _
  clear all token := by
    refine (honest_changeOverlay _).bind fun _ => honest_output.bind fun o => ?_
    refine (honest_changeOutput _).bind fun _ => Honest.within ?_ _
    split
    · exact (honest_tempDirs _).bind fun _ => honest_removeAll _ _
    · exact (honest_pure _).bind fun _ => honest_removeAll _ _
  scan token site := Files.honest_scan s site
  readSource path token := honest_readSource s path

end Store
end TemplateCache
