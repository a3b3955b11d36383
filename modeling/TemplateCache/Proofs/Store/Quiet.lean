import TemplateCache.Proofs.Store.Contract
import TemplateCache.Store.Files
import TemplateCache.Store.KeyValue
import TemplateCache.Store.Remote

/-!
# Operations that leave the overlay or its renderers alone

Almost all that stores do on the way is quiet: it does not touch the renderers of the overlay. What
does not touch the overlay at all is still. One lemma for each operation, media one after the other.
-/

namespace TemplateCache

variable {π α β : Type}

/-- An operation that leaves the renderers of the overlay as they are. -/
def Storing.Quiet (job : Storing π α) : Prop := job.run.Keeps Site.SameCode

/-- An operation that leaves the overlay as it is. -/
def Storing.Still (job : Storing π α) : Prop := job.run.Keeps Site.SameOverlay

namespace Storing

theorem Still.quiet {job : Storing π α} (h : job.Still) : job.Quiet :=
  Job.Keeps.mono Site.SameOverlay.sameCode h

theorem Still.bind {x : Storing π α} {f : α → Storing π β} (h : x.Still)
    (hf : ∀ v, (f v).Still) : (x >>= f).Still := Job.Keeps.bindExcept h hf

theorem still_pure (x : α) : (pure x : Storing π α).Still := fun _ => trivial

theorem still_throw (e : StoreError) : (throw e : Storing π α).Still := fun _ => trivial

theorem still_ofExcept (r : Except StoreError α) : (ofExcept r : Storing π α).Still :=
  fun _ => trivial

theorem still_always {job : Job (Site π) α} (h : job.Keeps Site.SameOverlay) :
    (always job).Still := Job.keeps_lift h

theorem still_gets (f : Site π → α) : (gets f).Still := fun _ => ⟨rfl, trivial⟩

theorem still_modify {f : Site π → Site π} (h : ∀ s, (f s).overlay = s.overlay) :
    (modify f).Still := fun s => ⟨h s, trivial⟩

theorem Still.within {job : Storing π α} (h : job.Still) (token : Token) (operation : String) :
    (job.within token operation).Still :=
  fun s => Job.Ensures.within (fun _ => rfl) (fun _ _ => trivial) (h s)

theorem Quiet.bind {x : Storing π α} {f : α → Storing π β} (h : x.Quiet)
    (hf : ∀ v, (f v).Quiet) : (x >>= f).Quiet := Job.Keeps.bindExcept h hf

theorem Quiet.map {x : Storing π α} {f : α → β} (h : x.Quiet) : (f <$> x).Quiet :=
  Job.Keeps.mapExcept h

theorem quiet_pure (x : α) : (pure x : Storing π α).Quiet := (still_pure x).quiet

theorem quiet_throw (e : StoreError) : (throw e : Storing π α).Quiet := (still_throw e).quiet

theorem quiet_ofExcept (r : Except StoreError α) : (ofExcept r : Storing π α).Quiet :=
  (still_ofExcept r).quiet

theorem quiet_naming (r : Except NameError α) : (naming r : Storing π α).Quiet :=
  quiet_ofExcept _

theorem quiet_always {job : Job (Site π) α} (h : job.Keeps Site.SameCode) : (always job).Quiet :=
  Job.keeps_lift h

theorem quiet_gets (f : Site π → α) : (gets f).Quiet := (still_gets f).quiet

theorem quiet_overlay : (overlay : Storing π Overlay).Quiet := quiet_gets _

theorem quiet_modify {f : Site π → Site π} (h : ∀ s, (f s).overlay.code = s.overlay.code) :
    (modify f).Quiet := fun s => ⟨h s, trivial⟩

theorem quiet_keepContent (record : ContentRecord) : (keepContent record : Storing π _).Quiet :=
  fun _ => ⟨rfl, trivial⟩

theorem Quiet.within {job : Storing π α} (h : job.Quiet) (token : Token) (operation : String) :
    (job.within token operation).Quiet :=
  fun s => Job.Ensures.within (fun _ => rfl) (fun _ _ => trivial) (h s)

theorem quiet_batch (results : List (Except StoreError String)) :
    (batch results : Storing π _).Quiet :=
  quiet_ofExcept _

end Storing

namespace Store

open Storing

/-! ## A key-value engine -/

namespace KeyValue

theorem still_engineDelay : engineDelay.Still :=
  (still_gets _).bind fun _ => still_always fun _ => ⟨rfl, fun _ => trivial⟩

theorem still_attempt (call : EngineCall) (collection : Collection) (key target : String)
    (f : Engine → α × Engine) : (attempt call collection key target f).Still :=
  Job.keeps_modifyGet fun _ => rfl

theorem still_put (collection : Collection) (key document : String) :
    (put collection key document).Still :=
  still_engineDelay.bind fun _ => still_attempt _ _ _ _ _

theorem still_remember (collection : Collection) (key : String) :
    (remember collection key).Still := still_modify fun _ => rfl

theorem quiet_delete (collection : Collection) (key : String) : (delete collection key).Quiet := by
  refine (still_attempt _ _ _ _ _).quiet.bind fun _ => ?_
  refine .bind (quiet_modify fun s => ?_) fun _ => quiet_pure _
  rfl

theorem quiet_decoded (key : String) (decoder : Json.Decoder α) (document : Option (List UInt8)) :
    (decoded key decoder document).Quiet := by
  unfold decoded
  split
  · exact quiet_pure _
  · split
    · exact quiet_pure _
    · exact quiet_throw _

theorem quiet_loadContent (key : String) : (loadContent key).Quiet := by
  refine (still_attempt _ _ _ _ _).quiet.bind fun document => ?_
  refine (quiet_decoded _ _ _).bind fun found => ?_
  split
  · exact quiet_pure _
  · exact (quiet_keepContent _).map

theorem quiet_together {operation : α → Keeping β} (h : ∀ x, (operation x).Quiet)
    (inputs : List α) : (together operation inputs).Quiet := by
  have all : (Storing.always (inputs.mapM fun input => (operation input).run)).Quiet :=
    quiet_always (Job.Keeps.mapM h inputs)
  unfold together
  dsimp only
  split
  · exact all
  · exact still_engineDelay.quiet.bind fun _ => all

theorem quiet_deleteAll (documents : List (Collection × String)) : (deleteAll documents).Quiet :=
  (quiet_together (fun _ => quiet_delete _ _) _).bind fun _ => quiet_batch _

theorem quiet_page (collection : Collection) (limit : Option Nat) (cursor : Option String)
    (token : Token) : (page collection limit cursor token).Quiet := by
  refine .bind ?_ fun keys => ?_
  · exact (still_engineDelay.bind fun _ => still_attempt _ _ _ _ _).quiet.within _ _
  · split
    · exact quiet_pure _
    · exact quiet_pure _

theorem quiet_sweepFrom {visit : String → Keeping α} (h : ∀ key, (visit key).Quiet)
    (collection : Collection) (pageSize : Nat) (token : Token) (pages : Nat)
    (cursor : Option String) : (sweepFrom collection pageSize token visit pages cursor).Quiet := by
  induction pages generalizing cursor with
  | zero => exact (quiet_page _ _ _ _).bind fun _ => quiet_together h _
  | succ pages ih =>
      refine (quiet_page _ _ _ _).bind fun found => (quiet_together h _).bind fun outcomes => ?_
      dsimp only
      split
      · exact (ih _).bind fun _ => quiet_pure _
      · exact quiet_pure _

theorem quiet_sweep {visit : String → Keeping α} (h : ∀ key, (visit key).Quiet)
    (collection : Collection) (pageSize : Nat) (token : Token) :
    (sweep collection pageSize token visit).Quiet :=
  (quiet_gets _).bind fun _ => quiet_sweepFrom h _ _ _ _ _

theorem scan_keeps (pageSize : Nat) (token : Token) :
    (KeyValue.scan pageSize token).Keeps Site.SameCode := by
  have swept : (sweep .content pageSize token fun key => do
      return (key, ← loadContent key)).Quiet :=
    quiet_sweep (fun key => (quiet_loadContent key).bind fun _ => quiet_pure _) _ _ _
  refine Job.Keeps.bind swept fun outcomes => ?_
  split
  · exact Job.keeps_pure _
  · exact Job.keeps_pure _

end KeyValue

/-! ## A network -/

namespace Remote

theorem still_exchange (request : Request) : (exchange request).Still := by
  unfold exchange
  refine (still_always ?_).bind fun reply => .bind (still_always ?_) fun _ => ?_
  · exact Job.keeps_modifyGet fun _ => rfl
  · exact fun _ _ => trivial
  · split
    · exact still_pure _
    · exact still_throw _

theorem quiet_get (r : Remote) (url : Url) (token : Token) : (r.get url token).Quiet := by
  refine Quiet.within ?_ _ _
  refine (still_exchange _).quiet.bind fun reply => ?_
  split
  · exact quiet_pure _
  · exact (quiet_ofExcept _).bind fun _ => quiet_pure _

theorem still_post (r : Remote) (url : Url) (contentType body : String) (token : Token) :
    (r.post url contentType body token).Still := by
  refine Still.within ?_ _ _
  exact (still_exchange _).bind fun _ => (still_ofExcept _).bind fun _ => still_pure _

end Remote

/-! ## Files -/

namespace Files

theorem still_access (f : FileTree → α × FileTree) : (access f).Still :=
  still_always (Job.keeps_modifyGet fun _ => rfl)

theorem still_transfer (f : FileTree → α × FileTree) : (transfer f).Still := by
  refine (still_access f).bind fun a => .bind (still_always ?_) fun _ => still_pure a
  exact fun _ _ => trivial

theorem still_output : output.Still := still_gets _

theorem still_changeOutput (f : Output → Output) : (changeOutput f).Still :=
  still_modify fun _ => rfl

theorem still_readText (path : Path) (target : String) : (readText path target).Still := by
  refine (still_transfer _).bind fun found => ?_
  split
  · exact still_pure _
  · exact still_pure _
  · exact still_throw _

theorem still_outputRoot (settings : FileStoreSettings) : (outputRoot settings).Still := by
  refine still_output.bind fun o => ?_
  split
  · exact still_pure _
  · refine (still_access _).bind fun made => ?_
    split
    · exact still_throw _
    · exact (still_changeOutput _).bind fun _ => still_pure _

theorem still_provideDir (dir : Path) : (provideDir dir).Still := by
  refine still_output.bind fun o => ?_
  split
  · exact still_pure _
  · refine (still_transfer _).bind fun made => ?_
    split
    · exact still_throw _
    · exact still_changeOutput _

theorem still_writeText (path : Path) (target text : String) :
    (writeText path target text).Still := by
  unfold writeText
  extract_lets write
  have still u : (write u).Still := by
    refine (still_transfer _).bind fun written => ?_
    split
    · exact still_pure _
    · exact still_throw _
  split
  · exact still ()
  · exact (still_provideDir _).bind still

theorem quiet_removeAll (remove : FileTree → Path → Except FileErrorKind Unit × FileTree)
    (paths : List Path) : (removeAll remove paths).Quiet := by
  refine (still_access _).quiet.bind fun results => ?_
  dsimp only
  split
  · exact quiet_batch _
  · refine .bind (quiet_always ?_) fun _ => quiet_batch _
    exact fun _ _ => trivial

theorem quiet_mapM {f : β → Filing α} (h : ∀ x, (f x).Quiet) (l : List β) : (l.mapM f).Quiet := by
  suffices loop : ∀ made, (List.mapM.loop f l made).Quiet from loop []
  induction l with
  | nil => exact fun made => quiet_pure _
  | cons x rest ih => exact fun made => (h x).bind fun y => ih (y :: made)

theorem quiet_provideDirs (s : Sources) (relative : List Path) :
    (provideDirs s relative).Quiet := by
  refine (still_outputRoot _).quiet.bind fun root => (still_provideDir _).quiet.bind fun _ => ?_
  refine .bind (quiet_mapM (fun path => ?_) _) fun dirs => quiet_pure _
  exact (still_provideDir _).quiet.bind fun _ => quiet_pure _

theorem quiet_readSource (s : Sources) (path : Path) (token : Token) :
    (readSource s path token).Quiet := by
  have keep (name source : String) : (do
      let key ← Storing.naming (s.keyOf name path)
      let extension := path.extension?
      some <$> Storing.keepContent
        (.make name key (.ofSource source extension) .discovered extension none) :
        Filing (Option ContentRecord)).Quiet :=
    (quiet_naming _).bind fun _ => (quiet_keepContent _).map
  unfold readSource
  split
  · exact quiet_pure _
  · refine .bind (Quiet.within ?_ _ _) fun source => ?_
    · refine (still_transfer _).quiet.bind fun found => ?_
      split
      · exact (still_readText _ _).quiet
      · exact quiet_pure _
      · exact quiet_pure _
      · exact quiet_throw _
    · split
      · exact quiet_pure _
      · dsimp only
        split
        · exact keep _ _
        · split
          · exact keep _ _
          · refine (still_outputRoot _).quiet.bind fun root => ?_
            exact (still_provideDir _).quiet.bind fun _ => keep _ _

theorem scan_keeps (s : Sources) (token : Token) :
    (Files.scan s token).Keeps Site.SameCode := by
  refine Job.Keeps.bind ?_ fun outcome => ?_
  · refine Quiet.bind ((still_transfer _).quiet.within _ _) fun found => ?_
    refine (quiet_provideDirs _ _).bind fun _ => ?_
    refine .bind (Quiet.within (quiet_always ?_) _ _) fun _ => quiet_pure _
    exact Job.Keeps.mapM (fun path => quiet_readSource s path token) _
  · split
    · exact Job.keeps_pure _
    · exact Job.keeps_pure _

theorem quiet_tempDirs (settings : FileStoreSettings) : (tempDirs settings).Quiet := by
  refine (still_transfer _).quiet.bind fun found => ?_
  split
  · exact quiet_throw _
  · exact quiet_pure _

end Files

end Store
end TemplateCache
