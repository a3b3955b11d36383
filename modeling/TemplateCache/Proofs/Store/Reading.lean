import TemplateCache.Proofs.Job.Steady
import TemplateCache.Store.Files
import TemplateCache.Store.KeyValue
import TemplateCache.Store.Memory
import TemplateCache.Store.Remote

/-!
# Reads leave the media as they are

A store that reads content or code asks its medium and changes nothing there: the files and the
documents are as they were, and all that was sent to servers are requests that ask. Neither reads
nor writes of code wait without end.
-/

namespace TemplateCache

open Job

variable {π α β : Type}

/-- The media hold what they held before. What was sent to servers meanwhile only asked them. -/
structure Environment.Unwritten (e e' : Environment) : Prop where
  files : e'.files = e.files
  documents : e'.engine.collections = e.engine.collections
  respond : e'.network.respond = e.network.respond
  asked : ∃ requests, e'.network.sent = e.network.sent ++ requests ∧
    ∀ request ∈ requests, request.method = .get

namespace Environment.Unwritten

variable {e e' e'' : Environment}

theorem of_media (files : e'.files = e.files) (engine : e'.engine = e.engine)
    (network : e'.network = e.network) : e.Unwritten e' := by
  refine ⟨files, by rw [engine], by rw [network], [], ?_, nofun⟩
  rw [network, List.append_nil]

theorem refl (e : Environment) : e.Unwritten e := of_media rfl rfl rfl

theorem trans (h : e.Unwritten e') (h' : e'.Unwritten e'') : e.Unwritten e'' where
  files := h'.files.trans h.files
  documents := h'.documents.trans h.documents
  respond := h'.respond.trans h.respond
  asked := by
    obtain ⟨first, sent, asks⟩ := h.asked
    obtain ⟨second, sent', asks'⟩ := h'.asked
    refine ⟨first ++ second, by rw [sent', sent, List.append_assoc], fun request there => ?_⟩
    exact (List.mem_append.1 there).elim (asks request) (asks' request)

end Environment.Unwritten

/-- What the media hold is as it was on the site. -/
def Site.Unwritten (s t : Site π) : Prop := s.environment.Unwritten t.environment

/-- Anything may happen. -/
def Site.Any (_ _ : Site π) : Prop := True

/-- Reading leaves the media as they are, and what a compile asks of a store comes to an end. -/
structure Store.Fenced (store : Store π) : Prop where
  readContent : ∀ address token, (store.readContent address token).run.Steady Site.Unwritten
  readCode : ∀ address token, (store.readCode address token).run.Steady Site.Unwritten
  writeCode : ∀ address renderer token,
    (store.writeCode address renderer token).run.Steady Site.Any

theorem Site.unwritten_of_eq {s t : Site π} (same : t.environment = s.environment) :
    s.Unwritten t := by
  unfold Unwritten
  rw [same]
  exact .refl _

theorem Site.Unwritten.trans {s t u : Site π} (h : s.Unwritten t) (h' : t.Unwritten u) :
    s.Unwritten u := Environment.Unwritten.trans h h'

theorem Site.any_of_eq {s t : Site π} (_ : t.environment = s.environment) : s.Any t := trivial

namespace Storing

theorem steady_ofExcept {change : Site π → Site π → Prop} (r : Except StoreError α) :
    (ofExcept r : Storing π α).run.Steady change := steady_returns r

theorem steady_naming {change : Site π → Site π → Prop} (r : Except NameError α) :
    (naming r : Storing π α).run.Steady change := steady_returns _

/-- What is given may be used in what follows. -/
theorem steady_given {change : Site π → Site π → Prop} {r : Except StoreError α}
    {f : α → Storing π β} (each : ∀ v, r = .ok v → (f v).run.Steady change) :
    (ofExcept r >>= f).run.Steady change := by
  cases r with
  | ok v => exact each v rfl
  | error e => exact steady_throw e

theorem steady_named {change : Site π → Site π → Prop} {r : Except NameError α}
    {f : α → Storing π β} (each : ∀ v, r = .ok v → (f v).run.Steady change) :
    (naming r >>= f).run.Steady change := by
  refine steady_given fun v same => each v ?_
  cases r with
  | ok _ => exact congrArg _ (Except.ok.inj same)
  | error _ => cases same

section

variable {change : Site π → Site π → Prop}
  (free : ∀ {s t : Site π}, t.environment = s.environment → change s t)

include free

theorem steady_gets (f : Site π → α) : (gets f).run.Steady change :=
  ⟨fun _ => trivial, fun _ => ⟨free rfl, trivial⟩⟩

theorem steady_modify {f : Site π → Site π} (h : ∀ s, (f s).environment = s.environment) :
    (modify f).run.Steady change := ⟨fun _ => trivial, fun s => ⟨free (h s), trivial⟩⟩

theorem steady_keepContent (record : ContentRecord) :
    (keepContent record : Storing π _).run.Steady change :=
  ⟨fun _ => trivial, fun _ => ⟨free rfl, trivial⟩⟩

theorem steady_keepCode (record : CodeRecord) :
    (keepCode record : Storing π _).run.Steady change :=
  ⟨fun _ => trivial, fun _ => ⟨free rfl, trivial⟩⟩

theorem steady_within {job : Storing π α} (h : job.run.Steady change) (token : Token)
    (operation : String) : (job.within token operation).run.Steady change :=
  h.within (fun _ => free rfl) token operation

end

end Storing

namespace Store

open Storing

variable {resolver : Resolver}

/-! ## Memory -/

theorem memory_fenced : (memory resolver).Fenced where
  readContent _ _ := (steady_naming _).bindExcept fun _ =>
    (steady_gets Site.unwritten_of_eq _).bindExcept fun _ => steady_pure _
  readCode _ _ := (steady_naming _).bindExcept fun _ =>
    (steady_gets Site.unwritten_of_eq _).bindExcept fun _ => steady_pure _
  writeCode _ _ _ := (steady_naming _).bindExcept fun _ => steady_keepCode Site.any_of_eq _

theorem delayed_fenced (delay : Nat) : (delayed resolver delay).Fenced :=
  have memory : (memory resolver).Fenced := memory_fenced
  { memory with
    readContent := fun address token => by
      refine Steady.bindExcept ?_ fun _ => memory.readContent address token
      refine steady_within Site.unwritten_of_eq (steady_lift ?_) _ _
      exact steady_sleep (fun _ => Site.unwritten_of_eq rfl) _ }

/-! ## A key-value engine -/

namespace KeyValue

theorem steady_engineDelay {change : Site Written → Site Written → Prop}
    (free : ∀ {s t : Site Written}, t.environment = s.environment → change s t) :
    engineDelay.run.Steady change :=
  (steady_gets free _).bindExcept fun _ => steady_lift (steady_sleep (fun _ => free rfl) _)

theorem steady_get (collection : Collection) (key : String) :
    (get collection key).run.Steady Site.Unwritten := by
  refine steady_modifyGet fun s => Site.unwritten_of_eq ?_
  -- A call that fails leaves the engine as it is, and so does looking up a document.
  have kept : (s.environment.engine.attempt .get collection.name key fun e =>
      (e.get? collection.name key, e)).2 = s.environment.engine := by
    unfold Engine.attempt
    split
    · rfl
    · rfl
  simp only [kept]

theorem steady_put (collection : Collection) (key document : String) :
    (put collection key document).run.Steady Site.Any :=
  (steady_engineDelay Site.any_of_eq).bindExcept fun _ => steady_modifyGet fun _ => trivial

theorem steady_remember (collection : Collection) (key : String) :
    (remember collection key).run.Steady Site.Any := steady_modify Site.any_of_eq fun _ => rfl

theorem steady_decoded {change : Site Written → Site Written → Prop} (key : String)
    (decoder : Json.Decoder α) (document : Option (List UInt8)) :
    (decoded key decoder document).run.Steady change := by
  unfold decoded
  split
  · exact steady_pure _
  · split
    · exact steady_pure _
    · exact steady_throw _

theorem steady_loadContent (key : String) : (loadContent key).run.Steady Site.Unwritten := by
  refine (steady_get _ _).bindExcept fun document => ?_
  refine (steady_decoded _ _ _).bindExcept fun found => ?_
  split
  · exact steady_pure _
  · exact (steady_keepContent Site.unwritten_of_eq _).mapExcept

end KeyValue

open KeyValue in
theorem keyValue_fenced (pageSize : Nat) : (keyValue resolver pageSize).Fenced where
  readContent address token := by
    refine (steady_naming _).bindExcept fun key => ?_
    refine (steady_gets Site.unwritten_of_eq _).bindExcept fun o => ?_
    split
    · exact steady_pure _
    · refine steady_within Site.unwritten_of_eq ?_ _ _
      exact (steady_engineDelay Site.unwritten_of_eq).bindExcept fun _ => steady_loadContent _
  readCode address token := by
    refine (steady_naming _).bindExcept fun key => ?_
    refine (steady_gets Site.unwritten_of_eq _).bindExcept fun o => ?_
    split
    · exact steady_pure _
    · refine Steady.bindExcept ?_ fun document => steady_decoded _ _ _
      refine steady_within Site.unwritten_of_eq ?_ _ _
      exact (steady_engineDelay Site.unwritten_of_eq).bindExcept fun _ => steady_get _ _
  writeCode address renderer token := by
    refine (steady_naming _).bindExcept fun key => ?_
    dsimp only
    split
    · exact steady_keepCode Site.any_of_eq _
    · refine (steady_within Site.any_of_eq (steady_put _ _ _) _ _).bindExcept fun _ => ?_
      exact (steady_remember _ _).bindExcept fun _ => steady_keepCode Site.any_of_eq _

/-! ## A network -/

namespace Remote

/-- A request for what is under the key of an address. -/
def Asks (r : Remote) (address : Address) (space : KeySpace) (request : Request) : Prop :=
  ∃ key url, address.key r.resolver space = .ok key ∧ r.urlOf key = .ok url ∧
    request.url = url.text

/-- Where a request was sent. -/
def sent (request : Request) (s : Site Unit) : Site Unit :=
  { s with environment := { s.environment with
    network := (s.environment.network.exchange request).2 } }

section

variable {change : Site Unit → Site Unit → Prop} {r : Remote} {url : Url} {address : Address}
  (free : ∀ {s t : Site Unit}, t.environment = s.environment → change s t)

theorem steady_exchange {request : Request} (sends : ∀ s, change s (sent request s)) :
    (exchange request).run.Steady change := by
  refine (steady_lift (steady_modifyGet sends)).bindExcept fun reply => ?_
  refine (steady_lift steady_yield).bindExcept fun _ => ?_
  split
  · exact steady_pure _
  · exact steady_throw _

include free

theorem steady_get (token : Token) (sends : ∀ request s, request.method = .get →
    request.url = url.text → change s (sent request s)) :
    (r.get url token).run.Steady change := by
  refine steady_within free ?_ _ _
  refine Steady.bindExcept (steady_exchange fun s => sends _ s rfl rfl) fun reply => ?_
  split
  · exact steady_pure _
  · exact (steady_ofExcept _).bindExcept fun _ => steady_pure _

theorem steady_post (contentType body : String) (token : Token)
    (sends : ∀ request s, request.url = url.text → change s (sent request s)) :
    (r.post url contentType body token).run.Steady change := by
  refine steady_within free ?_ _ _
  refine (steady_exchange fun s => sends _ s rfl).bindExcept fun reply => ?_
  exact (steady_ofExcept _).bindExcept fun _ => steady_pure _

theorem steady_readContent (token : Token) (sends : ∀ request s, request.method = .get →
    r.Asks address .content request → change s (sent request s)) :
    ((remote r).readContent address token).run.Steady change := by
  refine steady_named fun key named => ?_
  refine (steady_gets free _).bindExcept fun o => ?_
  split
  · exact steady_pure _
  · refine steady_given fun url found => ?_
    refine Steady.bindExcept (steady_get free token fun request s method same =>
      sends request s method ⟨key, url, named, found, same⟩) fun reply => ?_
    split
    · exact steady_pure _
    · exact (steady_keepContent free _).mapExcept

theorem steady_writeContent (content : Content) (token : Token)
    (sends : ∀ request s, r.Asks address .content request → change s (sent request s)) :
    ((remote r).writeContent address content token).run.Steady change := by
  refine steady_named fun key named => ?_
  refine steady_given fun url found => ?_
  refine Steady.bindExcept (steady_post free _ _ token fun request s same =>
    sends request s ⟨key, url, named, found, same⟩) fun _ => ?_
  exact steady_keepContent free _

theorem steady_readCode (token : Token) (sends : ∀ request s, request.method = .get →
    r.Asks address .code request → change s (sent request s)) :
    ((remote r).readCode address token).run.Steady change := by
  refine steady_named fun key named => ?_
  refine (steady_gets free _).bindExcept fun o => ?_
  split
  · exact steady_pure _
  · refine steady_given fun url found => ?_
    refine Steady.bindExcept (steady_get free token fun request s method same =>
      sends request s method ⟨key, url, named, found, same⟩) fun reply => ?_
    exact steady_pure _

theorem steady_writeCode (renderer : Renderer) (token : Token)
    (sends : ∀ request s, r.Asks address .code request → change s (sent request s)) :
    ((remote r).writeCode address renderer token).run.Steady change := by
  refine steady_named fun key named => ?_
  dsimp only
  split
  · exact steady_keepCode free _
  · refine steady_given fun url found => ?_
    refine Steady.bindExcept (steady_post free _ _ token fun request s same =>
      sends request s ⟨key, url, named, found, same⟩) fun _ => ?_
    exact steady_keepCode free _

end

theorem unwritten_sent {request : Request} (s : Site Unit) (method : request.method = .get) :
    s.Unwritten (sent request s) :=
  ⟨rfl, rfl, rfl, [request], rfl, fun other there => by rw [List.mem_singleton.1 there, method]⟩

end Remote

open Remote in
theorem remote_fenced (r : Remote) : (remote r).Fenced where
  readContent _ token :=
    steady_readContent Site.unwritten_of_eq token fun _ s method _ => unwritten_sent s method
  readCode _ token :=
    steady_readCode Site.unwritten_of_eq token fun _ s method _ => unwritten_sent s method
  writeCode _ renderer token :=
    steady_writeCode Site.any_of_eq renderer token fun _ _ _ => trivial

/-! ## Files -/

namespace Files

theorem steady_access {change : Site Output → Site Output → Prop} {f : FileTree → α × FileTree}
    (works : ∀ s : Site Output, change s
      { s with environment := { s.environment with files := (f s.environment.files).2 } }) :
    (access f).run.Steady change := steady_lift (steady_modifyGet works)

theorem steady_transfer {change : Site Output → Site Output → Prop}
    {f : FileTree → α × FileTree}
    (works : ∀ s : Site Output, change s
      { s with environment := { s.environment with files := (f s.environment.files).2 } }) :
    (transfer f).run.Steady change :=
  (steady_access works).bindExcept fun _ =>
    (steady_lift steady_yield).bindExcept fun _ => steady_pure _

theorem steady_changeOutput (f : Output → Output) : (changeOutput f).run.Steady Site.Any :=
  steady_modify Site.any_of_eq fun _ => rfl

theorem steady_readText (path : Path) (target : String) :
    (readText path target).run.Steady Site.Unwritten := by
  refine Steady.bindExcept (steady_transfer fun s => ?_) fun found => ?_
  · exact Site.unwritten_of_eq rfl
  · split
    · exact steady_pure _
    · exact steady_pure _
    · exact steady_throw _

theorem steady_outputRoot (settings : FileStoreSettings) :
    (outputRoot settings).run.Steady Site.Any := by
  refine (steady_gets Site.any_of_eq _).bindExcept fun o => ?_
  split
  · exact steady_pure _
  · refine (steady_access fun _ => trivial).bindExcept fun made => ?_
    split
    · exact steady_throw _
    · exact (steady_changeOutput _).bindExcept fun _ => steady_pure _

theorem steady_provideDir (dir : Path) : (provideDir dir).run.Steady Site.Any := by
  refine (steady_gets Site.any_of_eq _).bindExcept fun o => ?_
  split
  · exact steady_pure _
  · refine (steady_transfer fun _ => trivial).bindExcept fun made => ?_
    split
    · exact steady_throw _
    · exact steady_changeOutput _

theorem steady_writeText (path : Path) (target text : String) :
    (writeText path target text).run.Steady Site.Any := by
  unfold writeText
  extract_lets write
  have steady u : (write u).run.Steady Site.Any := by
    refine (steady_transfer fun _ => trivial).bindExcept fun written => ?_
    split
    · exact steady_pure _
    · exact steady_throw _
  split
  · exact steady ()
  · exact (steady_provideDir _).bindExcept steady

end Files

open Files in
theorem files_fenced (f : Sources) : (files f).Fenced where
  readContent address token := by
    refine (steady_naming _).bindExcept fun key => ?_
    refine (steady_gets Site.unwritten_of_eq _).bindExcept fun o => ?_
    split
    · exact steady_pure _
    · refine steady_within Site.unwritten_of_eq ?_ _ _
      refine (steady_readText _ _).bindExcept fun text => ?_
      split
      · exact steady_pure _
      · exact (steady_keepContent Site.unwritten_of_eq _).mapExcept
  readCode address token := by
    refine (steady_naming _).bindExcept fun key => ?_
    refine (steady_gets Site.unwritten_of_eq _).bindExcept fun o => ?_
    split
    · exact steady_pure _
    · refine (steady_gets Site.unwritten_of_eq _).bindExcept fun output => ?_
      split
      · exact steady_pure _
      · refine steady_within Site.unwritten_of_eq ?_ _ _
        exact (steady_readText _ _).bindExcept fun text => steady_pure _
  writeCode address renderer token := by
    refine (steady_naming _).bindExcept fun key => ?_
    dsimp only
    split
    · exact steady_keepCode Site.any_of_eq _
    · refine (steady_outputRoot _).bindExcept fun root => ?_
      refine (steady_within Site.any_of_eq (steady_writeText _ _ _) _ _).bindExcept fun _ => ?_
      exact steady_keepCode Site.any_of_eq _

end Store
end TemplateCache
