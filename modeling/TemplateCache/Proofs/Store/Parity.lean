import TemplateCache.Proofs.Compiler.Policy
import TemplateCache.Proofs.Job.Lockstep

/-!
# Media with the same content

Two environments compare in an address if the medium of a store answers alike in both when it is
asked for the content of the address. Nothing is said of its code. From sites that are level but for
that, reading content comes to the same, and reading code leaves them level, whatever it finds.
-/

namespace TemplateCache

open Job

variable {π α : Type}

/-! ## The same content -/

namespace Store

/-- What an engine answers when it is asked for a document of content. -/
def KeyValue.fetch (e : Engine) (key : String) : Except EngineError (Option (List UInt8)) :=
  (e.attempt .get Collection.content.name key fun e =>
    (e.get? Collection.content.name key, e)).1

structure KeyValue.SameContent (resolver : Resolver) (address : Address) (e e' : Environment) :
    Prop where
  delay : e'.engine.delay = e.engine.delay
  fetch : ∀ key, address.key resolver .content = .ok key →
    KeyValue.fetch e'.engine key = KeyValue.fetch e.engine key

/-- The source file of the address has the same text. -/
def Files.SameContent (s : Sources) (address : Address) (e e' : Environment) : Prop :=
  ∀ key, address.key s.resolver .content = .ok key →
    e'.files.readText (s.fileOf key) = e.files.readText (s.fileOf key)

/-- What a network replies when it is asked for a document. -/
def Remote.fetch (r : Remote) (n : Network) (url : Url) : Option Reply :=
  n.respond { method := .get, url := url.text, userAgent := r.userAgent }

/-- The reply to a request for the content of the address is the same. -/
def Remote.SameContent (r : Remote) (address : Address) (e e' : Environment) : Prop :=
  ∀ key url, address.key r.resolver .content = .ok key → r.urlOf key = .ok url →
    r.fetch e'.network url = r.fetch e.network url

/-- Where the medium of a store has the same content of an address. -/
inductive Compares (address : Address) : {π : Type} → Store π →
    (Environment → Environment → Prop) → Prop where
  | memory (resolver : Resolver) : Compares address (memory resolver) fun _ _ => True
  | delayed (resolver : Resolver) (delay : Nat) :
      Compares address (delayed resolver delay) fun _ _ => True
  | keyValue (resolver : Resolver) (pageSize : Nat) :
      Compares address (keyValue resolver pageSize) (KeyValue.SameContent resolver address)
  | files (sources : Sources) :
      Compares address (files sources) (Files.SameContent sources address)
  | remote (r : Remote) : Compares address (remote r) (Remote.SameContent r address)

theorem Compares.offered {address : Address} {store : Store π}
    {same : Environment → Environment → Prop} (compares : store.Compares address same) :
    store.Offered := by
  cases compares with
  | memory resolver => exact .memory _
  | delayed resolver delay => exact .delayed _ _
  | keyValue resolver pageSize => exact .keyValue _ _
  | files sources => exact .files _
  | remote r => exact .remote _

end Store

/-- Sites that are the same but for what there is beside the content in their media. -/
structure Site.Level (same : Environment → Environment → Prop) (s s' : Site π) : Prop where
  overlay : s'.overlay = s.overlay
  own : s'.own = s.own
  clock : Clocked.clock s' = Clocked.clock s
  media : same s.environment s'.environment

/-- The media are compared apart from the time. -/
def Timeless (same : Environment → Environment → Prop) : Prop :=
  ∀ e e' clock, same e e' → same (Clocked.setClock clock e) (Clocked.setClock clock e')

theorem Store.Compares.timeless {address : Address} {store : Store π}
    {same : Environment → Environment → Prop} (compares : store.Compares address same) :
    Timeless same := by
  intro e e' clock alike
  cases compares with
  | memory resolver => trivial
  | delayed resolver delay => trivial
  | keyValue resolver pageSize => exact ⟨alike.delay, alike.fetch⟩
  | files sources => exact alike
  | remote r => exact alike

section

variable {same : Environment → Environment → Prop}

theorem Site.timely (timeless : Timeless same) :
    Timely (Site.Level same : Site π → Site π → Prop) where
  clock level := level.clock
  passes clock level := ⟨level.overlay, level.own, rfl, timeless _ _ clock level.media⟩

/-! ## Steps on level sites -/

namespace Storing

/-- Operations that do the same on level sites. -/
def Same (same : Environment → Environment → Prop) (x : Storing π α) : Prop :=
  Lockstep (Site.Level same) Eq x.run x.run

/-- Operations that leave level sites level. Their outcomes may be any. -/
def Even (same : Environment → Environment → Prop) (x : Storing π α) : Prop :=
  Lockstep (Site.Level same) (fun _ _ => True) x.run x.run

theorem Same.even {x : Storing π α} (h : x.Same same) : x.Even same := h.mono fun _ => trivial

theorem Same.bind {β : Type} {x : Storing π α} {f : α → Storing π β} (h : x.Same same)
    (hf : ∀ v, (f v).Same same) : (x >>= f).Same same := h.bindExcept hf fun _ => rfl

theorem Same.seq {β : Type} {x : Storing π α} {f : α → Storing π β} (h : x.Same same)
    (hf : ∀ v, (f v).Even same) : (x >>= f).Even same := h.bindExcept hf fun _ => trivial

/-- What only follows from an outcome leaves sites as they are. -/
theorem Even.bind {β : Type} {x : Storing π α} {f : α → Storing π β} (h : x.Even same)
    (hf : ∀ v, ∃ r, (f v).run = .done r) : (x >>= f).Even same := by
  apply Lockstep.bind (f := ExceptT.bindCont f) (g := ExceptT.bindCont f) h
  have ends (r : Except StoreError α) : ∃ r', ExceptT.bindCont f r = .done r' := by
    cases r with
    | ok v => exact hf v
    | error e => exact ⟨_, rfl⟩
  intro r r' _
  obtain ⟨v, first⟩ := ends r
  obtain ⟨v', second⟩ := ends r'
  rw [first, second]
  exact .done trivial

theorem Same.map {β : Type} {x : Storing π α} (h : x.Same same) (f : α → β) :
    (f <$> x).Same same := by
  apply Lockstep.bind h
  rintro r _ rfl
  cases r with
  | ok v => exact .done rfl
  | error e => exact .done rfl

theorem same_pure (v : α) : (pure v : Storing π α).Same same := lockstep_pure _

theorem same_throw (e : StoreError) : (throw e : Storing π α).Same same := lockstep_pure _

/-- What follows a result need only be the same for that result. -/
theorem same_ofExcept {β : Type} {given : Except StoreError α} {f : α → Storing π β}
    (hf : ∀ v, given = .ok v → (f v).Same same) : (ofExcept given >>= f).Same same := by
  cases given with
  | error e => exact lockstep_pure _
  | ok v => exact hf v rfl

theorem same_naming {β : Type} {named : Except NameError α} {f : α → Storing π β}
    (hf : ∀ v, named = .ok v → (f v).Same same) : (naming named >>= f).Same same := by
  cases named with
  | error e => exact lockstep_pure _
  | ok v => exact hf v rfl

theorem even_ofExcept {β : Type} {given : Except StoreError α} {f : α → Storing π β}
    (hf : ∀ v, (f v).Even same) : (ofExcept given >>= f).Even same := by
  cases given with
  | error e => exact (lockstep_pure _).mono fun _ => trivial
  | ok v => exact hf v

theorem even_naming {β : Type} {named : Except NameError α} {f : α → Storing π β}
    (hf : ∀ v, (f v).Even same) : (naming named >>= f).Even same := even_ofExcept hf

theorem same_gets {f : Site π → α} (h : ∀ s s', s.Level same s' → f s = f s') :
    (gets f).Same same :=
  lockstep_lift (lockstep_modifyGet (f := fun s => (f s, s)) (g := fun s => (f s, s))
    fun s s' level => ⟨h s s' level, level⟩)

theorem same_overlay : (overlay : Storing π Overlay).Same same :=
  same_gets fun _ _ level => level.overlay.symm

theorem same_keepContent (record : ContentRecord) :
    (keepContent record : Storing π _).Same same := by
  apply Lockstep.act
  · intro s s' level
    exact ⟨congrArg (Overlay.putContent · record) level.overlay, level.own, level.clock,
      level.media⟩
  · intro s s' level
    exact .done rfl

theorem Same.within {x : Storing π α} (timeless : Timeless same) (h : x.Same same) (token : Token)
    (operation : String) : (within token operation x).Same same :=
  Lockstep.within (Site.timely timeless) (fun _ => rfl) h

theorem Even.within {x : Storing π α} (timeless : Timeless same) (h : x.Even same) (token : Token)
    (operation : String) : (within token operation x).Even same :=
  Lockstep.within (Site.timely timeless) (fun _ => trivial) h

end Storing

end

namespace Store

open Storing

variable {address : Address} {token : Token}

theorem same_readOverlayContent {same : Environment → Environment → Prop} (resolver : Resolver) :
    (readOverlayContent resolver address : Storing π _).Same same :=
  same_naming fun _ _ => same_overlay.bind fun _ => same_pure _

theorem same_readOverlayCode {same : Environment → Environment → Prop} (resolver : Resolver) :
    (readOverlayCode resolver address : Storing π _).Same same :=
  same_naming fun _ _ => same_overlay.bind fun _ => same_pure _

/-! ## Engines -/

section

open KeyValue

variable {resolver : Resolver}

theorem timeless_keyValue : Timeless (KeyValue.SameContent resolver address) :=
  fun _ _ _ alike => ⟨alike.delay, alike.fetch⟩

theorem same_engineDelay : engineDelay.Same (KeyValue.SameContent resolver address) := by
  apply (same_gets fun s s' level => level.media.delay.symm).bind
  intro delay
  exact lockstep_lift (lockstep_sleep (Site.timely timeless_keyValue) delay)

theorem attempt_get (e : Engine) (collection key : String) :
    (e.attempt .get collection key fun e => (e.get? collection key, e)).2 = e := by
  unfold Engine.attempt
  split
  · rfl
  · rfl

/-- Reading a document leaves an engine as it is. -/
theorem level_get {collection : Collection} {key : String} {s s' : Site Written}
    (level : s.Level (KeyValue.SameContent resolver address) s') :
    Site.Level (KeyValue.SameContent resolver address)
      { s with environment := { s.environment with
        engine := (s.environment.engine.attempt .get collection.name key fun e =>
          (e.get? collection.name key, e)).2 } }
      { s' with environment := { s'.environment with
        engine := (s'.environment.engine.attempt .get collection.name key fun e =>
          (e.get? collection.name key, e)).2 } } := by
  rw [attempt_get, attempt_get]
  exact level

theorem even_get (collection : Collection) (key : String) :
    (KeyValue.get collection key).Even (KeyValue.SameContent resolver address) :=
  lockstep_modifyGet fun _ _ level => ⟨trivial, level_get level⟩

theorem same_get {key : String} (keyed : address.key resolver .content = .ok key) :
    (KeyValue.get .content key).Same (KeyValue.SameContent resolver address) := by
  apply lockstep_modifyGet
  intro s s' level
  have fetched := level.media.fetch key keyed
  unfold fetch at fetched
  exact ⟨congrArg (Except.mapError _) fetched.symm, level_get level⟩

theorem run_decoded {β : Type} (key : String) (decoder : Json.Decoder β)
    (document : Option (List UInt8)) : ∃ r, (decoded key decoder document).run = .done r := by
  unfold decoded
  split
  · exact ⟨_, rfl⟩
  · split
    · exact ⟨_, rfl⟩
    · exact ⟨_, rfl⟩

theorem same_loadContent {key : String} (keyed : address.key resolver .content = .ok key) :
    (loadContent key).Same (KeyValue.SameContent resolver address) := by
  apply (same_get keyed).bind
  intro document
  refine Same.bind ?_ fun found => ?_
  · obtain ⟨r, ends⟩ := run_decoded key (contentRecord key) document
    unfold Storing.Same
    rw [ends]
    exact lockstep_pure r
  · cases found with
    | none => exact same_pure _
    | some record => exact (same_keepContent record).map _

theorem keyValue_same_readContent (pageSize : Nat) :
    ((keyValue resolver pageSize).readContent address token).Same
      (KeyValue.SameContent resolver address) := by
  apply same_naming
  intro key keyed
  apply same_overlay.bind
  intro o
  split
  · exact same_pure _
  · apply Same.within timeless_keyValue
    exact same_engineDelay.bind fun _ => same_loadContent keyed

theorem keyValue_even_readCode (pageSize : Nat) :
    ((keyValue resolver pageSize).readCode address token).Even
      (KeyValue.SameContent resolver address) := by
  apply even_naming
  intro key
  apply same_overlay.seq
  intro o
  split
  · exact (same_pure _).even
  · apply Even.bind
    · apply Even.within timeless_keyValue
      exact same_engineDelay.seq fun _ => even_get _ _
    · exact run_decoded key (storedCode key)

end

/-! ## Files -/

section

open Files

variable {sources : Sources}

theorem timeless_files : Timeless (Files.SameContent sources address) := fun _ _ _ alike => alike

/-- A look at the files leaves them as they are. -/
theorem even_transfer {f : FileTree → α} :
    (transfer fun t => (f t, t)).Even (Files.SameContent sources address) :=
  .act (fun _ _ level => level) fun _ _ _ => .pause (.done trivial)

theorem same_transfer {f : FileTree → α} (h : ∀ e e', Files.SameContent sources address e e' →
    f e'.files = f e.files) :
    (transfer fun t => (f t, t)).Same (Files.SameContent sources address) :=
  .act (fun _ _ level => level) fun _ _ level =>
    .pause (.done (congrArg Except.ok (h _ _ level.media).symm))

theorem files_same_readContent : ((files sources).readContent address token).Same
    (Files.SameContent sources address) := by
  apply same_naming
  intro key keyed
  apply same_overlay.bind
  intro o
  split
  · exact same_pure _
  · apply Same.within timeless_files
    refine Same.bind ?_ fun source => ?_
    · refine Same.bind (same_transfer fun e e' alike => alike key keyed) fun text => ?_
      split
      · exact same_pure _
      · exact same_pure _
      · exact same_throw _
    · cases source with
      | none => exact same_pure _
      | some source => exact (same_keepContent _).map _

theorem files_even_readCode : ((files sources).readCode address token).Even
    (Files.SameContent sources address) := by
  apply even_naming
  intro key
  apply same_overlay.seq
  intro o
  split
  · exact (same_pure _).even
  · apply Same.seq (same_gets fun s s' level => level.own.symm)
    intro output
    split
    · exact (same_pure _).even
    · apply Even.within timeless_files
      refine Even.bind (Even.bind even_transfer fun text => ?_) fun text => ⟨_, rfl⟩
      split
      · exact ⟨_, rfl⟩
      · exact ⟨_, rfl⟩
      · exact ⟨_, rfl⟩

end

/-! ## Networks -/

section

open Remote

variable {r : Remote}

theorem timeless_remote : Timeless (Remote.SameContent r address) := fun _ _ _ alike => alike

/-- What was sent does not change the replies. -/
theorem level_exchange {s s' : Site Unit} (level : s.Level (Remote.SameContent r address) s')
    (request : Request) : Site.Level (Remote.SameContent r address)
      { s with environment := { s.environment with
        network := (s.environment.network.exchange request).2 } }
      { s' with environment := { s'.environment with
        network := (s'.environment.network.exchange request).2 } } :=
  ⟨level.overlay, level.own, level.clock, level.media⟩

/-- What a reply comes to, if there is one. -/
def received (request : Request) : Option Reply → Fetching Reply
  | some reply => return reply
  | none => throw (failure none request.url "<request>")

theorem run_received (request : Request) (reply : Option Reply) :
    ∃ r, (received request reply).run = .done r := by
  cases reply with
  | none => exact ⟨_, rfl⟩
  | some reply => exact ⟨_, rfl⟩

theorem even_exchange (request : Request) :
    (exchange request).Even (Remote.SameContent r address) := by
  apply Lockstep.act
  · intro s s' level
    exact level_exchange level request
  · intro s s' level
    obtain ⟨v, first⟩ := run_received request (s.environment.network.respond request)
    obtain ⟨v', second⟩ := run_received request (s'.environment.network.respond request)
    have ends : Lockstep (Site.Level (Remote.SameContent r address)) (fun _ _ => True)
        (received request (s.environment.network.respond request)).run
        (received request (s'.environment.network.respond request)).run := by
      rw [first, second]
      exact .done trivial
    exact .pause ends

theorem same_exchange {request : Request} (h : ∀ e e', Remote.SameContent r address e e' →
    e'.network.respond request = e.network.respond request) :
    (exchange request).Same (Remote.SameContent r address) := by
  apply Lockstep.act
  · intro s s' level
    exact level_exchange level request
  · intro s s' level
    obtain ⟨v, ends⟩ := run_received request (s.environment.network.respond request)
    have both : Lockstep (Site.Level (Remote.SameContent r address)) Eq
        (received request (s.environment.network.respond request)).run
        (received request (s'.environment.network.respond request)).run := by
      rw [h _ _ level.media, ends]
      exact .done rfl
    exact .pause both

theorem same_fetch {key : String} {url : Url} (keyed : address.key r.resolver .content = .ok key)
    (found : r.urlOf key = .ok url) :
    (r.get url token).Same (Remote.SameContent r address) := by
  apply Same.within timeless_remote
  apply (same_exchange fun e e' alike => alike key url keyed found).bind
  intro reply
  split
  · exact same_pure _
  · exact same_ofExcept fun _ _ => same_pure _

theorem even_fetch (url : Url) : (r.get url token).Even (Remote.SameContent r address) := by
  apply Even.within timeless_remote
  apply (even_exchange _).bind
  intro reply
  split
  · exact ⟨_, rfl⟩
  · cases checked url.text reply with
    | error e => exact ⟨_, rfl⟩
    | ok reply => exact ⟨_, rfl⟩

theorem remote_same_readContent :
    ((remote r).readContent address token).Same (Remote.SameContent r address) := by
  apply same_naming
  intro key keyed
  apply same_overlay.bind
  intro o
  split
  · exact same_pure _
  · apply same_ofExcept
    intro url found
    apply (same_fetch keyed found).bind
    intro reply
    cases reply with
    | none => exact same_pure _
    | some reply => exact (same_keepContent _).map _

theorem remote_even_readCode :
    ((remote r).readCode address token).Even (Remote.SameContent r address) := by
  apply even_naming
  intro key
  apply same_overlay.seq
  intro o
  split
  · exact (same_pure _).even
  · apply even_ofExcept
    intro url
    exact (even_fetch url).bind fun reply => ⟨_, rfl⟩

end

/-! ## All stores -/

section

variable {store : Store π} {same : Environment → Environment → Prop}

/-- Where the media have the same content, reading it comes to the same. -/
theorem Compares.readContent (compares : store.Compares address same) :
    (store.readContent address token).Same same := by
  cases compares with
  | memory resolver => exact same_readOverlayContent _
  | delayed resolver delay =>
      have slow : (Storing.within token "slow read" (Storing.always (Job.sleep delay)) :
          Storing Unit Unit).Same fun _ _ => True :=
        Same.within (fun _ _ _ _ => trivial)
          (lockstep_lift (lockstep_sleep (Site.timely fun _ _ _ _ => trivial) delay)) _ _
      exact slow.bind fun _ => same_readOverlayContent _
  | keyValue resolver pageSize => exact keyValue_same_readContent _
  | files sources => exact files_same_readContent
  | remote r => exact remote_same_readContent

/-- Reading code leaves overlay, time and content alike, however different it turns out. -/
theorem Compares.readCode (compares : store.Compares address same) :
    (store.readCode address token).Even same := by
  cases compares with
  | memory resolver => exact (same_readOverlayCode _).even
  | delayed resolver delay => exact (same_readOverlayCode _).even
  | keyValue resolver pageSize => exact keyValue_even_readCode _
  | files sources => exact files_even_readCode
  | remote r => exact remote_even_readCode

end

end Store
end TemplateCache
