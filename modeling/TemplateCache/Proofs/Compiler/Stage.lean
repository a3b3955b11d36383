import TemplateCache.Compiler.Compile
import TemplateCache.Proofs.Store.Contract

/-!
# The stages of a compile

A compile goes through stages. `Move` says everything that a stage can do to the bench, one
constructor for each; what all moves keep is an invariant of every compile, so later proofs look at
moves and not at the code of a compile.
-/

namespace TemplateCache

variable {π : Type}

/-- A seat in the flight that a key leads to, which is made where there is none. -/
def Flights.join (f : Flights) (key : String) : (Nat × Nat) × Flights :=
  let (number, f) := f.board key
  let (caller, f) := f.enter number
  ((number, caller), f)

namespace Bench

def withFlights (b : Bench π) (f : Flights → Flights) : Bench π :=
  b.onState fun s => { s with flights := f s.flights }

def withCache (b : Bench π) (f : CodeCache → CodeCache) : Bench π :=
  b.onState fun s => { s with cache := f s.cache }

def withSite (b : Bench π) (site : Site π) : Bench π := { b with site := site }

/-- Registers content that was read, unless its code key was invalidated meanwhile. -/
def note (b : Bench π) (codeKey : String) (since : Nat) (found : ContentRecord) : Bench π :=
  if b.state.cache.isOutdated codeKey since then b else b.registerNew found

def countGenerated (b : Bench π) : Bench π :=
  b.onState fun s => { s with generated := s.generated + 1 }

def countLoaded (b : Bench π) : Bench π := b.onState fun s => { s with loaded := s.loaded + 1 }

end Bench

namespace Compiler

/-- What a compile that has ended leaves in the cache. -/
def publish (c : Compiler π) (codeKey : String) (since : Nat) (record : CodeRecord)
    (b : Bench π) : Bench π :=
  b.withCache fun cache =>
    if c.settings.caching then (cache.insert record since).2 else cache.refresh codeKey since

end Compiler

/-- What a caller has once it has boarded: its flight, its number, the epoch in which it came, and
the record of the content it brought. -/
structure Ticket where
  number : Nat
  caller : Nat
  since : Nat
  given : Option ContentRecord

inductive Stage where
  | asked
  | registered (given : Option ContentRecord)
  /-- Others in its flight may have the turn. -/
  | waiting (t : Ticket)
  | called (t : Ticket)
  /-- The store is asked for code. -/
  | fetching (t : Ticket)
  | seeking (t : Ticket)
  /-- The store is asked for content. -/
  | reading (t : Ticket)
  | generating (t : Ticket) (content : Content)
  /-- The store is given a renderer. -/
  | writing (t : Ticket) (renderer : Renderer)
  | made (t : Ticket) (record : CodeRecord)
  | ended (t : Ticket) (result : Except CompileError CodeRecord)
  | leaving (t : Ticket) (result : Except CompileError CodeRecord)
  | finished (result : Except CompileError CodeRecord)

namespace Stage

/-- Where a stretch of a compile may end. -/
def rests : Stage → Bench π → Prop
  | waiting t, b => b.state.flights.isDue t.number t.caller = false
  | fetching _, _ => True
  | reading _, _ => True
  | writing _ _, _ => True
  | _, _ => False

/-- The seat that belongs to a stage between boarding and leaving. -/
def ticket? : Stage → Option Ticket
  | waiting t => some t
  | called t => some t
  | fetching t => some t
  | seeking t => some t
  | reading t => some t
  | generating t _ => some t
  | writing t _ => some t
  | made t _ => some t
  | ended t _ => some t
  | leaving t _ => some t
  | _ => none

end Stage

section

variable (c : Compiler π) (input : CompileInput) (codeKey : String)

/-- The record that content given with a compile is registered as. -/
def CompileInput.record (contentKey : String) (content : Content) : ContentRecord :=
  .make input.address.name contentKey content .explicit input.address.extension
    input.address.params

/-- Whether an attempt asks the store for code first. -/
def Ticket.asksForCode (t : Ticket) (b : Bench π) : Bool :=
  c.settings.caching && t.given.isNone && !b.state.cache.isStale codeKey

/-- What one stage of a compile under a code key can do, and the stage after it. -/
inductive Move : Stage → Bench π → Stage → Bench π → Prop where
  | bare {b : Bench π} (empty : input.content = none) : Move .asked b (.registered none) b
  | unplaced {b : Bench π} {content : Content} {e : CompileError}
      (full : input.content = some content) : Move .asked b (.finished (.error e)) b
  | give {b : Bench π} {content : Content} {contentKey : String}
      (full : input.content = some content)
      (key : input.address.key c.store.resolver .content = .ok contentKey) :
      Move .asked b
        (.registered (Bench.register c.store.resolver (input.record contentKey content) b).1)
        (Bench.register c.store.resolver (input.record contentKey content) b).2
  | hit {b : Bench π} {given : Option ContentRecord} {record : CodeRecord}
      (caching : c.settings.caching = true) (cached : b.state.cache.get? codeKey = some record) :
      Move (.registered given) b (.finished (.ok record)) b
  | board {b : Bench π} {given : Option ContentRecord}
      (missed : c.settings.caching = true → b.state.cache.get? codeKey = none) :
      Move (.registered given) b
        (.waiting ⟨(b.state.flights.join codeKey).1.1, (b.state.flights.join codeKey).1.2,
          b.state.cache.epoch, given⟩)
        (b.withFlights fun f => (f.join codeKey).2)
  | share {b : Bench π} {t : Ticket} {record : CodeRecord}
      (landed : (b.state.flights.flight t.number).result = some record) :
      Move (.waiting t) b (.leaving t (.ok record)) b
  | turn {b : Bench π} {t : Ticket} (flying : (b.state.flights.flight t.number).result = none)
      (due : (b.state.flights.flight t.number).holder = some t.caller) :
      Move (.waiting t) b (.called t) b
  | take {b : Bench π} {t : Ticket} {record : CodeRecord}
      (asks : t.asksForCode c codeKey b = true)
      (kept : b.site.overlay.code.get? codeKey = some record) :
      Move (.called t) b (.made t record) (Bench.newToken c.settings b).2
  | fetch {b : Bench π} {t : Ticket} (asks : t.asksForCode c codeKey b = true)
      (mayRead : c.settings.policy.mayRead = true)
      (missing : b.site.overlay.code.get? codeKey = none) :
      Move (.called t) b (.fetching t) (Bench.newToken c.settings b).2
  | seek {b : Bench π} {t : Ticket}
      (nothing : t.asksForCode c codeKey b = true →
        c.settings.policy.mayRead = false ∧ b.site.overlay.code.get? codeKey = none) :
      Move (.called t) b (.seeking t) (Bench.newToken c.settings b).2
  | fetchOn {b : Bench π} {t : Ticket} {site : Site π} (same : Site.SameCode b.site site) :
      Move (.fetching t) b (.fetching t) (b.withSite site)
  | load {b : Bench π} {t : Ticket} {source : String} {renderer : Renderer}
      (loads : c.generator.load source c.settings.generator = .ok renderer) :
      Move (.fetching t) b (.made t ⟨codeKey, input.address.name, renderer⟩)
        (b.countLoaded.onOverlay (·.putCode ⟨codeKey, input.address.name, renderer⟩))
  | unreadable {b : Bench π} {t : Ticket} : Move (.fetching t) b (.seeking t) b.countLoaded
  | fetchNothing {b : Bench π} {t : Ticket} : Move (.fetching t) b (.seeking t) b
  | fetchFails {b : Bench π} {t : Ticket} {e : CompileError} :
      Move (.fetching t) b (.ended t (.error e)) b
  | seekFails {b : Bench π} {t : Ticket} {e : CompileError} :
      Move (.seeking t) b (.ended t (.error e)) b
  | given {b : Bench π} {t : Ticket} {record : ContentRecord} (given : t.given = some record) :
      Move (.seeking t) b (.generating t record.content) b
  | serve {b : Bench π} {t : Ticket} {contentKey : String} {record : ContentRecord}
      (bare : t.given = none)
      (key : input.address.key c.store.resolver .content = .ok contentKey)
      (serves : b.state.registry.serving input.address.name contentKey input.address.isPlain =
        some record) :
      Move (.seeking t) b (.generating t record.content) b
  | read {b : Bench π} {t : Ticket} {contentKey : String} (bare : t.given = none)
      (key : input.address.key c.store.resolver .content = .ok contentKey)
      (unknown : b.state.registry.serving input.address.name contentKey input.address.isPlain =
        none) :
      Move (.seeking t) b (.reading t) b
  | readOn {b : Bench π} {t : Ticket} {site : Site π} (same : Site.SameCode b.site site) :
      Move (.reading t) b (.reading t) (b.withSite site)
  | found {b : Bench π} {t : Ticket} {record : ContentRecord} :
      Move (.reading t) b (.generating t record.content) (b.note codeKey t.since record)
  | readFails {b : Bench π} {t : Ticket} {e : CompileError} :
      Move (.reading t) b (.ended t (.error e)) b
  | refuse {b : Bench π} {t : Ticket} {content : Content} {e : CompileError} :
      Move (.generating t content) b (.ended t (.error e)) b.countGenerated
  | keep {b : Bench π} {t : Ticket} {content : Content} {renderer : Renderer}
      (mayWrite : c.settings.policy.mayWrite = true)
      (generates : c.generator.generate content c.settings.generator = .ok renderer) :
      Move (.generating t content) b (.writing t renderer) b.countGenerated
  | generate {b : Bench π} {t : Ticket} {content : Content} {renderer : Renderer}
      (mayNotWrite : c.settings.policy.mayWrite = false)
      (generates : c.generator.generate content c.settings.generator = .ok renderer) :
      Move (.generating t content) b (.made t ⟨codeKey, input.address.name, renderer⟩)
        b.countGenerated
  | writeOn {b : Bench π} {t : Ticket} {renderer : Renderer} {site : Site π}
      (change : Site.SameCode b.site site ∨ site.overlay.code =
        b.site.overlay.code.insert codeKey ⟨codeKey, input.address.name, renderer⟩) :
      Move (.writing t renderer) b (.writing t renderer) (b.withSite site)
  | written {b : Bench π} {t : Ticket} {renderer : Renderer}
      (kept : b.site.overlay.code.get? codeKey =
        some ⟨codeKey, input.address.name, renderer⟩) :
      Move (.writing t renderer) b (.made t ⟨codeKey, input.address.name, renderer⟩) b
  | writeFails {b : Bench π} {t : Ticket} {renderer : Renderer} {e : CompileError} :
      Move (.writing t renderer) b (.ended t (.error e)) b
  | publish {b : Bench π} {t : Ticket} {record : CodeRecord} :
      Move (.made t record) b (.ended t (.ok record)) (c.publish codeKey t.since record b)
  | land {b : Bench π} {t : Ticket} {record : CodeRecord} :
      Move (.ended t (.ok record)) b (.leaving t (.ok record))
        (b.withFlights (·.land t.number record))
  | handOver {b : Bench π} {t : Ticket} {e : CompileError} :
      Move (.ended t (.error e)) b (.leaving t (.error e)) (b.withFlights (·.handOver t.number))
  | leave {b : Bench π} {t : Ticket} {result : Except CompileError CodeRecord} :
      Move (.leaving t result) b (.finished result)
        (b.withFlights (·.leave codeKey t.number))

/-- The plan that compiles under a code key keep to. -/
def compilePlan : Job.Plan (Bench π) Stage := ⟨Move c input codeKey, Stage.rests⟩

end
end TemplateCache
