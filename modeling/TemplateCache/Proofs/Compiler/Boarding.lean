import TemplateCache.Proofs.Compiler.Seats
import TemplateCache.Proofs.Compiler.Serial
import TemplateCache.Proofs.Job.Stretch
import TemplateCache.Proofs.Naming

/-!
# How calls take part in flights

Between its stretches a compile waits in the queue of a flight, or is somewhere in an attempt that
has a flight to itself. `Aboard` says so of all calls of a session, and `Sails` says what one event
does to seats and flights.
-/

namespace TemplateCache

open Job

variable {π : Type}

/-! ## The jobs of callers -/

namespace Compiler

variable (codeKey : String) (number caller : Nat)

/-- An attempt has ended: the flight lands or is handed over, and the caller leaves it. -/
def arrive (r : Except CompileError CodeRecord) : Job (Bench π) (Except CompileError Answer) :=
  .act (fun b => b.withFlights (match r with
    | .ok record => (·.land number record)
    | .error _ => (·.handOver number))) fun _ =>
  .act (fun b => b.withFlights (·.leave codeKey number)) fun _ => .done (r.map .code)

/-- A caller need not wait any more: it takes the result of the flight, or begins an attempt. -/
def depart (work : Job (Bench π) (Except CompileError CodeRecord)) :
    Job (Bench π) (Except CompileError Answer) :=
  .act id fun b =>
    match (b.state.flights.flight number).result with
    | some record =>
      .act (fun b => b.withFlights (·.leave codeKey number)) fun _ => .done (.ok (.code record))
    | none => work.bind (arrive codeKey number)

/-- A caller waits in a flight. -/
def queue {α : Type} (next : Job (Bench π) α) : Job (Bench π) α :=
  .wait ⟨none, fun b => b.state.flights.isDue number caller⟩ next

/-- What is left of an attempt once it has its token. -/
def attempt (c : Compiler π) (address : Address) (codeKey : String) (given : Option ContentRecord)
    (since : Nat) (token : Token) : Compiling π CodeRecord :=
  Compiling.gets (·.state.cache) >>= fun cache =>
    (if c.settings.caching && given.isNone && !cache.isStale codeKey
      then c.findCode address codeKey token else pure none) >>=
    c.conclude address codeKey given since token

variable {codeKey number}

/-- What a caller does in its flight once it is due. -/
theorem depart_job (work : Compiling π CodeRecord) (b : Bench π) :
    (Answer.code <$> (do
      let result ←
        match (b.state.flights.flight number).result with
        | some record => pure (Except.ok record)
        | none =>
          let result ← ExceptT.lift work.run
          Compiling.modify (·.onState fun s => { s with flights := (match result with
            | .ok record => (·.land number record)
            | .error _ => (·.handOver number) : Flights → Flights) s.flights })
          pure result
      Compiling.modify (·.onState fun s => { s with flights := s.flights.leave codeKey number })
      Compiling.ofExcept result : Compiling π CodeRecord)).run =
    match (b.state.flights.flight number).result with
    | some record =>
      .act (fun b => b.withFlights (·.leave codeKey number)) fun _ => .done (.ok (.code record))
    | none => work.run.bind (arrive codeKey number) := by
  cases (b.state.flights.flight number).result with
  | some record => rfl
  | none =>
      have settled (r : Except CompileError CodeRecord) : (Answer.code <$> (do
          Compiling.modify (·.onState fun s => { s with flights := (match r with
            | .ok record => (·.land number record)
            | .error _ => (·.handOver number) : Flights → Flights) s.flights })
          Compiling.modify (·.onState fun s => { s with flights := s.flights.leave codeKey number })
          Compiling.ofExcept r : Compiling π CodeRecord)).run = arrive codeKey number r := by
        cases r with
        | ok record => rfl
        | error e => rfl
      show Job.bind (Job.bind (Job.bind work.run _) _) _ = _
      simp only [bind_assoc]
      exact congrArg (Job.bind work.run) (funext settled)

/-- A compile that finds no cached renderer boards a flight of its code key. -/
theorem share_job (work : Compiling π CodeRecord) :
    (Answer.code <$> share codeKey work).run =
      .act (fun b => b.withFlights fun f => (f.join codeKey).2) fun b =>
        queue (b.state.flights.join codeKey).1.1 (b.state.flights.join codeKey).1.2
          (depart codeKey (b.state.flights.join codeKey).1.1 work.run) := by
  unfold share
  refine congrArg (Job.act _) (funext fun b => congrArg (Job.wait _)
    (congrArg (Job.act id) (funext fun b' => ?_)))
  exact depart_job work b'

/-- An attempt draws its token first. -/
theorem compileAnew_job {c : Compiler π} {address : Address} {given : Option ContentRecord}
    {since : Nat} : (c.compileAnew address codeKey given since).run =
      .act (fun b => (Bench.newToken c.settings b).2) fun b =>
        (c.attempt address codeKey given since (Bench.newToken c.settings b).1).run := by
  rw [compileAnew_eq]
  rfl

end Compiler

namespace Bench

/-- Records are replaced or removed at most, as before a compile looks into the cache. -/
structure Prepares (b d : Bench π) : Prop where
  flights : b.state.flights.Sheds d.state.flights
  root : d.state.root = b.state.root
  watchers : d.state.watchers = b.state.watchers
  generated : d.state.generated = b.state.generated
  clock : Clocked.clock d = Clocked.clock b

variable {b d : Bench π} {keys : List String}

theorem Prepares.refl (b : Bench π) : b.Prepares b := ⟨.refl _, rfl, rfl, rfl, rfl⟩

theorem Prepares.newToken (h : b.Prepares d) (settings : CompilerSettings) :
    (newToken settings d).1 = (newToken settings b).1 := by
  unfold Bench.newToken
  dsimp only
  rw [h.root, h.clock]

theorem Prepares.trans {e : Bench π} (h : b.Prepares d) (h' : d.Prepares e) : b.Prepares e :=
  ⟨h.flights.trans h'.flights, h'.root.trans h.root, h'.watchers.trans h.watchers,
    h'.generated.trans h.generated, h'.clock.trans h.clock⟩

theorem prepares_invalidate : b.Prepares (b.invalidate keys) := by
  have fold (d : Bench π) : d.Prepares (keys.foldl (fun b key =>
      (b.onOverlay (·.eraseCode key)).onState fun s =>
        { s with flights := s.flights.detach key }) d) := by
    induction keys generalizing d with
    | nil => exact .refl d
    | cons key rest ih =>
        refine .trans ?_ (ih ((d.onOverlay (·.eraseCode key)).onState fun s =>
          { s with flights := s.flights.detach key }))
        exact ⟨⟨rfl, rfl, Flights.current_detach (f := d.state.flights)⟩, rfl, rfl, rfl, rfl⟩
  have dropped : b.Prepares (b.onState fun s =>
      { s with cache := (s.cache.invalidate keys).2 }) := ⟨.refl _, rfl, rfl, rfl, rfl⟩
  exact dropped.trans (fold _)

theorem prepares_register {resolver : Resolver} (record : ContentRecord) :
    b.Prepares (register resolver record b).2 := by
  have entered : b.Prepares (b.onState fun s =>
      { s with registry := (b.state.registry.register record).2 }) := ⟨.refl _, rfl, rfl, rfl, rfl⟩
  unfold register
  dsimp only
  split
  · exact entered.trans prepares_invalidate
  · exact entered

theorem prepares_eraseName {resolver : Resolver} {name : String} :
    b.Prepares (eraseName resolver name b) := by
  have removed : b.Prepares (b.onState fun s =>
      { s with registry := (b.state.registry.remove name).2 }) := ⟨.refl _, rfl, rfl, rfl, rfl⟩
  have dropped (d : Bench π) : d.Prepares (d.onState fun s =>
      { s with cache := s.cache.dropName name }) := ⟨.refl _, rfl, rfl, rfl, rfl⟩
  exact (removed.trans prepares_invalidate).trans (dropped _)

theorem prepares_accept {resolver : Resolver} {address : Address} {contentKey : String}
    {content : Option Content} : b.Prepares (b.accept resolver address contentKey content).2 := by
  cases content with
  | none => exact .refl b
  | some content => exact prepares_register _

end Bench

/-! ## What attempts and errands do to flights -/

section

variable {c : Compiler π} {address : Address} {codeKey contentKey : String} {since : Nat}
  {token : Token} {given : Option ContentRecord}

/-- Nothing happens to the flights. -/
def Bench.SameFlights (b d : Bench π) : Prop := d.state.flights = b.state.flights

theorem Bench.SameFlights.refl (b : Bench π) : b.SameFlights b := rfl

theorem Bench.same_of_path {b d : Bench π} (path : Relation.ReflTransGen Bench.SameFlights b d) :
    d.state.flights = b.state.flights := by
  induction path with
  | refl => rfl
  | tail _ same ih => exact Eq.trans same ih

open Bench Compiling Compiler

/-- What a search for code or content may change. A record may be entered, source may be loaded, and
the store is used. -/
def Bench.Searches (b d : Bench π) : Prop :=
  ∃ registry loaded, d.state = { b.state with registry := registry, loaded := loaded }

theorem Bench.Searches.refl (b : Bench π) : b.Searches b := ⟨_, _, rfl⟩

theorem Bench.Searches.flights {b d : Bench π} (h : b.Searches d) : b.SameFlights d := by
  obtain ⟨registry, loaded, state⟩ := h
  unfold SameFlights
  rw [state]

theorem storing_searches {α : Type} (job : Storing π α) : (storing job).run.Keeps Searches :=
  (quiet_storing job).mono fun {b _} same => ⟨b.state.registry, b.state.loaded, same⟩

theorem findCode_searches : (c.findCode address codeKey token).run.Keeps Searches := by
  unfold findCode storedCode
  refine .bindExcept ?_ fun found => ?_
  · split
    · refine (storing_searches _).bindExcept fun found => ?_
      split
      · exact keeps_pure _
      · exact keeps_throw _
      · exact keeps_throw _
      · exact keeps_pure _
    · exact (keeps_gets .refl _).bindExcept fun _ => keeps_pure _
  · split
    · exact keeps_pure _
    · exact keeps_pure _
    · refine keeps_step fun b => ?_
      dsimp only
      split
      · exact ⟨_, _, rfl⟩
      · exact ⟨_, _, rfl⟩

theorem findContent_searches :
    (c.findContent address codeKey contentKey since token).run.Keeps Searches := by
  unfold findContent
  refine (keeps_gets .refl _).bindExcept fun registry => ?_
  split
  · exact keeps_pure _
  · have delivered (found : Option ContentRecord) :
        (c.deliver address contentKey found).run.Keeps Searches := by
      cases found with
      | some record => exact keeps_pure _
      | none => exact keeps_throw _
    refine .bindExcept ?_ fun found => (keeps_modify fun b => ?_).bindExcept fun _ => keeps_pure _
    · rw [readContent_eq]
      split
      · refine (storing_searches _).bindExcept fun found => ?_
        split
        · exact delivered _
        · exact keeps_throw _
      · exact (keeps_gets .refl _).bindExcept fun _ => delivered _
    · split
      · exact .refl b
      · exact ⟨_, _, rfl⟩

theorem compileContent_keeps_flights {content : Content} :
    (c.compileContent address codeKey contentKey content since token).run.Keeps SameFlights := by
  have generates : (c.generate content).run.Keeps SameFlights := by
    unfold generate
    exact keeps_step fun b => .refl b
  unfold compileContent storeCode
  refine generates.bindExcept fun generated => ?_
  split
  · exact keeps_throw _
  · refine .bindExcept ?_ fun record => ?_
    · split
      · refine ((storing_searches _).mono Searches.flights).bindExcept fun r => ?_
        split
        · exact keeps_pure _
        · exact keeps_throw _
      · exact keeps_pure _
    · exact (keeps_modify fun _ => .refl _).bindExcept fun _ => keeps_pure _

/-- An attempt leaves the flights alone, its own too. -/
theorem attempt_keeps_flights :
    (c.attempt address codeKey given since token).run.Keeps SameFlights := by
  unfold attempt
  refine (keeps_gets .refl _).bindExcept fun cache => .bindExcept ?_ fun found => ?_
  · split
    · exact findCode_searches.mono Searches.flights
    · exact keeps_pure _
  · unfold conclude
    split
    · exact (keeps_modify fun _ => .refl _).bindExcept fun _ => keeps_pure _
    · unfold compileRecord
      refine (keeps_ofExcept _).bindExcept fun contentKey => ?_
      dsimp only
      split
      · exact (keeps_pure _).bindExcept fun _ => compileContent_keeps_flights
      · exact (findContent_searches.mono Searches.flights).bindExcept fun _ =>
          compileContent_keeps_flights

/-! ## What other calls do to flights -/

/-- Keys are detached from their flights at most. -/
def Bench.ShedsFlights (b d : Bench π) : Prop := b.state.flights.Sheds d.state.flights

theorem Bench.sheds_of_path {b d : Bench π} (path : Relation.ReflTransGen Bench.ShedsFlights b d) :
    b.state.flights.Sheds d.state.flights := by
  induction path with
  | refl => exact .refl _
  | tail _ sheds ih => exact ih.trans sheds

theorem Bench.Chore.sheds_flights {resolver : Resolver} {b d : Bench π}
    (chore : Chore resolver b d) : b.ShedsFlights d := by
  induction chore with
  | apart registry cache flights code =>
      unfold ShedsFlights
      rw [flights]
      exact .refl _
  | register record => exact (prepares_register record).flights
  | erase name => exact prepares_eraseName.flights
  | trans first second ih ih' => exact Flights.Sheds.trans ih ih'

theorem errand_sheds_flights (lawful : c.store.Lawful) {command : Command}
    (errand : ∀ input, command ≠ .compile input) :
    (command.work c).run.Keeps ShedsFlights := by
  by_cases clears : ∃ all, command = .clear all
  · obtain ⟨all, rfl⟩ := clears
    refine Keeps.mapExcept (.bindExcept (keeps_modify fun b => .refl _) fun _ => ?_)
    refine .bindExcept (keeps_step fun b => .refl _) fun token => ?_
    refine .bindExcept ((quiet_storing _).mono fun {b d} same => ?_) fun r => ?_
    · unfold ShedsFlights
      rw [show d.state = b.state from same]
      exact .refl _
    · split
      · exact keeps_pure _
      · exact keeps_throw _
  · exact (errand_chores lawful errand fun all same => clears ⟨all, same⟩).mono
      Chore.sheds_flights

end

/-! ## Calls and their seats -/

/-- A call has the seat that its job says. -/
def Seat.Fits (c : Compiler π) (call : Call π) : Seat → Prop
  | none => call.job.Keeps Bench.ShedsFlights ∧ ((∃ answer, call.job = .done answer) ∨
      ∀ input codeKey, call.command = .compile input →
        input.address.key c.store.resolver .code ≠ .ok codeKey)
  | queued berth => ∃ input given since, call.command = .compile input ∧
      input.address.key c.store.resolver .code = .ok berth.key ∧
      call.job = Compiler.queue berth.number berth.caller (Compiler.depart berth.key berth.number
        (c.compileAnew input.address berth.key given since).run)
  | flying berth token => ∃ input given since work, call.command = .compile input ∧
      input.address.key c.store.resolver .code = .ok berth.key ∧
      (c.attempt input.address berth.key given since token).run.Leaves work ∧ work.Open ∧
      call.job = work.bind (Compiler.arrive berth.key berth.number)

section

open Bench Compiler

variable {c : Compiler π} {input : CompileInput} {b : Bench π} {berth : Berth}
  {work : Job (Bench π) (Except CompileError CodeRecord)}

/-- An attempt that goes on comes to its end and leaves the flight, or has to wait once more. -/
theorem fly (berth : Berth) (keeps : work.Keeps SameFlights) (b : Bench π) :
    (∃ r d, d.state.flights = b.state.flights ∧ work.advance b = (.done r, d) ∧
      (work.bind (arrive berth.key berth.number)).advance b = (.done (r.map .code),
        d.withFlights fun f => (match r with
          | .ok record => f.land berth.number record
          | .error _ => f.handOver berth.number).leave berth.key berth.number)) ∨
      ∃ rest d, d.state.flights = b.state.flights ∧ work.advance b = (rest, d) ∧ rest.Open ∧
        (work.bind (arrive berth.key berth.number)).advance b =
          (rest.bind (arrive berth.key berth.number), d) := by
  have same := same_of_path (keeps b).advance.1
  rcases advance_bind work (arrive berth.key berth.number) b with
    ⟨r, d, ends, both⟩ | ⟨rest, d, stops, isOpen, both⟩
  · rw [ends] at same
    refine .inl ⟨r, d, same, ends, both.trans ?_⟩
    cases r with
    | ok record => rfl
    | error e => rfl
  · rw [stops] at same
    exact .inr ⟨rest, d, same, stops, isOpen, both⟩

/-- What an attempt that goes on does to the flights and to the seat of its call. -/
theorem fly_passage {seat : Seat} {given : Option ContentRecord} {since : Nat} {token : Token}
    (fresh : Token) (sits : seat.berth? = some berth)
    (holds : (b.state.flights.flight berth.number).holder = some berth.caller)
    (goes : b.state.flights.Passage fresh seat b.state.flights (.flying berth token))
    (coded : input.address.key c.store.resolver .code = .ok berth.key)
    (keeps : work.Keeps SameFlights)
    (leaves : (c.attempt input.address berth.key given since token).run.Leaves (work.advance b).1) :
    ∃ seat', b.state.flights.Passage fresh seat
        ((work.bind (arrive berth.key berth.number)).advance b).2.state.flights seat' ∧
      seat'.Fits c ⟨.compile input, ((work.bind (arrive berth.key berth.number)).advance b).1⟩ := by
  rcases fly berth keeps b with ⟨r, d, same, ends, both⟩ | ⟨rest, d, same, stops, isOpen, both⟩
  · rw [both]
    refine ⟨.none, ?_, fun _ => trivial, .inl ⟨_, rfl⟩⟩
    cases r with
    | ok record =>
        show b.state.flights.Passage fresh seat
          ((d.state.flights.land berth.number record).leave berth.key berth.number) _
        rw [same]
        exact .land sits holds record
    | error e =>
        show b.state.flights.Passage fresh seat
          ((d.state.flights.handOver berth.number).leave berth.key berth.number) _
        rw [same]
        exact .handOver sits holds
  · rw [both]
    rw [stops] at leaves
    refine ⟨.flying berth token, ?_, input, given, since, rest, rfl, coded, leaves, isOpen, rfl⟩
    show b.state.flights.Passage fresh seat d.state.flights _
    rw [same]
    exact goes

/-- What a caller does that waits, if it is due. -/
theorem queue_passage (berth : Berth) (given : Option ContentRecord) (since : Nat)
    (coded : input.address.key c.store.resolver .code = .ok berth.key) (b : Bench π) :
    let job := queue berth.number berth.caller (depart berth.key berth.number
      (c.compileAnew input.address berth.key given since).run)
    ∃ seat, b.state.flights.Passage (Bench.newToken c.settings b).1 (.queued berth)
        (job.advance b).2.state.flights seat ∧
      seat.Fits c ⟨.compile input, (job.advance b).1⟩ := by
  intro job
  by_cases due : b.state.flights.isDue berth.number berth.caller = true
  · have goes : job.advance b = (depart berth.key berth.number
        (c.compileAnew input.address berth.key given since).run).advance b := if_pos due
    rw [goes]
    have opened : (depart berth.key berth.number
        (c.compileAnew input.address berth.key given since).run).advance b =
      (match (b.state.flights.flight berth.number).result with
        | some record => .act (fun b => b.withFlights (·.leave berth.key berth.number))
            fun _ => .done (.ok (.code record))
        | none => (c.compileAnew input.address berth.key given since).run.bind
            (arrive berth.key berth.number) :
          Job (Bench π) (Except CompileError Answer)).advance b := rfl
    rw [opened]
    cases landed : (b.state.flights.flight berth.number).result with
    | some record => exact ⟨.none, .share landed, fun _ => trivial, .inl ⟨_, rfl⟩⟩
    | none =>
        have holds : (b.state.flights.flight berth.number).holder = some berth.caller := by
          simpa [Flights.isDue, landed] using due
        rw [compileAnew_job]
        exact fly_passage (b := (Bench.newToken c.settings b).2) _ rfl holds (.takeOff holds) coded
          attempt_keeps_flights (.once _)
  · have stays : job.advance b = (job, b) := if_neg due
    rw [stays]
    exact ⟨.queued berth, .idle _, input, given, since, rfl, coded, rfl⟩

end

/-- What a compile does in its first stretch: it finds a cached renderer, or boards a flight. -/
theorem Compiler.advance_compile {c : Compiler π} {input : CompileInput} {codeKey : String}
    (coded : input.address.key c.store.resolver .code = .ok codeKey) (b : Bench π) :
    ∃ d, b.Prepares d ∧
      ((∃ record, ((Command.compile input).work c).run.advance b =
          (.done (.ok (.code record)), d)) ∨
        ∃ given since, ((Command.compile input).work c).run.advance b =
          (queue (d.state.flights.join codeKey).1.1 (d.state.flights.join codeKey).1.2
            (depart codeKey (d.state.flights.join codeKey).1.1
              (c.compileAnew input.address codeKey given since).run)).advance
            (d.withFlights fun f => (f.join codeKey).2)) := by
  obtain ⟨contentKey, keyed⟩ : ∃ key, input.address.key c.store.resolver .content = .ok key :=
    Resolver.resolve_ok (Resolver.not_blank coded)
  refine ⟨(b.accept c.store.resolver input.address contentKey input.content).2,
    Bench.prepares_accept, ?_⟩
  have looks : ((Command.compile input).work c).run.advance b =
      (Answer.code <$> (do
        let since ← Compiling.gets (·.state.cache.epoch)
        let cache ← Compiling.gets (·.state.cache)
        match if c.settings.caching then cache.get? codeKey else none with
        | some record => return record
        | none => share codeKey (c.compileAnew input.address codeKey
            (b.accept c.store.resolver input.address contentKey input.content).1
            since) : Compiling π CodeRecord)).run.advance
        (b.accept c.store.resolver input.address contentKey input.content).2 := by
    rcases input with ⟨address, content⟩
    dsimp only [Command.work]
    unfold compile registerGiven
    dsimp only
    rw [coded]
    cases content with
    | none => rfl
    | some content =>
        dsimp only
        rw [keyed]
        rfl
  rw [looks]
  generalize b.accept c.store.resolver input.address contentKey input.content = accepted
  obtain ⟨given, d⟩ := accepted
  have sees : (Answer.code <$> (do
        let since ← Compiling.gets (·.state.cache.epoch)
        let cache ← Compiling.gets (·.state.cache)
        match if c.settings.caching then cache.get? codeKey else none with
        | some record => return record
        | none => share codeKey (c.compileAnew input.address codeKey given since) :
          Compiling π CodeRecord)).run.advance d =
      (Answer.code <$> (match if c.settings.caching then d.state.cache.get? codeKey else none with
        | some record => return record
        | none => share codeKey (c.compileAnew input.address codeKey given d.state.cache.epoch) :
          Compiling π CodeRecord)).run.advance d := rfl
  rw [sees]
  cases (if c.settings.caching then d.state.cache.get? codeKey else none) with
  | some record => exact .inl ⟨record, rfl⟩
  | none =>
      refine .inr ⟨given, d.state.cache.epoch, ?_⟩
      dsimp only
      rw [share_job]
      rfl

namespace Session

/-- Calls have the seats that their jobs say, and nobody else has one. -/
structure Placed (c : Compiler π) (s : Session π) (seats : Nat → Seat) : Prop where
  fits : ∀ {j call}, s.calls[j]? = some call → (seats j).Fits c call
  free : ∀ {j}, s.calls.length ≤ j → seats j = .none

/-- All calls of a session have their seats. -/
structure Aboard (c : Compiler π) (s : Session π) (seats : Nat → Seat) : Prop where
  fits : ∀ {j call}, s.calls[j]? = some call → (seats j).Fits c call
  free : ∀ {j}, s.calls.length ≤ j → seats j = .none
  seated : s.bench.state.flights.Seated seats

/-- What an event does to flights and seats. -/
inductive Sails (c : Compiler π) (s : Session π) (seats : Nat → Seat) :
    Event π → Flights → (Nat → Seat) → Prop where
  | shed {e : Event π} {f : Flights} (sheds : s.bench.state.flights.Sheds f) :
      Sails c s seats e f seats
  | board {input : CompileInput} {codeKey : String} {f f' : Flights} {seat : Seat}
      (coded : input.address.key c.store.resolver .code = .ok codeKey)
      (sheds : s.bench.state.flights.Sheds f)
      (passage : (f.join codeKey).2.Passage (Bench.newToken c.settings s.bench).1
        (.queued ⟨codeKey, (f.join codeKey).1.1, (f.join codeKey).1.2⟩) f' seat) :
      Sails c s seats (.ask (.compile input)) f'
        (Function.update seats s.calls.length seat)
  | go {j : Nat} {f : Flights} {seat : Seat}
      (passage : s.bench.state.flights.Passage (Bench.newToken c.settings s.bench).1 (seats j) f
        seat) :
      Sails c s seats (.turn j) f (Function.update seats j seat)

section

variable {c : Compiler π} {s : Session π} {seats seats' : Nat → Seat} {e : Event π} {f : Flights}

theorem Sails.seated (sails : s.Sails c seats e f seats') (aboard : s.Aboard c seats) :
    f.Seated seats' := by
  cases sails with
  | shed sheds => exact aboard.seated.sheds sheds
  | @board input codeKey g _ seat coded sheds passage =>
      have joined := (aboard.seated.sheds sheds).join (j := s.calls.length) codeKey
        (by rw [aboard.free (Nat.le_refl _)]; rfl)
      rw [← Function.update_idem]
      exact joined.passage (Function.update_self ..) passage
  | go passage => exact aboard.seated.passage rfl passage

/-- The seats of earlier calls fit when a call is made. -/
theorem Placed.ask (placed : s.Placed c seats) {command : Command} {seat : Seat}
    (fits : seat.Fits c ⟨command, ((command.work c).run.advance s.bench).1⟩) :
    (step c s (.ask command)).Placed c (Function.update seats s.calls.length seat) where
  fits {j call} there := by
    rcases mem_asked there with ⟨before, there⟩ | ⟨rfl, rfl⟩
    · rw [Function.update_of_ne (Nat.ne_of_lt before)]
      exact placed.fits there
    · rw [Function.update_self]
      exact fits
  free {j} beyond := by
    replace beyond : (s.calls ++ [_]).length ≤ j := beyond
    rw [List.length_append, List.length_singleton] at beyond
    rw [Function.update_of_ne (by omega)]
    exact placed.free (by omega)

theorem Placed.turn (placed : s.Placed c seats) {j : Nat} {call : Call π} {seat : Seat}
    (there : s.calls[j]? = some call)
    (fits : seat.Fits c { call with job := ((Task.unpaused call.job).advance s.bench).1 }) :
    (step c s (.turn j)).Placed c (Function.update seats j seat) where
  fits {i call'} there' := by
    simp only [step, there] at there'
    rcases mem_turned there' with ⟨other, there'⟩ | ⟨rfl, rfl⟩
    · rw [Function.update_of_ne other]
      exact placed.fits there'
    · rw [Function.update_self]
      exact fits
  free {i} beyond := by
    rw [calls_turn] at beyond
    rw [Function.update_of_ne]
    · exact placed.free beyond
    · rintro rfl
      rw [List.getElem?_eq_none beyond] at there
      cases there

theorem Aboard.placed (aboard : s.Aboard c seats) : s.Placed c seats := ⟨aboard.fits, aboard.free⟩

theorem aboard_start (site : Site π) : (start site).Aboard c fun _ => .none where
  fits there := nomatch there
  free _ := rfl
  seated := Flights.seated_empty

/-- A call that is no compile of a code key gets no seat. -/
theorem Placed.errand (placed : s.Placed c seats) {command : Command}
    (keeps : (command.work c).run.Keeps Bench.ShedsFlights)
    (free : ∀ input codeKey, command = .compile input →
      input.address.key c.store.resolver .code ≠ .ok codeKey) :
    ∃ seats', s.Sails c seats (.ask command) (step c s (.ask command)).bench.state.flights seats' ∧
      (step c s (.ask command)).Placed c seats' := by
  obtain ⟨path, rest⟩ := (keeps s.bench).advance
  have unseated : Function.update seats s.calls.length .none = seats := by
    rw [← placed.free (Nat.le_refl _), Function.update_eq_self]
  exact ⟨seats, .shed (Bench.sheds_of_path path), unseated ▸ placed.ask ⟨rest, .inr free⟩⟩

/-- A compile is served at once, or boards a flight. -/
theorem Placed.compile (placed : s.Placed c seats) {input : CompileInput} {codeKey : String}
    (coded : input.address.key c.store.resolver .code = .ok codeKey) :
    ∃ seats', s.Sails c seats (.ask (.compile input))
        (step c s (.ask (.compile input))).bench.state.flights seats' ∧
      (step c s (.ask (.compile input))).Placed c seats' := by
  obtain ⟨d, prepares, ⟨record, hit⟩ | ⟨given, since, boards⟩⟩ :=
    Compiler.advance_compile coded s.bench
  · have unseated : Function.update seats s.calls.length .none = seats := by
      rw [← placed.free (Nat.le_refl _), Function.update_eq_self]
    have after : (step c s (.ask (.compile input))).bench = d := congrArg Prod.snd hit
    refine ⟨seats, after ▸ .shed prepares.flights, unseated ▸ placed.ask ?_⟩
    rw [hit]
    exact ⟨fun _ => trivial, .inl ⟨_, rfl⟩⟩
  · obtain ⟨seat, passage, fits⟩ := queue_passage
      ⟨codeKey, (d.state.flights.join codeKey).1.1, (d.state.flights.join codeKey).1.2⟩
      given since coded (d.withFlights fun f => (f.join codeKey).2)
    have token : (Bench.newToken c.settings (d.withFlights fun f => (f.join codeKey).2)).1 =
      (Bench.newToken c.settings s.bench).1 := prepares.newToken c.settings
    dsimp only at passage fits
    rw [← boards] at passage fits
    rw [token] at passage
    exact ⟨_, .board coded prepares.flights passage, placed.ask fits⟩

/-- A compile without a code key fails at once. -/
theorem Placed.compile_any (placed : s.Placed c seats) {input : CompileInput} :
    ∃ seats', s.Sails c seats (.ask (.compile input))
        (step c s (.ask (.compile input))).bench.state.flights seats' ∧
      (step c s (.ask (.compile input))).Placed c seats' := by
  cases coded : input.address.key c.store.resolver .code with
  | ok codeKey => exact placed.compile coded
  | error e =>
      refine placed.errand ?_ ?_
      · refine Keeps.mapExcept ?_
        rw [compile_unnamed coded]
        exact fun _ => trivial
      · rintro input codeKey ⟨⟩
        rw [coded]
        exact nofun

theorem bench_turn {j : Nat} {call : Call π} (there : s.calls[j]? = some call) :
    (step c s (.turn j)).bench = ((Task.unpaused call.job).advance s.bench).2 := by
  simp only [step, there]

/-- A call without a seat stays without one. -/
theorem Placed.turn_errand (placed : s.Placed c seats) {j : Nat} {call : Call π}
    (there : s.calls[j]? = some call) (now : seats j = .none) :
    ∃ seats', s.Sails c seats (.turn j) (step c s (.turn j)).bench.state.flights seats' ∧
      (step c s (.turn j)).Placed c seats' := by
  have fits := placed.fits there
  rw [now] at fits
  obtain ⟨keeps, still⟩ := fits
  obtain ⟨path, rest⟩ := (keeps.unpaused s.bench).advance
  have unseated : Function.update seats j .none = seats := by
    rw [← now, Function.update_eq_self]
  refine ⟨seats, ?_, unseated ▸ placed.turn there ⟨rest, still.imp_left ?_⟩⟩
  · rw [bench_turn there]
    exact .shed (Bench.sheds_of_path path)
  · rintro ⟨answer, ended⟩
    rw [ended]
    exact ⟨answer, rfl⟩

/-- A call that waits in a flight goes on if it is due. -/
theorem Placed.turn_queued (placed : s.Placed c seats) {j : Nat} {call : Call π} {berth : Berth}
    (there : s.calls[j]? = some call) (now : seats j = .queued berth) :
    ∃ seats', s.Sails c seats (.turn j) (step c s (.turn j)).bench.state.flights seats' ∧
      (step c s (.turn j)).Placed c seats' := by
  have fits := placed.fits there
  rw [now] at fits
  obtain ⟨input, given, since, command, coded, job⟩ := fits
  obtain ⟨seat, passage, fits⟩ := queue_passage berth given since coded s.bench
  have same : Task.unpaused call.job = Compiler.queue berth.number berth.caller
      (Compiler.depart berth.key berth.number
        (c.compileAnew input.address berth.key given since).run) := by
    rw [job]
    rfl
  rw [bench_turn there, same]
  exact ⟨_, .go (now ▸ passage), placed.turn there (same ▸ command ▸ fits)⟩

/-- An attempt that has its flight to itself goes on. -/
theorem Placed.turn_flying (placed : s.Placed c seats) {j : Nat} {call : Call π} {berth : Berth}
    {token : Token} (there : s.calls[j]? = some call) (now : seats j = .flying berth token)
    (holds : (s.bench.state.flights.flight berth.number).holder = some berth.caller) :
    ∃ seats', s.Sails c seats (.turn j) (step c s (.turn j)).bench.state.flights seats' ∧
      (step c s (.turn j)).Placed c seats' := by
  have fits := placed.fits there
  rw [now] at fits
  obtain ⟨input, given, since, work, command, coded, leaves, isOpen, job⟩ := fits
  obtain ⟨seat, passage, fits⟩ := fly_passage (Bench.newToken c.settings s.bench).1 rfl holds
    (.idle (.flying berth token)) coded (leaves.keeps attempt_keeps_flights).unpaused
    (leaves.again s.bench)
  rw [← unpaused_bind _ isOpen, ← job] at passage fits
  rw [bench_turn there]
  exact ⟨_, .go (now ▸ passage), placed.turn there (command ▸ fits)⟩

/-- Every event moves flights and seats together. -/
theorem Aboard.step (lawful : c.store.Lawful) (aboard : s.Aboard c seats) (e : Event π) :
    ∃ seats', s.Sails c seats e (Session.step c s e).bench.state.flights seats' ∧
      (Session.step c s e).Aboard c seats' := by
  have sails : ∃ seats', s.Sails c seats e (Session.step c s e).bench.state.flights seats' ∧
      (Session.step c s e).Placed c seats' := by
    cases e with
    | elsewhere content own environment =>
        exact ⟨seats, .shed (.refl _), aboard.fits, aboard.free⟩
    | ask command =>
        by_cases compiles : ∃ input, command = .compile input
        · obtain ⟨input, rfl⟩ := compiles
          exact aboard.placed.compile_any
        · refine aboard.placed.errand (errand_sheds_flights lawful fun input is =>
            compiles ⟨input, is⟩) ?_
          exact fun input codeKey is => absurd ⟨input, is⟩ compiles
    | turn j =>
        cases there : s.calls[j]? with
        | none =>
            have idle : Session.step c s (.turn j) = s := by simp only [Session.step, there]
            rw [idle]
            exact ⟨seats, .shed (.refl _), aboard.placed⟩
        | some call =>
            cases now : seats j with
            | none => exact aboard.placed.turn_errand there now
            | queued berth => exact aboard.placed.turn_queued there now
            | flying berth token =>
                exact aboard.placed.turn_flying there now (aboard.seated.flying now)
  obtain ⟨seats', sails, fits, free⟩ := sails
  exact ⟨seats', sails, fits, free, sails.seated aboard⟩

end

end Session
end TemplateCache
