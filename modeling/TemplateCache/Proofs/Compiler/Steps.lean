import TemplateCache.Proofs.Compiler.Boarding
import TemplateCache.Proofs.Compiler.Records
import TemplateCache.Proofs.Job.Single
import TemplateCache.Proofs.Store.Atomic

/-!
# A compile step by step

Others may work between any two steps of a compile: after it has registered its content, after it
has taken the epoch, after it has looked into the cache, and between the steps of an attempt.
`Phase` says where a compile stands then, `Stance` which job it has there, and `Paces` what a single
step does.
-/

namespace TemplateCache

open Job

variable {π : Type}

/-! ## Attempts -/

/-- Flights are left alone, and records stay. -/
structure Bench.Retains (b d : Bench π) : Prop where
  flights : d.state.flights = b.state.flights
  records : ∀ {key record}, b.Has key record → d.Has key record

theorem Bench.Retains.refl (b : Bench π) : b.Retains b := ⟨rfl, id⟩

theorem Bench.retains_of_eq {b d : Bench π} (flights : d.state.flights = b.state.flights)
    (registry : d.state.registry = b.state.registry) : b.Retains d :=
  ⟨flights, fun has => has.of_same registry⟩

namespace Compiler

variable {c : Compiler π} {address : Address} {codeKey contentKey : String} {since : Nat}
  {token : Token}

/-- What an attempt returns for a record that it was given is made from the content of the
record. -/
def Renders (c : Compiler π) (given : Option ContentRecord) (r : Except CompileError CodeRecord) :
    Prop := ∀ known record, given = some known → r = .ok record → c.MadeFrom known.content record

section

variable {α : Type} {good : Except CompileError α → Prop}

theorem anytime_step {f : Bench π → α × Bench π}
    (h : ∀ b, b.Retains (f b).2 ∧ good (.ok (f b).1)) :
    (Compiling.step f).run.Anytime Bench.Retains good :=
  anytime_lift h

theorem anytime_gets (f : Bench π → α) (fine : ∀ b, good (.ok (f b))) :
    (Compiling.gets f).run.Anytime Bench.Retains good :=
  anytime_lift fun b => ⟨.refl b, fine b⟩

theorem anytime_modify {good : Except CompileError Unit → Prop} {f : Bench π → Bench π}
    (works : ∀ b : Bench π, b.Retains (f b)) (fine : good (.ok ())) :
    (Compiling.modify f).run.Anytime Bench.Retains good :=
  anytime_lift fun b => ⟨works b, fine⟩

theorem anytime_storing {good : Except StoreError α → Prop} {job : Storing π α}
    (h : job.run.Under (fun _ => True) good) :
    (Compiling.storing job).run.Anytime Bench.Retains fun r => ∃ v, r = .ok v ∧ good v :=
  anytime_lift ((h.anytime_on fun _ _ => Bench.retains_of_eq rfl rfl).mono
    fun fine => ⟨_, rfl, fine⟩)

theorem anytime_pure (v : α) :
    (pure v : Compiling π α).run.Anytime Bench.Retains fun r => r = .ok v := rfl

/-- Of what comes first, only the changes matter. -/
theorem anytime_before {β : Type} {x : Compiling π β} {f : β → Compiling π α}
    (h : x.run.Anytime Bench.Retains fun _ => True)
    (hf : ∀ v, (f v).run.Anytime Bench.Retains good) (failed : ∀ e, good (.error e)) :
    (x >>= f).run.Anytime Bench.Retains good :=
  h.bindExcept (fun v _ => hf v) fun e _ => failed e

/-- Where only the changes matter. -/
theorem anytime_seq {β : Type} {x : Compiling π β} {f : β → Compiling π α}
    (h : x.run.Anytime Bench.Retains fun _ => True)
    (hf : ∀ v, (f v).run.Anytime Bench.Retains fun _ => True) :
    (x >>= f).run.Anytime Bench.Retains fun _ => True :=
  anytime_before h hf fun _ => trivial

/-- An attempt that was given no record may return any. -/
theorem anytime_renders {x : Compiling π CodeRecord}
    (h : x.run.Anytime Bench.Retains fun _ => True) :
    x.run.Anytime Bench.Retains (c.Renders none) :=
  h.mono fun _ _ _ => nofun

end

theorem storeCode_anytime (returns : c.store.Returns) (renderer : Renderer) :
    (c.storeCode address codeKey renderer token).run.Anytime Bench.Retains fun r =>
      ∀ record, r = .ok record → record.renderer = renderer := by
  unfold storeCode
  split
  · refine (anytime_storing (returns address renderer token)).bindExcept ?_ fun _ _ _ => nofun
    rintro r ⟨_, ⟨rfl⟩, fine⟩
    cases r with
    | error e => exact fun _ => nofun
    | ok record =>
        rintro _ ⟨rfl⟩
        exact fine record rfl
  · rintro _ ⟨rfl⟩
    rfl

theorem compileContent_anytime (returns : c.store.Returns) (content : Content) :
    (c.compileContent address codeKey contentKey content since token).run.Anytime Bench.Retains
      fun r => ∀ record, r = .ok record → c.MadeFrom content record := by
  have generates : (c.generate content).run.Anytime Bench.Retains fun r =>
      r = .ok (c.generator.generate content c.settings.generator) :=
    anytime_step fun b => ⟨Bench.retains_of_eq rfl rfl, rfl⟩
  unfold compileContent
  refine generates.bindExcept ?_ fun _ _ _ => nofun
  rintro _ ⟨rfl⟩
  cases made : c.generator.generate content c.settings.generator with
  | error e => exact fun _ => nofun
  | ok renderer =>
      refine (storeCode_anytime returns renderer).bindExcept ?_ fun _ _ _ => nofun
      intro record same
      refine anytime_before (anytime_modify (fun b => Bench.retains_of_eq rfl rfl) trivial) ?_
        fun _ _ => nofun
      rintro - _ ⟨rfl⟩
      unfold MadeFrom
      rw [made, same record rfl]

theorem findCode_anytime :
    (c.findCode address codeKey token).run.Anytime Bench.Retains fun _ => True := by
  unfold findCode storedCode
  refine anytime_seq ?_ fun found => ?_
  · split
    · refine anytime_seq ((anytime_storing under_any).mono fun _ => trivial) fun found => ?_
      split
      · trivial
      · trivial
      · trivial
      · trivial
    · exact anytime_seq (anytime_gets _ fun _ => trivial) fun _ => trivial
  · split
    · trivial
    · trivial
    · refine anytime_step fun b => ⟨?_, trivial⟩
      dsimp only
      split
      · exact Bench.retains_of_eq rfl rfl
      · exact Bench.retains_of_eq rfl rfl

theorem findContent_anytime :
    (c.findContent address codeKey contentKey since token).run.Anytime Bench.Retains
      fun _ => True := by
  unfold findContent
  refine anytime_seq (anytime_gets _ fun _ => trivial) fun registry => ?_
  split
  · trivial
  · refine anytime_seq ?_ fun found => ?_
    · rw [readContent_eq]
      have delivered (found : Option ContentRecord) :
          (c.deliver address contentKey found).run.Anytime Bench.Retains fun _ => True := by
        cases found with
        | some record => trivial
        | none => trivial
      split
      · refine anytime_seq ((anytime_storing under_any).mono fun _ => trivial) fun found => ?_
        split
        · exact delivered _
        · trivial
      · exact anytime_seq (anytime_gets _ fun _ => trivial) fun _ => delivered _
    · refine anytime_seq (anytime_modify (fun b => ?_) trivial) fun _ => trivial
      refine ⟨?_, fun has => has.note⟩
      split
      · rfl
      · rfl

/-- Whatever others do between its steps, an attempt leaves the flights alone and removes no
record, and it renders the content that it was given. -/
theorem compileAnew_anytime (returns : c.store.Returns) (given : Option ContentRecord) :
    (c.compileAnew address codeKey given since).run.Anytime Bench.Retains (c.Renders given) := by
  have places (given : Option ContentRecord) (token : Token) :
      (c.compileRecord address codeKey given since token).run.Anytime Bench.Retains
        (c.Renders given) := by
    unfold compileRecord
    refine anytime_before trivial (fun contentKey => ?_) fun _ _ _ _ => nofun
    dsimp only
    cases given with
    | none =>
        refine anytime_renders (anytime_seq findContent_anytime fun record => ?_)
        exact (compileContent_anytime returns record.content).mono fun _ => trivial
    | some known =>
        refine (anytime_pure known).bindExcept ?_ fun _ _ _ _ _ => nofun
        rintro _ ⟨rfl⟩
        refine (compileContent_anytime returns known.content).mono ?_
        rintro r fine _ record ⟨rfl⟩ same
        exact fine record same
  have draws : c.newToken.run.Anytime Bench.Retains fun _ => True :=
    anytime_step fun b => ⟨Bench.retains_of_eq rfl rfl, trivial⟩
  rw [compileAnew_eq]
  refine anytime_before draws (fun token => ?_) fun _ _ _ _ => nofun
  refine anytime_before (anytime_gets _ fun _ => trivial) (fun cache => ?_) fun _ _ _ _ => nofun
  cases given with
  | none =>
      refine anytime_renders (anytime_seq ?_ fun stored => ?_)
      · split
        · exact findCode_anytime
        · trivial
      · cases stored with
        | some record =>
            exact anytime_seq (anytime_modify (fun b => Bench.retains_of_eq rfl rfl) trivial)
              fun _ => trivial
        | none => exact (places none token).mono fun _ => trivial
  | some known =>
      rw [Option.isNone_some, Bool.and_false, Bool.false_and]
      refine (anytime_pure none).bindExcept ?_ fun _ _ _ _ _ => nofun
      rintro _ ⟨rfl⟩
      exact places (some known) token

/-! ## Where a compile stands -/

variable (c address codeKey)

/-- A caller that has found no cached renderer boards a flight. -/
def enter (given : Option ContentRecord) (since : Nat) :
    Job (Bench π) (Except CompileError Answer) :=
  .act (fun b => b.withFlights fun f => (f.join codeKey).2) fun b =>
    queue (b.state.flights.join codeKey).1.1 (b.state.flights.join codeKey).1.2
      (depart codeKey (b.state.flights.join codeKey).1.1
        (c.compileAnew address codeKey given since).run)

/-- A caller that has taken the epoch looks into the cache. -/
def look (given : Option ContentRecord) (since : Nat) :
    Job (Bench π) (Except CompileError Answer) :=
  .act id fun b =>
    match if c.settings.caching then b.state.cache.get? codeKey else none with
    | some record => .done (.ok (.code record))
    | none => c.enter address codeKey given since

/-- A caller that has registered what it brings takes the epoch. -/
def date (given : Option ContentRecord) : Job (Bench π) (Except CompileError Answer) :=
  .act id fun b => c.look address codeKey given b.state.cache.epoch

variable {c address codeKey}

theorem date_job (given : Option ContentRecord) :
    (Answer.code <$> (do
      let since ← Compiling.gets (·.state.cache.epoch)
      let cache ← Compiling.gets (·.state.cache)
      match if c.settings.caching then cache.get? codeKey else none with
      | some record => return record
      | none => share codeKey (c.compileAnew address codeKey given since) :
        Compiling π CodeRecord)).run = c.date address codeKey given := by
  refine congrArg (Job.act id) (funext fun b => congrArg (Job.act id) (funext fun b' => ?_))
  show (Answer.code <$> (match if c.settings.caching then b'.state.cache.get? codeKey else none with
    | some record => return record
    | none => share codeKey (c.compileAnew address codeKey given b.state.cache.epoch) :
      Compiling π CodeRecord)).run = _
  cases (if c.settings.caching then b'.state.cache.get? codeKey else none) with
  | some record => rfl
  | none => exact share_job _

end Compiler

/-- Where a compile stands between two of its steps. -/
inductive Phase where
  | asked
  | registered (given : Option ContentRecord)
  | dated (given : Option ContentRecord) (since : Nat)
  | missed (given : Option ContentRecord) (since : Nat)
  | waiting (t : Ticket)
  | called (t : Ticket)
  | working (t : Ticket)
  | leaving (t : Ticket) (result : Except CompileError CodeRecord)
  | finished (result : Except CompileError CodeRecord)

/-- The seat of a caller that has boarded and has not left. -/
def Phase.seat? : Phase → Option Ticket
  | waiting t => some t
  | called t => some t
  | working t => some t
  | leaving t _ => some t
  | _ => none

/-- A compile has registered what it brings, and has neither found a cached renderer nor boarded. -/
def Phase.Opens : Phase → Prop
  | registered _ | dated _ _ | missed _ _ => True
  | _ => False

section

open Compiler

variable (c : Compiler π) (input : CompileInput) (codeKey : String)

/-- The job that a compile has in a phase. -/
inductive Stance : Phase → Job (Bench π) (Except CompileError Answer) → Prop where
  | asked {content : Content} {contentKey : String} (full : input.content = some content)
      (keyed : input.address.key c.store.resolver .content = .ok contentKey) :
      Stance .asked (.act
        (fun b => (Bench.register c.store.resolver (input.record contentKey content) b).2)
        fun b => c.date input.address codeKey
          (some (Bench.register c.store.resolver (input.record contentKey content) b).1))
  | registered {given : Option ContentRecord} :
      Stance (.registered given) (c.date input.address codeKey given)
  | dated {given : Option ContentRecord} {since : Nat} :
      Stance (.dated given since) (c.look input.address codeKey given since)
  | missed {given : Option ContentRecord} {since : Nat} :
      Stance (.missed given since) (c.enter input.address codeKey given since)
  | waiting {t : Ticket} : Stance (.waiting t) (queue t.number t.caller
      (depart codeKey t.number (c.compileAnew input.address codeKey t.given t.since).run))
  | called {t : Ticket} : Stance (.called t)
      (depart codeKey t.number (c.compileAnew input.address codeKey t.given t.since).run)
  | working {t : Ticket} {work : Job (Bench π) (Except CompileError CodeRecord)}
      (attempts : work.Anytime Bench.Retains (c.Renders t.given)) :
      Stance (.working t) (work.bind (arrive codeKey t.number))
  | leaving {t : Ticket} {result : Except CompileError CodeRecord} :
      Stance (.leaving t result)
        (.act (fun b => b.withFlights (·.leave codeKey t.number)) fun _ =>
          .done (result.map .code))
  | finished {result : Except CompileError CodeRecord} :
      Stance (.finished result) (.done (result.map .code))

/-- What a single step of a compile does. -/
inductive Paces : Phase → Bench π → Phase → Bench π → Prop where
  | register {b : Bench π} {content : Content} {contentKey : String}
      (full : input.content = some content)
      (keyed : input.address.key c.store.resolver .content = .ok contentKey) :
      Paces .asked b
        (.registered
          (some (Bench.register c.store.resolver (input.record contentKey content) b).1))
        (Bench.register c.store.resolver (input.record contentKey content) b).2
  | date {b : Bench π} {given : Option ContentRecord} :
      Paces (.registered given) b (.dated given b.state.cache.epoch) b
  | hit {b : Bench π} {given : Option ContentRecord} {since : Nat} {record : CodeRecord}
      (caching : c.settings.caching = true) (cached : b.state.cache.get? codeKey = some record) :
      Paces (.dated given since) b (.finished (.ok record)) b
  | miss {b : Bench π} {given : Option ContentRecord} {since : Nat}
      (missed : c.settings.caching = true → b.state.cache.get? codeKey = none) :
      Paces (.dated given since) b (.missed given since) b
  | board {b : Bench π} {given : Option ContentRecord} {since : Nat} :
      Paces (.missed given since) b
        (.waiting ⟨(b.state.flights.join codeKey).1.1, (b.state.flights.join codeKey).1.2, since,
          given⟩)
        (b.withFlights fun f => (f.join codeKey).2)
  | stay {b : Bench π} {t : Ticket} : Paces (.waiting t) b (.waiting t) b
  | call {b : Bench π} {t : Ticket} (due : b.state.flights.isDue t.number t.caller = true) :
      Paces (.waiting t) b (.called t) b
  | share {b : Bench π} {t : Ticket} {record : CodeRecord}
      (landed : (b.state.flights.flight t.number).result = some record) :
      Paces (.called t) b (.leaving t (.ok record)) b
  | begin {b : Bench π} {t : Ticket} (flying : (b.state.flights.flight t.number).result = none) :
      Paces (.called t) b (.working t) b
  | work {b d : Bench π} {t : Ticket} (retains : b.Retains d) :
      Paces (.working t) b (.working t) d
  | land {b : Bench π} {t : Ticket} {record : CodeRecord}
      (renders : c.Renders t.given (.ok record)) :
      Paces (.working t) b (.leaving t (.ok record)) (b.withFlights (·.land t.number record))
  | handOver {b : Bench π} {t : Ticket} {e : CompileError} :
      Paces (.working t) b (.leaving t (.error e)) (b.withFlights (·.handOver t.number))
  | leave {b : Bench π} {t : Ticket} {result : Except CompileError CodeRecord} :
      Paces (.leaving t result) b (.finished result) (b.withFlights (·.leave codeKey t.number))
  | rest {b : Bench π} {result : Except CompileError CodeRecord} :
      Paces (.finished result) b (.finished result) b

end

section

open Compiler

variable {c : Compiler π} {input : CompileInput} {codeKey : String} {a : Phase}
  {job : Job (Bench π) (Except CompileError Answer)}

/-- A compile begins with the registration of what it brings, if it brings anything. -/
theorem stance_compile (coded : input.address.key c.store.resolver .code = .ok codeKey) :
    Stance c input codeKey (if input.content.isNone then .registered none else .asked)
      ((Command.compile input).work c).run := by
  obtain ⟨contentKey, keyed⟩ : ∃ key, input.address.key c.store.resolver .content = .ok key :=
    Resolver.resolve_ok (Resolver.not_blank coded)
  rcases input with ⟨address, content⟩
  dsimp only at coded keyed
  cases content with
  | none =>
      have begins : ((Command.compile ⟨address, none⟩).work c).run =
          c.date address codeKey none := by
        rw [← date_job]
        dsimp only [Command.work]
        unfold compile registerGiven
        dsimp only
        rw [coded]
        rfl
      rw [begins]
      exact .registered
  | some content =>
      have begins : ((Command.compile ⟨address, some content⟩).work c).run = .act
          (fun b => (Bench.register c.store.resolver
            (CompileInput.record ⟨address, some content⟩ contentKey content) b).2)
          fun b => c.date address codeKey (some (Bench.register c.store.resolver
            (CompileInput.record ⟨address, some content⟩ contentKey content) b).1) := by
        simp only [← date_job]
        dsimp only [Command.work]
        unfold compile registerGiven
        dsimp only
        rw [coded, keyed]
        rfl
      rw [begins]
      exact .asked rfl keyed

/-- A compile that has ended is finished. -/
theorem Stance.finished_of_done {answer : Except CompileError Answer}
    (stance : Stance c input codeKey a job) (ended : job = .done answer) :
    ∃ result, a = .finished result ∧ answer = result.map .code := by
  cases stance with
  | finished =>
      cases ended
      exact ⟨_, rfl, rfl⟩
  | @working t work attempts =>
      cases work with
      | done r => cases ended
      | act update next => cases ended
      | wait event next => cases ended
      | pause next => cases ended
  | _ => cases ended

theorem Stance.isOpen (stance : Stance c input codeKey a job) (opens : a.Opens) : job.Open := by
  intro answer ended
  obtain ⟨result, rfl, -⟩ := stance.finished_of_done ended
  exact opens

theorem look_once (given : Option ContentRecord) (since : Nat) (b : Bench π) :
    ∃ a', Paces c input codeKey (.dated given since) b a' b ∧
      ∃ rest, (c.look input.address codeKey given since).once b = (rest, b) ∧
        Stance c input codeKey a' rest := by
  cases found : (if c.settings.caching then b.state.cache.get? codeKey else none) with
  | some record =>
      have ends : (c.look input.address codeKey given since).once b =
          (.done (.ok (.code record)), b) := by
        unfold look
        simp only [Job.once, found, id]
      split at found
      · rename_i caching
        exact ⟨_, .hit caching found, _, ends, .finished⟩
      · cases found
  | none =>
      have goes : (c.look input.address codeKey given since).once b =
          (c.enter input.address codeKey given since, b) := by
        unfold look
        simp only [Job.once, found, id]
      refine ⟨_, .miss fun caching => ?_, _, goes, .missed⟩
      rw [if_pos caching] at found
      exact found

theorem depart_once (t : Ticket) (returns : c.store.Returns) (b : Bench π) :
    ∃ a', Paces c input codeKey (.called t) b a' b ∧
      ∃ rest, (depart codeKey t.number
          (c.compileAnew input.address codeKey t.given t.since).run).once b = (rest, b) ∧
        Stance c input codeKey a' rest := by
  cases landed : (b.state.flights.flight t.number).result with
  | some record =>
      refine ⟨_, .share landed, _, ?_, .leaving⟩
      unfold depart
      simp only [Job.once, landed, id]
      rfl
  | none =>
      have attempts : (c.compileAnew input.address codeKey t.given t.since).run.Anytime
          Bench.Retains (c.Renders t.given) := compileAnew_anytime returns t.given
      refine ⟨_, .begin landed, _, ?_, .working attempts⟩
      unfold depart
      simp only [Job.once, landed, id]

/-- A single step leads from one phase to another, whatever others did before it. -/
theorem Stance.once (returns : c.store.Returns) (stance : Stance c input codeKey a job)
    (b : Bench π) : ∃ a', Paces c input codeKey a b a' (job.once b).2 ∧
      Stance c input codeKey a' (job.once b).1 := by
  cases stance with
  | asked full keyed => exact ⟨_, .register full keyed, .registered⟩
  | registered => exact ⟨_, .date, .dated⟩
  | @dated given since =>
      obtain ⟨a', paces, rest, goes, stance⟩ := look_once given since b
      rw [goes]
      exact ⟨a', paces, stance⟩
  | missed => exact ⟨_, .board, .waiting⟩
  | @waiting t =>
      by_cases due : b.state.flights.isDue t.number t.caller = true
      · have goes : (queue t.number t.caller (depart codeKey t.number
            (c.compileAnew input.address codeKey t.given t.since).run)).once b =
            (depart codeKey t.number
              (c.compileAnew input.address codeKey t.given t.since).run, b) := if_pos due
        rw [goes]
        exact ⟨_, .call due, .called⟩
      · have stays : (queue t.number t.caller (depart codeKey t.number
            (c.compileAnew input.address codeKey t.given t.since).run)).once b =
            (queue t.number t.caller (depart codeKey t.number
              (c.compileAnew input.address codeKey t.given t.since).run), b) := if_neg due
        rw [stays]
        exact ⟨_, .stay, .waiting⟩
  | @called t =>
      obtain ⟨a', paces, rest, goes, stance⟩ := depart_once t returns b
      rw [goes]
      exact ⟨a', paces, stance⟩
  | @working t work attempts =>
      by_cases ended : ∃ r, work = .done r
      · obtain ⟨r, rfl⟩ := ended
        cases r with
        | ok record => exact ⟨_, .land attempts, .leaving⟩
        | error e => exact ⟨_, .handOver, .leaving⟩
      · have isOpen : work.Open := fun r same => ended ⟨r, same⟩
        obtain ⟨retains, attempts⟩ := attempts.once Bench.Retains.refl b
        rw [once_bind (arrive codeKey t.number) isOpen b]
        exact ⟨_, .work retains, .working attempts⟩
  | leaving => exact ⟨_, .leave, .finished⟩
  | finished => exact ⟨_, .rest, .finished⟩

end
end TemplateCache
