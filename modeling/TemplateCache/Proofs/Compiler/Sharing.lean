import TemplateCache.Proofs.Compiler.Boarding
import TemplateCache.Proofs.Store.Lawful

/-!
# One attempt at a time

Compiles of one code key that are under way at the same time share a flight, so one of them attempts
to compile and the others wait for it. A failed attempt takes the key away from its flight while the
other callers go on there: whoever comes then boards a flight of its own.
-/

namespace TemplateCache

variable {π : Type}

namespace Flights

/-- A flight of a key goes on. -/
def Flies (f : Flights) (key : String) (number : Nat) : Prop :=
  (f.flight number).key = key ∧ (f.flight number).holder.isSome = true

instance {f : Flights} {key : String} {number : Nat} : Decidable (f.Flies key number) :=
  inferInstanceAs (Decidable (_ ∧ _))

/-- A key leads to all of its flights that go on. -/
def Settled (f : Flights) (key : String) : Prop :=
  ∀ n < f.all.length, f.Flies key n → f.current.get? key = some n

/-- As long as a flight goes on with the same caller, the key that leads to it stays with it. -/
def Attached (f f' : Flights) (key : String) : Prop :=
  ∀ n ∈ f.current.get? key, (f'.flight n).holder = (f.flight n).holder →
    f'.current.get? key = some n

instance {f : Flights} {key : String} : Decidable (f.Settled key) :=
  inferInstanceAs (Decidable (∀ n < f.all.length, f.Flies key n → f.current.get? key = some n))

instance {f f' : Flights} {key : String} : Decidable (f.Attached f' key) :=
  inferInstanceAs (Decidable (∀ n ∈ f.current.get? key,
    (f'.flight n).holder = (f.flight n).holder → f'.current.get? key = some n))

/-- No two flights of a key go on. -/
def Lone (f : Flights) (key : String) : Prop :=
  ∀ n m, f.Flies key n → f.Flies key m → n = m

variable {f f' : Flights} {key k : String} {n : Nat} {seat seat' : Seat} {b : Berth}
  {fresh : Token} {seats : Nat → Seat}

theorem Flies.there (flies : f.Flies key n) : n < f.all.length := by
  by_contra beyond
  have held := flies.2
  rw [flight_beyond (Nat.le_of_not_lt beyond)] at held
  exact nomatch held

theorem Sheds.flies (sheds : f.Sheds f') (flies : f'.Flies key n) : f.Flies key n := by
  unfold Flies at flies
  rwa [sheds.flight] at flies

namespace Passage

/-- A passage lets no key lead to a flight. -/
theorem current (passage : f.Passage fresh seat f' seat')
    (leads : f'.current.get? key = some n) : f.current.get? key = some n := by
  cases passage with
  | idle => exact leads
  | share landed => exact current_leave leads
  | takeOff due => exact leads
  | @land _ b sits holds record =>
      have before : (f.land b.number record).current.get? key = some n := current_leave leads
      exact before
  | @handOver _ b sits holds =>
      have before : (f.handOver b.number).current.get? key = some n := current_leave leads
      exact before

/-- A passage concerns one flight only. -/
theorem flight_other (passage : f.Passage fresh seat f' seat') (sits : seat.berth? = some b)
    (other : n ≠ b.number) : f'.flight n = f.flight n := by
  cases passage with
  | idle => rfl
  | share landed => exact flight_leave
  | takeOff due => rfl
  | land sits' holds record =>
      cases sits.symm.trans sits'
      exact flight_leave.trans ((flight_update _).trans (if_neg fun h => other h.1))
  | handOver sits' holds =>
      cases sits.symm.trans sits'
      exact flight_leave.trans ((flight_update _).trans (if_neg fun h => other h.1))

/-- A passage lets no flight go on that did not. -/
theorem flies (passage : f.Passage fresh seat f' seat') (flies : f'.Flies key n) :
    f.Flies key n := by
  cases passage with
  | idle => exact flies
  | share landed => exact sheds_leave.flies flies
  | takeOff due => exact flies
  | land sits holds record =>
      replace flies := sheds_leave.flies flies
      unfold Flies Flights.land at flies
      rw [flight_update] at flies
      split at flies
      · exact nomatch flies.2
      · exact flies
  | handOver sits holds =>
      replace flies := sheds_leave.flies flies
      unfold Flies Flights.handOver at flies
      rw [flight_update] at flies
      split at flies
      · rename_i own
        refine ⟨flies.1, ?_⟩
        rw [own.1, holds]
        rfl
      · exact flies

end Passage

theorem flies_join (flies : (f.join key).2.Flies k n) : n = (f.join key).1.1 ∨ f.Flies k n := by
  by_cases own : n = (f.join key).1.1
  · exact .inl own
  · unfold Flies at flies
    rw [flight_join_other own] at flies
    exact .inr flies

/-- A call that arrives where its key leads to all flights of it that go on boards one of these, or
the only one. -/
theorem Lone.board {g : Flights} (lone : f.Lone k) (keyed : f.Keyed) (sheds : f.Sheds g)
    (passage : (g.join key).2.Passage fresh
      (.queued ⟨key, (g.join key).1.1, (g.join key).1.2⟩) f' seat')
    (settled : key = k → f.Settled k) (attached : f.Attached f' k) : f'.Lone k := by
  have keyed' : g.Keyed := by
    intro k n leads
    rw [sheds.all, sheds.flight]
    exact keyed k n (sheds.current leads)
  have boards {n : Nat} (flies : f'.Flies k n) : n = (g.join key).1.1 ∨ f.Flies k n :=
    (flies_join (passage.flies flies)).imp_right sheds.flies
  by_cases own : key = k
  · subst own
    -- A flight that goes on elsewhere would have lost its key in this event.
    have only {n : Nat} (flies : f'.Flies key n) : n = (g.join key).1.1 := by
      by_contra other
      have before := (boards flies).resolve_left other
      have leads := settled rfl n before.there before
      have stays : (f'.flight n).holder = (f.flight n).holder := by
        rw [passage.flight_other rfl other, flight_join_other other, sheds.flight]
      have leads' := passage.current (attached n leads stays)
      rw [current_join, if_pos rfl] at leads'
      exact other (Option.some.inj leads').symm
    exact fun n m flies flies' => (only flies).trans (only flies').symm
  · have before {n : Nat} (flies : f'.Flies k n) : f.Flies k n := by
      refine (boards flies).resolve_left fun same => own ?_
      have seat : ((g.join key).2.flight (g.join key).1.1).key = key := keyed'.seat.2
      rw [← same] at seat
      exact seat.symm.trans (passage.flies flies).1
    exact fun n m flies flies' => lone n m (before flies) (before flies')

end Flights

/-- A call that waits for its turn in a flight, or for its result. -/
def Call.Queues (call : Call π) : Prop :=
  ∃ number caller next, call.job = Compiler.queue number caller next

namespace Session

/-- A call compiles a code key and has not been answered yet. -/
def Pends (c : Compiler π) (key : String) (s : Session π) (j : Nat) : Prop :=
  ∃ call input, s.calls[j]? = some call ∧ call.command = .compile input ∧
    input.address.key c.store.resolver .code = .ok key ∧ call.answer? = none

/-- It has begun an attempt, which is under way. -/
def Attempts (c : Compiler π) (key : String) (s : Session π) (j : Nat) : Prop :=
  s.Pends c key j ∧ ∀ call, s.calls[j]? = some call → ¬call.Queues

/-- The key is not invalidated while a flight of it goes on. -/
def Undetached (c : Compiler π) (key : String) (s : Session π) (e : Event π) : Prop :=
  s.bench.state.flights.Attached (step c s e).bench.state.flights key

instance {c : Compiler π} {key : String} {s : Session π} {e : Event π} :
    Decidable (Undetached c key s e) :=
  inferInstanceAs (Decidable (s.bench.state.flights.Attached _ key))

/-- Besides, no compile of the key arrives while the callers of a failed attempt go on in a flight
that the key does not lead to any more. -/
def Orderly (c : Compiler π) (key : String) (s : Session π) (e : Event π) : Prop :=
  s.Undetached c key e ∧ ∀ input, e = .ask (.compile input) →
    input.address.key c.store.resolver .code = .ok key → s.bench.state.flights.Settled key

variable {c : Compiler π} {s : Session π} {seats seats' : Nat → Seat} {e : Event π} {key : String}
  {i j : Nat}

theorem Sails.lone {f : Flights} (sails : s.Sails c seats e f seats')
    (aboard : s.Aboard c seats) (lone : s.bench.state.flights.Lone key)
    (attached : s.bench.state.flights.Attached f key)
    (settled : ∀ input, e = .ask (.compile input) →
      input.address.key c.store.resolver .code = .ok key → s.bench.state.flights.Settled key) :
    f.Lone key := by
  cases sails with
  | shed sheds => exact fun n m flies flies' => lone n m (sheds.flies flies) (sheds.flies flies')
  | @board input codeKey g _ seat coded sheds passage =>
      refine lone.board aboard.seated.keyed sheds passage ?_ attached
      rintro rfl
      exact settled input rfl coded
  | go passage =>
      exact fun n m flies flies' => lone n m (passage.flies flies) (passage.flies flies')

theorem Aboard.run (lawful : c.store.Lawful) (aboard : s.Aboard c seats)
    (events : List (Event π)) : ∃ seats', (Session.run c s events).Aboard c seats' := by
  induction events generalizing s seats with
  | nil => exact ⟨seats, aboard⟩
  | cons e rest ih =>
      obtain ⟨seats', -, aboard'⟩ := aboard.step lawful e
      exact ih aboard'

theorem Aboard.run_lone (lawful : c.store.Lawful) (aboard : s.Aboard c seats)
    (lone : s.bench.state.flights.Lone key) {events : List (Event π)}
    (orderly : Along c (Orderly c key) s events) :
    ∃ seats', (Session.run c s events).Aboard c seats' ∧
      (Session.run c s events).bench.state.flights.Lone key := by
  induction events generalizing s seats with
  | nil => exact ⟨seats, aboard, lone⟩
  | cons e rest ih =>
      obtain ⟨now, later⟩ := orderly
      obtain ⟨seats', sails, aboard'⟩ := aboard.step lawful e
      exact ih aboard' (sails.lone aboard lone now.1 now.2) later

/-- A pending compile has a berth in a flight of its key. -/
theorem Aboard.berth (aboard : s.Aboard c seats) (pends : s.Pends c key j) :
    ∃ b, (seats j).berth? = some b ∧ b.key = key := by
  obtain ⟨call, input, there, command, coded, pending⟩ := pends
  have fits := aboard.fits there
  cases now : seats j with
  | none =>
      rw [now] at fits
      rcases fits.2 with ⟨answer, ended⟩ | other
      · unfold Call.answer? at pending
        rw [ended] at pending
        exact nomatch pending
      · exact absurd coded (other input key command)
  | queued berth =>
      rw [now] at fits
      obtain ⟨input', given, since, command', coded', -⟩ := fits
      cases command.symm.trans command'
      exact ⟨berth, rfl, Except.ok.inj (coded'.symm.trans coded)⟩
  | flying berth token =>
      rw [now] at fits
      obtain ⟨input', given, since, work, command', coded', -⟩ := fits
      cases command.symm.trans command'
      exact ⟨berth, rfl, Except.ok.inj (coded'.symm.trans coded)⟩

theorem pending_of_open {call : Call π} (isOpen : call.job.Open) : call.answer? = none := by
  rcases call with ⟨command, job⟩
  cases job with
  | done answer => exact absurd rfl (isOpen answer)
  | act update next => rfl
  | wait event next => rfl
  | pause next => rfl

/-- Whoever has a berth is a pending compile of its key. -/
theorem Aboard.pends (aboard : s.Aboard c seats) {b : Berth} (sits : (seats j).berth? = some b) :
    s.Pends c b.key j := by
  have there : j < s.calls.length := by
    by_contra beyond
    rw [aboard.free (Nat.le_of_not_lt beyond)] at sits
    exact nomatch sits
  obtain ⟨call, there⟩ : ∃ call, s.calls[j]? = some call := ⟨_, List.getElem?_eq_getElem there⟩
  have fits := aboard.fits there
  cases now : seats j with
  | none =>
      rw [now] at sits
      exact nomatch sits
  | queued berth =>
      rw [now] at fits sits
      cases sits
      obtain ⟨input, given, since, command, coded, job⟩ := fits
      refine ⟨call, input, there, command, coded, pending_of_open ?_⟩
      rw [job]
      exact fun _ => nofun
  | flying berth token =>
      rw [now] at fits sits
      cases sits
      obtain ⟨input, given, since, work, command, coded, -, isOpen, job⟩ := fits
      refine ⟨call, input, there, command, coded, pending_of_open ?_⟩
      rw [job]
      exact Job.open_bind _ isOpen

/-- Where no compile of a key is pending, no flight of it goes on. -/
theorem Aboard.lone_of_free (aboard : s.Aboard c seats) (free : ∀ j, ¬s.Pends c key j) :
    s.bench.state.flights.Lone key := by
  intro n m flies
  obtain ⟨caller, holds⟩ := Option.isSome_iff_exists.1 flies.2
  have rides : caller ∈ (s.bench.state.flights.flight n).riders := by
    unfold Flight.riders
    rw [holds]
    exact List.mem_cons_self
  obtain ⟨j, b, sits, rfl, -⟩ := aboard.seated.riders rides
  have own := (aboard.seated.berth sits).2.1
  rw [flies.1] at own
  subst own
  exact absurd (aboard.pends sits) (free j)

theorem Aboard.flies (aboard : s.Aboard c seats) {b : Berth} {token : Token}
    (now : seats j = .flying b token) : s.bench.state.flights.Flies b.key b.number := by
  refine ⟨(aboard.seated.berth (j := j) (by rw [now]; rfl)).2.1, ?_⟩
  rw [aboard.seated.flying now]
  rfl

/-- An attempt has a flight to itself. -/
theorem Aboard.attempts (aboard : s.Aboard c seats) (attempts : s.Attempts c key j) :
    ∃ b token, seats j = .flying b token ∧ b.key = key := by
  obtain ⟨pends, busy⟩ := attempts
  obtain ⟨b, sits, own⟩ := aboard.berth pends
  cases now : seats j with
  | none =>
      rw [now] at sits
      exact nomatch sits
  | queued berth =>
      obtain ⟨call, input, there, -⟩ := pends
      have fits := aboard.fits there
      rw [now] at fits
      obtain ⟨input', given, since, -, -, job⟩ := fits
      exact absurd ⟨_, _, _, job⟩ (busy call there)
  | flying berth token =>
      rw [now] at sits
      cases sits
      exact ⟨b, token, rfl, own⟩

/-- Only one attempt is in a flight. -/
theorem Aboard.flying_unique (aboard : s.Aboard c seats) {b b' : Berth} {token token' : Token}
    (now : seats i = .flying b token) (now' : seats j = .flying b' token')
    (same : b.number = b'.number) : i = j := by
  have holds := aboard.seated.flying now
  rw [same, aboard.seated.flying now'] at holds
  have sits : (seats i).berth? = some b := by
    rw [now]
    rfl
  have sits' : (seats j).berth? = some b' := by
    rw [now']
    rfl
  exact aboard.seated.apart sits sits' (Option.some.inj holds).symm

section

variable {call : Call π} {number caller : Nat} {k : String}
  {work : Job (Bench π) (Except CompileError CodeRecord)}

/-- A caller that is not due does nothing in its turn. -/
theorem turn_early {next : Job (Bench π) (Except CompileError Answer)}
    (there : s.calls[i]? = some call) (job : call.job = Compiler.queue number caller next)
    (early : s.bench.state.flights.isDue number caller = false) :
    step c s (.turn i) = s := by
  have stays : (Task.unpaused call.job).advance s.bench = (call.job, s.bench) := by
    rw [job]
    exact if_neg (Bool.eq_false_iff.1 early)
  obtain ⟨before, rfl⟩ := List.getElem?_eq_some_iff.1 there
  simp only [step, there, stays]
  rw [List.set_getElem_self]

/-- A caller whose flight has landed takes the result, and does nothing else. -/
theorem turn_landed {record : CodeRecord} (there : s.calls[i]? = some call)
    (job : call.job = Compiler.queue number caller (Compiler.depart k number work))
    (landed : (s.bench.state.flights.flight number).result = some record) :
    (step c s (.turn i)).renderer? i = some record ∧
      (step c s (.turn i)).bench.site = s.bench.site := by
  have due : s.bench.state.flights.isDue number caller = true := by
    unfold Flights.isDue
    dsimp only
    rw [landed]
    rfl
  have leaves : (Compiler.depart k number work).advance s.bench =
      (.done (.ok (.code record)), s.bench.withFlights (·.leave k number)) := by
    simp only [Compiler.depart, Job.advance, id, landed]
  have takes : (Task.unpaused call.job).advance s.bench =
      (.done (.ok (.code record)), s.bench.withFlights (·.leave k number)) := by
    rw [job]
    exact (if_pos due).trans leaves
  obtain ⟨before, -⟩ := List.getElem?_eq_some_iff.1 there
  simp only [renderer?, answer?, step, there, takes]
  rw [List.getElem?_set_self before]
  exact ⟨rfl, rfl⟩

/-- What an attempt returns is the result of its flight. -/
theorem Aboard.turn_lands (aboard : s.Aboard c seats) {b : Berth} {token : Token}
    (now : seats j = .flying b token) {record : CodeRecord}
    (returned : (Session.step c s (.turn j)).renderer? j = some record) :
    ((Session.step c s (.turn j)).bench.state.flights.flight b.number).result = some record ∧
      ∀ i, i ≠ j → (Session.step c s (.turn j)).calls[i]? = s.calls[i]? := by
  have pends := aboard.pends (j := j) (b := b) (by rw [now]; rfl)
  obtain ⟨call, _, there, -⟩ := pends
  have fits := aboard.fits there
  rw [now] at fits
  obtain ⟨input, given, since, work, -, coded, leaves, isOpen, job⟩ := fits
  have goes : Task.unpaused call.job =
      (Task.unpaused work).bind (Compiler.arrive b.key b.number) := by
    rw [job, Job.unpaused_bind _ isOpen]
  obtain ⟨before, -⟩ := List.getElem?_eq_some_iff.1 there
  rcases fly b (leaves.keeps attempt_keeps_flights).unpaused s.bench with
    ⟨r, d, same, -, ends⟩ | ⟨rest, d, same, -, rests, stops⟩
  · rw [← goes] at ends
    simp only [renderer?, answer?, Session.step, there, ends] at returned ⊢
    rw [List.getElem?_set_self before] at returned
    cases r with
    | error e => cases returned
    | ok found =>
        cases returned
        refine ⟨?_, fun i other => List.getElem?_set_ne other.symm⟩
        show (Flights.flight ((d.state.flights.land b.number record).leave b.key b.number)
          b.number).result = some record
        rw [Flights.flight_leave, same]
        exact Flights.result_land_own _ (aboard.seated.berth (j := j) (by rw [now]; rfl)).1
  · rw [← goes] at stops
    simp only [renderer?, answer?, Session.step, there, stops] at returned
    rw [List.getElem?_set_self before] at returned
    have pending : Call.answer? ⟨call.command, rest.bind (Compiler.arrive b.key b.number)⟩ = none :=
      pending_of_open (Job.open_bind _ rests)
    simp only [Option.bind_some, pending] at returned
    cases returned

end

/-- Among the compiles of a key there is one attempt at most. The others wait for it and take what
it returns, unless their flight has landed already and they need not wait. -/
theorem one_attempt_at_a_time (lawful : c.store.Lawful) (reached : c.Reaches s)
    (free : ∀ j, ¬s.Pends c key j) {events : List (Event π)}
    (orderly : Along c (Orderly c key) s events) :
    let u := run c s events
    (∀ i j, u.Attempts c key i → u.Attempts c key j → i = j) ∧
      ∀ i j, u.Attempts c key j → u.Pends c key i → i ≠ j →
        (step c u (.turn i) = u ∧ ∀ record, (step c u (.turn j)).renderer? j = some record →
            (run c u [.turn j, .turn i]).renderer? i = some record) ∨
          ∃ record, (step c u (.turn i)).renderer? i = some record ∧
            (step c u (.turn i)).bench.site = u.bench.site := by
  intro u
  obtain ⟨site, earlier, -, rfl⟩ := reached
  obtain ⟨_, start⟩ := (aboard_start site).run lawful earlier
  obtain ⟨seats, aboard, lone⟩ := start.run_lone lawful (start.lone_of_free free) orderly
  have alone {i j : Nat} {b b' : Berth} {token token' : Token} (now : seats i = .flying b token)
      (now' : seats j = .flying b' token') (own : b.key = key) (own' : b'.key = key) : i = j :=
    aboard.flying_unique now now' (lone _ _ (own ▸ aboard.flies now) (own' ▸ aboard.flies now'))
  refine ⟨fun i j attempts attempts' => ?_, fun i j attempts pends other => ?_⟩
  · obtain ⟨b, token, now, own⟩ := aboard.attempts attempts
    obtain ⟨b', token', now', own'⟩ := aboard.attempts attempts'
    exact alone now now' own own'
  obtain ⟨b, token, now, own⟩ := aboard.attempts attempts
  obtain ⟨b', sits, own'⟩ := aboard.berth pends
  obtain ⟨call, -, there, -⟩ := pends
  have fits := aboard.fits there
  cases waits : seats i with
  | none =>
      rw [waits] at sits
      exact nomatch sits
  | flying berth token' =>
      rw [waits] at sits
      cases sits
      exact absurd (alone waits now own' own) other
  | queued berth =>
      rw [waits] at fits
      obtain rfl : berth = b' := by
        rw [waits] at sits
        exact Option.some.inj sits
      obtain ⟨input, given, since, -, -, job⟩ := fits
      cases landed : (u.bench.state.flights.flight berth.number).result with
      | some record => exact .inr ⟨record, turn_landed there job landed⟩
      | none =>
          left
          have rides := (aboard.seated.queued waits).resolve_left (by rw [landed]; exact nofun)
          have flies : u.bench.state.flights.Flies key berth.number :=
            ⟨own' ▸ (aboard.seated.berth sits).2.1,
              (aboard.seated.ordered _).held rides⟩
          -- Both sit in the one flight of the key, which belongs to the attempt.
          have same : berth.number = b.number := lone _ _ flies (own ▸ aboard.flies now)
          refine ⟨turn_early there job ?_, fun record returned => ?_⟩
          · have holds := aboard.seated.flying now
            rw [← same] at holds
            have sits' : (seats j).berth? = some b := by
              rw [now]
              rfl
            have apart : b.caller ≠ berth.caller := fun meet =>
              other (aboard.seated.apart sits sits' meet.symm)
            unfold Flights.isDue
            dsimp only
            rw [landed, holds]
            simpa using apart
          · obtain ⟨lands, others⟩ := aboard.turn_lands now returned
            rw [← others i other] at there
            rw [← same] at lands
            exact (turn_landed (c := c) there job lands).1

end Session

/-! ## Samples -/

namespace Sample

open Session

/-- A compile of a name that the shelf does not have. -/
def miss : Event Unit := .ask (.compile ⟨⟨"b", none, none⟩, none⟩)

/-- When a job that waits for the clock goes on. -/
def deadline? {σ α : Type} : Job σ α → Option Nat
  | .wait event _ => event.deadline
  | _ => none

/-- A call that waits for the clock does not wait in a flight. -/
theorem busy_of_deadline {s : Session Unit} {j : Nat}
    (waits : (s.calls[j]?.bind fun call => deadline? call.job).isSome = true) :
    ∀ call, s.calls[j]? = some call → ¬call.Queues := by
  rintro call there ⟨number, caller, next, job⟩
  rw [there, Option.bind_some, job] at waits
  exact nomatch waits

end Sample

open Sample Session

/-- The second compile waits for the first one, and returns what that returns. -/
theorem second_compile_takes_the_result :
    let u := run slow (start shelf) [ask, ask, pass]
    u.Attempts slow "partials/a.html.compiled" 0 ∧ step slow u (.turn 1) = u ∧
      ∃ record, (run slow u [.turn 0, .turn 1]).renderer? 1 = some record := by
  intro u
  have orderly : Along slow (Orderly slow "partials/a.html.compiled") (start shelf)
      [ask, ask, pass] := by
    refine ⟨⟨?_, fun _ _ _ => ?_⟩, ⟨?_, fun _ _ _ => ?_⟩, ⟨?_, nofun⟩, trivial⟩
    all_goals decide
  have attempts : u.Attempts slow "partials/a.html.compiled" 0 :=
    ⟨⟨_, _, rfl, rfl, rfl, rfl⟩, busy_of_deadline (by decide)⟩
  have pends : u.Pends slow "partials/a.html.compiled" 1 := ⟨_, _, rfl, rfl, rfl, rfl⟩
  have shares := one_attempt_at_a_time (Store.delayed_lawful 100) (c := slow)
    ⟨shelf, [], shelf_keyed, rfl⟩ (s := start shelf) (fun j => nofun) orderly
  rcases shares.2 1 0 attempts pends (by decide) with ⟨idle, takes⟩ | ⟨record, served, -⟩
  · have lands : ((step slow u (.turn 0)).renderer? 0).isSome = true := by decide
    obtain ⟨record, lands⟩ := Option.isSome_iff_exists.1 lands
    exact ⟨attempts, idle, record, takes record lands⟩
  · have waits : (step slow u (.turn 1)).renderer? 1 = none := by decide
    exact nomatch served.symm.trans waits

/-- The first attempt of two fails, and the second compile begins an attempt of its own. A third
compile, which comes then, finds no flight: it does not wait but begins an attempt as well. Nothing
was invalidated meanwhile. -/
theorem late_compile_does_not_wait :
    let key := "partials/b.html.compiled"
    let events := [miss, miss, pass, .turn 0, .turn 1, miss]
    Along slow (Undetached slow key) (start shelf) events ∧
      (run slow (start shelf) events).Attempts slow key 1 ∧
      (run slow (start shelf) events).Attempts slow key 2 := by
  refine ⟨⟨?_, ?_, ?_, ?_, ?_, ?_, trivial⟩,
    ⟨⟨_, _, rfl, rfl, rfl, rfl⟩, busy_of_deadline (by decide)⟩,
    ⟨_, _, rfl, rfl, rfl, rfl⟩, busy_of_deadline (by decide)⟩
  all_goals decide

end TemplateCache
