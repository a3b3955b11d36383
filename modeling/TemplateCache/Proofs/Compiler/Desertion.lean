import TemplateCache.Proofs.Compiler.Boarding

/-!
# Calls that are dropped

A client may drop a call where it waits, and then it gets no more turns. If it sits in a flight, it
is taken out of it: when it compiles, it is the turn of the next one. Its key goes on to lead to the
flight, for whoever asks next. `Manned` says that a flight that a key leads to is without a result,
and that a call sits in it which has not come to its end.
-/

namespace TemplateCache

variable {π : Type}

/-! ## Dropping -/

/-- Takes a caller out of a flight. -/
def Flight.without (x : Flight) (caller : Nat) : Flight :=
  if x.holder = some caller then
    { x with holder := x.waiting.head?, waiting := x.waiting.tail }
  else { x with waiting := x.waiting.erase caller }

/-- Takes a caller out of whatever flight it is in. -/
def Flights.without (f : Flights) (caller : Nat) : Flights :=
  { f with all := f.all.map (·.without caller) }

/-- The number that a stretch of a call has drawn, if it boarded a flight. -/
def Flights.drawn (before after : Flights) : Option Nat :=
  if before.callers < after.callers then some before.callers else none

/-- Calls of one compiler some of which are dropped midway. -/
structure Crowd (π : Type) extends Session π where
  /-- The number that each call has drawn as a caller. -/
  callers : List (Option Nat) := []
  /-- The calls that have been dropped. -/
  dropped : List Nat := []

namespace Crowd

inductive Event (π : Type) where
  /-- What happens in any session. A call that has been dropped does not go on. -/
  | usual (event : Session.Event π)
  /-- A call is dropped unless it has come to its end. -/
  | drop (number : Nat)

def start (site : Site π) : Crowd π := { toSession := Session.start site }

/-- A call has been made, and has neither come to its end nor been dropped. -/
def pending (s : Crowd π) (number : Nat) : Bool :=
  (s.calls[number]?).any (·.answer?.isNone) && !s.dropped.contains number

def step (c : Compiler π) (s : Crowd π) : Event π → Crowd π
  | .usual (.ask command) =>
    let next := s.toSession.step c (.ask command)
    let drawn := s.bench.state.flights.drawn next.bench.state.flights
    { s with toSession := next, callers := s.callers ++ [drawn] }
  | .usual (.turn number) =>
    if s.dropped.contains number then s
    else { s with toSession := s.toSession.step c (.turn number) }
  | .usual event => { s with toSession := s.toSession.step c event }
  | .drop number =>
    if s.pending number then
      let bench := match (s.callers[number]?).join with
        | none => s.bench
        | some caller => s.bench.withFlights (·.without caller)
      { s with bench := bench, dropped := number :: s.dropped }
    else s

def run (c : Compiler π) (s : Crowd π) (events : List (Event π)) : Crowd π :=
  events.foldl (step c) s

end Crowd

/-! ## Flights that somebody sits in -/

namespace Flights

variable {f f' : Flights} {seats : Nat → Seat} {key k : String} {n m j : Nat} {b : Berth}
  {seat seat' : Seat} {change : Flight → Flight}

/-- Keys lead to flights as before or nowhere, and nothing else has changed than who is in them. -/
structure Fades (f f' : Flights) : Prop where
  length : f'.all.length = f.all.length
  key : ∀ n, (f'.flight n).key = (f.flight n).key
  result : ∀ n, (f'.flight n).result = (f.flight n).result
  current : ∀ {k n}, f'.current.get? k = some n → f.current.get? k = some n

theorem Sheds.fades (h : f.Sheds f') : f.Fades f' where
  length := by rw [h.all]
  key n := by rw [h.flight]
  result n := by rw [h.flight]
  current := h.current

theorem flight_without (caller : Nat) : (f.without caller).flight n =
    (f.flight n).without caller := by
  unfold without flight
  simp only [List.getD_eq_getElem?_getD, List.getElem?_map]
  cases f.all[n]? with
  | none => rfl
  | some x => rfl

theorem fades_without (caller : Nat) : f.Fades (f.without caller) where
  length := List.length_map _
  key n := by
    rw [flight_without]
    unfold Flight.without
    split
    · rfl
    · rfl
  result n := by
    rw [flight_without]
    unfold Flight.without
    split
    · rfl
    · rfl
  current := id

/-- Keys lead to flights without a result in which calls sit. -/
structure Manned (f : Flights) (seats : Nat → Seat) : Prop where
  keyed : f.Keyed
  berth : ∀ {j b}, (seats j).berth? = some b →
    b.number < f.all.length ∧ (f.flight b.number).key = b.key
  empty : ∀ {k n}, f.current.get? k = some n → (f.flight n).result = none
  crew : ∀ {k n}, f.current.get? k = some n → ∃ j b, (seats j).berth? = some b ∧ b.number = n

theorem manned_empty : Manned {} fun _ => .none := ⟨keyed_empty, nofun, nofun, nofun⟩

namespace Manned

theorem fades (manned : f.Manned seats) (fades : f.Fades f') : f'.Manned seats where
  keyed k n leads := by
    rw [fades.length, fades.key]
    exact manned.keyed k n (fades.current leads)
  berth sits := by
    rw [fades.length, fades.key]
    exact manned.berth sits
  empty leads := (fades.result _).trans (manned.empty (fades.current leads))
  crew leads := manned.crew (fades.current leads)

/-- Nobody sits in the seat of a call that boards. -/
theorem join (manned : f.Manned seats) (key : String) (free : (seats j).berth? = none) :
    (f.join key).2.Manned (Function.update seats j
      (.queued ⟨key, (f.join key).1.1, (f.join key).1.2⟩)) where
  keyed := manned.keyed.join
  berth sits := by
    rcases Seated.berth_update sits with ⟨-, same⟩ | ⟨-, before⟩
    · cases same
      exact manned.keyed.seat
    · obtain ⟨there, own⟩ := manned.berth before
      exact ⟨Nat.lt_of_lt_of_le there length_join, (key_join there).trans own⟩
  empty {k n} leads := by
    rw [result_join]
    rw [current_join] at leads
    split at leads
    -- The flight was there, and was empty before, or it is new.
    · cases leads
      cases before : f.current.get? key with
      | some m =>
          rw [join_boarded before]
          exact manned.empty before
      | none =>
          rw [join_new before, flight_beyond (Nat.le_refl _)]
    · exact manned.empty leads
  crew {k n} leads := by
    rw [current_join] at leads
    split at leads
    · cases leads
      exact ⟨j, _, by rw [Function.update_self]; rfl, rfl⟩
    · obtain ⟨i, b, sits, same⟩ := manned.crew leads
      refine ⟨i, b, ?_, same⟩
      rwa [Function.update_of_ne]
      rintro rfl
      exact nomatch free.symm.trans sits

/-- A call keeps its berth. -/
theorem stay (manned : f.Manned seats) (same : seat.berth? = (seats j).berth?) :
    f.Manned (Function.update seats j seat) := by
  have berths (i : Nat) : (Function.update seats j seat i).berth? = (seats i).berth? := by
    by_cases own : i = j
    · rw [own, Function.update_self, same]
    · rw [Function.update_of_ne own]
  refine ⟨manned.keyed, fun sits => ?_, manned.empty, fun leads => ?_⟩
  · rw [berths] at sits
    exact manned.berth sits
  · simp only [berths]
    exact manned.crew leads

/-- A flight that somebody leaves is one that no key leads to any more. -/
theorem apart (manned : f.Manned seats) (sits : (seats j).berth? = some b)
    (leads : (f.leave b.key b.number).current.get? k = some n) : n ≠ b.number := by
  rintro rfl
  have before := current_leave leads
  have own : k = b.key := (manned.keyed _ _ before).2.symm.trans (manned.berth sits).2
  subst own
  exact nomatch (current_leave_own before).symm.trans leads

theorem leave (manned : f.Manned seats) (sits : (seats j).berth? = some b) :
    (f.leave b.key b.number).Manned (Function.update seats j .none) := by
  have sheds : f.Sheds (f.leave b.key b.number) := sheds_leave
  have rest := manned.fades sheds.fades
  refine ⟨rest.keyed, fun sits' => ?_, rest.empty, fun leads => ?_⟩
  · rcases Seated.berth_update sits' with ⟨-, same⟩ | ⟨-, sits'⟩
    · exact nomatch same
    · exact rest.berth sits'
  -- The flight has somebody in it still, and who leaves is in another one.
  · obtain ⟨i, b', sits', same⟩ := rest.crew leads
    refine ⟨i, b', ?_, same⟩
    rwa [Function.update_of_ne]
    rintro rfl
    cases sits.symm.trans sits'
    exact manned.apart sits leads same.symm

/-- What becomes of a flight that no key leads to is no concern of the others. -/
theorem update (manned : f.Manned seats) (key : ∀ x, (change x).key = x.key)
    (apart : ∀ {k m}, f.current.get? k = some m → m ≠ n) : (f.update n change).Manned seats where
  keyed := manned.keyed.update key
  berth sits := by
    rw [length_update, key_update key]
    exact manned.berth sits
  empty leads := by
    rw [flight_update, if_neg fun h => apart leads h.1]
    exact manned.empty leads
  crew leads := manned.crew leads

end Manned

/-! ## Rides -/

/-- What a stretch of a call does with its seat: the call keeps its berth, or it leaves its flight,
which it may have changed in everything but the key. -/
inductive Ride (f : Flights) : Seat → Flights → Seat → Prop where
  | stay {before after : Seat} (same : after.berth? = before.berth?) : Ride f before f after
  | alight {before : Seat} {b : Berth} {change : Flight → Flight} (sits : before.berth? = some b)
      (key : ∀ x, (change x).key = x.key) :
      Ride f before ((f.update b.number change).leave b.key b.number) .none

theorem leave_update : (f.update n change).leave key m = (f.leave key m).update n change := by
  have current : (f.update n change).current.get? key = f.current.get? key := rfl
  unfold leave
  rw [current]
  split
  · rfl
  · rfl

theorem update_id : f.update n id = f := by
  unfold update
  rw [List.modify_id]

theorem Passage.ride {fresh : Token} (passage : f.Passage fresh seat f' seat') :
    f.Ride seat f' seat' := by
  cases passage with
  | idle => exact .stay rfl
  | @share b record landed =>
      have left : f.Ride (.queued b) ((f.update b.number id).leave b.key b.number) .none :=
        .alight rfl fun _ => rfl
      rwa [update_id] at left
  | takeOff due => exact .stay rfl
  | land sits holds record => exact .alight sits fun _ => rfl
  | handOver sits holds => exact .alight sits fun _ => rfl

namespace Ride

theorem callers (ride : f.Ride seat f' seat') : f'.callers = f.callers := by
  cases ride with
  | stay same => rfl
  | alight sits key => exact sheds_leave.callers

/-- Nobody changes seats on the way. -/
theorem berth (ride : f.Ride seat f' seat') (sits : seat'.berth? = some b) :
    seat.berth? = some b := by
  cases ride with
  | stay same => exact same.symm.trans sits
  | alight => exact nomatch sits

theorem manned (ride : f.Ride seat f' seat') (manned : f.Manned seats) (now : seats j = seat) :
    f'.Manned (Function.update seats j seat') := by
  subst now
  cases ride with
  | stay same => exact manned.stay same
  -- Nothing comes between landing and leaving, so the flight may as well land when it is left.
  | @alight b change sits key =>
      rw [leave_update]
      exact (manned.leave sits).update key (manned.apart sits)

end Ride

end Flights

/-! ## Calls and their rides -/

section

open Bench Job

variable {c : Compiler π}

theorem sheds_storing {α : Type} (job : Storing π α) :
    (Compiling.storing job).run.Keeps ShedsFlights :=
  (quiet_storing job).mono fun {b d} same => by
    unfold ShedsFlights
    rw [show d.state = b.state from same]
    exact .refl _

theorem sheds_newToken (settings : CompilerSettings) :
    (Compiling.step (Bench.newToken settings)).run.Keeps (ShedsFlights (π := π)) :=
  keeps_step fun _ => .refl _

theorem eventAt_sheds (path : Path) (token : Token) :
    (c.eventAt path token).run.Keeps ShedsFlights := by
  unfold Compiler.eventAt
  split
  · exact keeps_pure _
  · refine (keeps_gets (fun _ => .refl _) _).bindExcept fun isDir => ?_
    split
    · exact keeps_pure _
    · refine (sheds_storing _).bindExcept fun r => ?_
      split
      · exact keeps_pure _
      · exact (sheds_storing _).bindExcept fun _ => keeps_pure _

/-- Calls other than compiles do nothing to flights but detach keys from them, whatever their store
does. -/
theorem errand_sheds {command : Command} (errand : ∀ input, command ≠ .compile input) :
    (command.work c).run.Keeps ShedsFlights := by
  have apart {b d : Bench π} (_ : d.state.registry = b.state.registry)
      (_ : d.state.cache = b.state.cache) (flights : d.state.flights = b.state.flights)
      (_ : Site.LosesCode b.site d.site) : b.ShedsFlights d := by
    unfold ShedsFlights
    rw [flights]
    exact .refl _
  cases command with
  | compile input => exact absurd rfl (errand input)
  | register name content =>
      exact ((register_chores name content).mono Chore.sheds_flights).mapExcept
  | unregister name =>
      refine Keeps.mapExcept ((keeps_ofExcept _).bindExcept fun key => ?_)
      refine (keeps_modify fun b => prepares_eraseName.flights).bindExcept fun _ => ?_
      refine (sheds_newToken _).bindExcept fun token => (sheds_storing _).bindExcept fun r => ?_
      split
      · exact keeps_pure _
      · exact keeps_throw _
  | scan =>
      refine Keeps.mapExcept ((sheds_newToken _).bindExcept fun token => ?_)
      have scans : (c.store.scan token).Keeps fun _ _ => True := keeps_any _ fun _ _ => trivial
      refine .bindExcept (keeps_lift (keeps_onSite scans fun _ _ _ => .refl _)) fun discovery => ?_
      refine (keeps_modify fun b => ?_).bindExcept fun _ => keeps_ofExcept _
      exact (Chore.registerAll discovery.found).sheds_flights
  | clear all =>
      refine Keeps.mapExcept ((keeps_modify fun b => .refl _).bindExcept fun _ => ?_)
      refine (sheds_newToken _).bindExcept fun token => (sheds_storing _).bindExcept fun r => ?_
      split
      · exact keeps_pure _
      · exact keeps_throw _
  | cancel => exact (cancel_keeps apart).mapExcept
  | watch => exact (watch_keeps apart).mapExcept
  | settle path token =>
      refine Keeps.mapExcept ((keeps_gets (fun _ => .refl _) _).bindExcept fun cancelled => ?_)
      split
      · exact keeps_pure _
      · refine (eventAt_sheds path token).bindExcept fun event => ?_
        split
        · exact keeps_pure _
        · refine keeps_modify fun b => ?_
          split
          · exact .refl _
          · unfold Compiler.apply
            split
            · exact (prepares_register _).flights
            · exact prepares_eraseName.flights

end

namespace Session

/-- What an event does to flights and seats, whoever holds the flights. -/
inductive Moves (s : Session π) (seats : Nat → Seat) :
    Event π → Flights → (Nat → Seat) → Prop where
  | shed {e : Event π} {f : Flights} (sheds : s.bench.state.flights.Sheds f) :
      Moves s seats e f seats
  | board {command : Command} {codeKey : String} {f f' : Flights} {seat : Seat}
      (sheds : s.bench.state.flights.Sheds f)
      (ride : (f.join codeKey).2.Ride
        (.queued ⟨codeKey, (f.join codeKey).1.1, (f.join codeKey).1.2⟩) f' seat) :
      Moves s seats (.ask command) f' (Function.update seats s.calls.length seat)
  | go {j : Nat} {f : Flights} {seat : Seat} (ride : s.bench.state.flights.Ride (seats j) f seat) :
      Moves s seats (.turn j) f (Function.update seats j seat)

section

open Bench Compiler Job

variable {c : Compiler π} {s : Session π} {seats seats' : Nat → Seat} {e : Event π}
  {f : Flights} {j : Nat} {call : Call π}

/-- An attempt goes on with its flights as they are, or ends and leaves its flight. -/
theorem fly_ride {input : CompileInput} {berth : Berth} {token : Token}
    {given : Option ContentRecord} {since : Nat}
    {work : Job (Bench π) (Except CompileError CodeRecord)}
    (coded : input.address.key c.store.resolver .code = .ok berth.key)
    (leaves : (c.attempt input.address berth.key given since token).run.Leaves work)
    (b : Bench π) :
    let job := (Task.unpaused work).bind (arrive berth.key berth.number)
    ∃ seat, b.state.flights.Ride (.flying berth token) (job.advance b).2.state.flights seat ∧
      seat.Fits c ⟨.compile input, (job.advance b).1⟩ := by
  intro job
  rcases fly berth (leaves.keeps attempt_keeps_flights).unpaused b with
    ⟨r, d, same, ends, both⟩ | ⟨rest, d, same, stops, isOpen, both⟩
  · refine ⟨.none, ?_, both ▸ ⟨fun _ => trivial, .inl ⟨_, rfl⟩⟩⟩
    rw [both]
    cases r with
    | ok record =>
        show b.state.flights.Ride _ ((d.state.flights.land berth.number record).leave _ _) _
        rw [same]
        exact .alight rfl fun _ => rfl
    | error e =>
        show b.state.flights.Ride _ ((d.state.flights.handOver berth.number).leave _ _) _
        rw [same]
        exact .alight rfl fun _ => rfl
  · have leaves' := leaves.again b
    rw [stops] at leaves'
    rw [both]
    refine ⟨.flying berth token, ?_, input, given, since, rest, rfl, coded, leaves', isOpen, rfl⟩
    show b.state.flights.Ride _ d.state.flights _
    rw [same]
    exact .stay rfl

theorem Sails.moves (sails : s.Sails c seats e f seats') : s.Moves seats e f seats' := by
  cases sails with
  | shed sheds => exact .shed sheds
  | board coded sheds passage => exact .board sheds passage.ride
  | go passage => exact .go passage.ride

/-- An attempt goes on, whoever has its flight. -/
theorem Placed.turn_attempt (placed : s.Placed c seats) {berth : Berth} {token : Token}
    (there : s.calls[j]? = some call) (now : seats j = .flying berth token) :
    ∃ seats', s.Moves seats (.turn j) (step c s (.turn j)).bench.state.flights seats' ∧
      (step c s (.turn j)).Placed c seats' := by
  have fits := placed.fits there
  rw [now] at fits
  obtain ⟨input, given, since, work, command, coded, leaves, isOpen, job⟩ := fits
  obtain ⟨seat, ride, fits⟩ := fly_ride coded leaves s.bench
  rw [← unpaused_bind _ isOpen, ← job] at ride fits
  rw [bench_turn there]
  exact ⟨_, .go (now ▸ ride), placed.turn there (command ▸ fits)⟩

/-- Every event moves flights and seats together. -/
theorem Placed.step (placed : s.Placed c seats) (e : Event π) :
    ∃ seats', s.Moves seats e (Session.step c s e).bench.state.flights seats' ∧
      (Session.step c s e).Placed c seats' := by
  cases e with
  | elsewhere content own environment =>
      exact ⟨seats, .shed (.refl _), placed.fits, placed.free⟩
  | ask command =>
      by_cases compiles : ∃ input, command = .compile input
      · obtain ⟨input, rfl⟩ := compiles
        exact placed.compile_any.imp fun seats' => And.imp_left Sails.moves
      · refine (placed.errand (errand_sheds fun input is => compiles ⟨input, is⟩) ?_).imp
          fun seats' => And.imp_left Sails.moves
        exact fun input codeKey is => absurd ⟨input, is⟩ compiles
  | turn j =>
      cases there : s.calls[j]? with
      | none =>
          have idle : Session.step c s (.turn j) = s := by simp only [Session.step, there]
          rw [idle]
          exact ⟨seats, .shed (.refl _), placed⟩
      | some call =>
          cases now : seats j with
          | none => exact (placed.turn_errand there now).imp fun _ => And.imp_left Sails.moves
          | queued berth =>
              exact (placed.turn_queued there now).imp fun _ => And.imp_left Sails.moves
          | flying berth token => exact placed.turn_attempt there now

theorem Moves.manned (moves : s.Moves seats e f seats') (placed : s.Placed c seats)
    (manned : s.bench.state.flights.Manned seats) : f.Manned seats' := by
  cases moves with
  | shed sheds => exact manned.fades sheds.fades
  | @board _ codeKey _ _ _ sheds ride =>
      have joined := (manned.fades sheds.fades).join (j := s.calls.length) codeKey
        (by rw [placed.free (Nat.le_refl _)]; rfl)
      rw [← Function.update_idem]
      exact ride.manned joined (Function.update_self ..)
  | go ride => exact ride.manned manned rfl

/-- Only who boards gets another berth than before, with the number that it draws. -/
theorem Moves.berth {b : Berth} (moves : s.Moves seats e f seats')
    (sits : (seats' j).berth? = some b) : (seats j).berth? = some b ∨
      (∃ command, e = .ask command) ∧ j = s.calls.length ∧
        b.caller = s.bench.state.flights.callers ∧ f.callers = b.caller + 1 := by
  cases moves with
  | shed sheds => exact .inl sits
  | @board command codeKey g _ seat sheds ride =>
      rcases Flights.Seated.berth_update sits with ⟨rfl, own⟩ | ⟨-, before⟩
      · cases ride.berth own
        refine .inr ⟨⟨command, rfl⟩, rfl, Flights.caller_join.trans sheds.callers, ?_⟩
        rw [ride.callers, Flights.callers_join, Flights.caller_join]
      · exact .inl before
  | go ride =>
      rcases Flights.Seated.berth_update sits with ⟨rfl, own⟩ | ⟨-, before⟩
      · exact .inl (ride.berth own)
      · exact .inl before

end

end Session

/-! ## Crowds -/

namespace Crowd

/-- Calls have the seats that their jobs say, under the numbers that are noted, and somebody sits in
every flight that a key leads to. -/
structure Staffed (c : Compiler π) (s : Crowd π) (seats : Nat → Seat) : Prop where
  placed : s.toSession.Placed c seats
  manned : s.bench.state.flights.Manned seats
  length : s.callers.length = s.calls.length
  noted : ∀ {j b}, (seats j).berth? = some b → s.callers[j]? = some (some b.caller)

variable {c : Compiler π} {s : Crowd π} {seats : Nat → Seat} {key : String} {n j : Nat}

theorem staffed_start (site : Site π) : (start site).Staffed c fun _ => .none where
  placed := ⟨nofun, fun _ => rfl⟩
  manned := Flights.manned_empty
  length := rfl
  noted := nofun

theorem Staffed.ask (staffed : s.Staffed c seats) (command : Command) :
    ∃ seats', (s.step c (.usual (.ask command))).Staffed c seats' := by
  obtain ⟨seats', moves, placed⟩ := staffed.placed.step (.ask command)
  refine ⟨seats', placed, moves.manned staffed.placed staffed.manned, ?_, fun {j b} sits => ?_⟩
  · show (s.callers ++ [_]).length = (s.calls ++ [_]).length
    rw [List.length_append, List.length_append, staffed.length]
    rfl
  · show (s.callers ++ [_])[j]? = _
    rcases moves.berth sits with before | ⟨-, rfl, caller, callers⟩
    · have there := staffed.noted before
      rwa [List.getElem?_append_left (List.getElem?_eq_some_iff.1 there).1]
    · rw [← staffed.length, List.getElem?_concat_length]
      unfold Flights.drawn
      rw [if_pos (by omega), caller]

theorem Staffed.turn (staffed : s.Staffed c seats) (number : Nat) :
    ∃ seats', (s.step c (.usual (.turn number))).Staffed c seats' := by
  dsimp only [step]
  split
  · exact ⟨seats, staffed⟩
  · obtain ⟨seats', moves, placed⟩ := staffed.placed.step (.turn number)
    refine ⟨seats', placed, moves.manned staffed.placed staffed.manned, ?_, fun {j b} sits => ?_⟩
    · show _ = (s.toSession.step c (.turn number)).calls.length
      rw [Session.calls_turn]
      exact staffed.length
    · rcases moves.berth sits with before | ⟨⟨command, same⟩, -⟩
      · exact staffed.noted before
      · exact nomatch same

theorem Staffed.drop (staffed : s.Staffed c seats) (number : Nat) :
    (s.step c (.drop number)).Staffed c seats := by
  dsimp only [step]
  split
  · refine ⟨⟨staffed.placed.fits, staffed.placed.free⟩, ?_, staffed.length, staffed.noted⟩
    split
    · exact staffed.manned
    · exact staffed.manned.fades (Flights.fades_without _)
  · exact staffed

/-- A pending call that is dropped is taken out of the flight that it sits in. -/
theorem Staffed.flights_drop (staffed : s.Staffed c seats) {b : Berth}
    (sits : (seats j).berth? = some b) (pending : s.pending j = true) :
    (s.step c (.drop j)).bench.state.flights = s.bench.state.flights.without b.caller := by
  dsimp only [Crowd.step]
  rw [if_pos pending, staffed.noted sits]
  rfl

theorem Staffed.step (staffed : s.Staffed c seats) (e : Event π) :
    ∃ seats', (s.step c e).Staffed c seats' := by
  cases e with
  | drop number => exact ⟨seats, staffed.drop number⟩
  | usual event =>
      cases event with
      | ask command => exact staffed.ask command
      | turn number => exact staffed.turn number
      | elsewhere content own environment =>
          exact ⟨seats, ⟨staffed.placed.fits, staffed.placed.free⟩, staffed.manned, staffed.length,
            staffed.noted⟩

theorem Staffed.run (staffed : s.Staffed c seats) (events : List (Event π)) :
    ∃ seats', (s.run c events).Staffed c seats' := by
  induction events generalizing s seats with
  | nil => exact ⟨seats, staffed⟩
  | cons e rest ih =>
      obtain ⟨seats', staffed'⟩ := staffed.step e
      exact ih staffed'

/-- Who sits in a flight is a compile of its key that is pending or has been dropped. -/
theorem Staffed.sitting (staffed : s.Staffed c seats) {b : Berth}
    (sits : (seats j).berth? = some b) : ∃ call input, s.calls[j]? = some call ∧
      call.command = .compile input ∧ input.address.key c.store.resolver .code = .ok b.key ∧
      (s.pending j = true ∨ j ∈ s.dropped) := by
  cases there : s.calls[j]? with
  | none =>
      rw [staffed.placed.free (List.getElem?_eq_none_iff.1 there)] at sits
      exact nomatch sits
  | some call =>
      have undone (goes : call.answer? = none) : s.pending j = true ∨ j ∈ s.dropped := by
        by_cases gone : j ∈ s.dropped
        · exact .inr gone
        · refine .inl ?_
          unfold pending
          simp [there, goes, gone]
      have fits := staffed.placed.fits there
      cases seat : seats j with
      | none =>
          rw [seat] at sits
          exact nomatch sits
      | queued berth =>
          rw [seat] at sits fits
          cases sits
          obtain ⟨input, given, since, command, coded, job⟩ := fits
          refine ⟨call, input, rfl, command, coded, undone ?_⟩
          unfold Call.answer?
          rw [job]
          rfl
      | flying berth token =>
          rw [seat] at sits fits
          cases sits
          obtain ⟨input, given, since, work, command, coded, leaves, isOpen, job⟩ := fits
          refine ⟨call, input, rfl, command, coded, undone ?_⟩
          unfold Call.answer?
          rw [job]
          cases work with
          | done x => exact absurd rfl (isOpen x)
          | act update next => rfl
          | wait event next => rfl
          | pause next => rfl

/-- Whatever flight a key leads to, somebody compiles the key for it, or did so until dropped. -/
theorem leads_to_caller (site : Site π) (events : List (Event π))
    (leads : ((start site).run c events).bench.state.flights.current.get? key = some n) :
    ∃ j call input, ((start site).run c events).calls[j]? = some call ∧
      call.command = .compile input ∧ input.address.key c.store.resolver .code = .ok key ∧
      (((start site).run c events).pending j = true ∨ j ∈ ((start site).run c events).dropped) := by
  obtain ⟨seats, staffed⟩ := (staffed_start site).run events
  obtain ⟨j, b, sits, rfl⟩ := staffed.manned.crew leads
  obtain ⟨call, input, there, command, coded, waits⟩ := staffed.sitting sits
  have own : b.key = key :=
    (staffed.manned.berth sits).2.symm.trans (staffed.manned.keyed _ _ leads).2
  exact ⟨j, call, input, there, command, own ▸ coded, waits⟩

/-- However calls are interleaved and dropped, no key leads to a flight that has a result. Once no
compile is pending, no key leads to a flight at all, unless a compile has been dropped. -/
theorem flights_are_left (c : Compiler π) (site : Site π) (events : List (Event π)) :
    let s := (start site).run c events
    (∀ key n, s.bench.state.flights.current.get? key = some n →
      (s.bench.state.flights.flight n).result = none) ∧
    ((∀ j call input, s.calls[j]? = some call → call.command = .compile input →
        s.pending j = false ∧ j ∉ s.dropped) →
      ∀ key, s.bench.state.flights.current.get? key = none) := by
  intro s
  constructor
  · obtain ⟨seats, staffed⟩ := (staffed_start (c := c) site).run events
    exact fun key n => staffed.manned.empty
  · intro idle key
    cases leads : s.bench.state.flights.current.get? key with
    | none => rfl
    | some n =>
        obtain ⟨j, call, input, there, command, -, waits⟩ := leads_to_caller site events leads
        obtain ⟨ended, stayed⟩ := idle j call input there command
        rcases waits with pending | gone
        · exact absurd pending (ended ▸ nofun)
        · exact absurd gone stayed

open Sample in
/-- Where a compile is dropped, the one that waits for it takes its turn. If that one is dropped too,
the key leads to a flight that nobody is in. -/
example :
    let s := (start shelf).run slow [.usual ask, .usual ask, .drop 0]
    let t := s.step slow (.drop 1)
    (s.bench.state.flights.flight 0).riders = [1] ∧ (t.bench.state.flights.flight 0).riders = [] ∧
      t.bench.state.flights.current.get? "partials/a.html.compiled" = some 0 := by
  decide

end Crowd
end TemplateCache
