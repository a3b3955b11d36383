import Mathlib.Data.List.Nodup
import TemplateCache.Proofs.Compiler.Flight

/-!
# Seats in flights

A call that boards a flight has a seat in it until it leaves: it waits there for its turn, or for
the result of somebody else, and while it compiles the flight is its own. `Seated` says that seats
and flights agree, and `Passage` lists what one call can do with its seat.
-/

namespace TemplateCache

/-- The place of a call among the flights. -/
structure Berth where
  key : String
  number : Nat
  caller : Nat

inductive Seat where
  | none
  /-- It waits for its turn. -/
  | queued (berth : Berth)
  /-- It compiles, under a token of its own. -/
  | flying (berth : Berth) (token : Token)

def Seat.berth? : Seat → Option Berth
  | none => .none
  | queued berth => some berth
  | flying berth _ => some berth

/-- The callers that have not been served yet, in the order of their turns. -/
def Flight.riders (x : Flight) : List Nat := x.holder.toList ++ x.waiting

/-- Nobody is in a flight twice, somebody compiles as long as anybody waits, and all are gone once
there is a result. -/
structure Flight.Ordered (x : Flight) : Prop where
  nodup : x.riders.Nodup
  led : x.holder = none → x.waiting = []
  landed : x.result.isSome = true → x.holder = none

namespace Flight.Ordered

variable {x : Flight}

theorem empty : Flight.Ordered {} := ⟨.nil, fun _ => rfl, nofun⟩

theorem alone {key : String} {caller : Nat} :
    Flight.Ordered { key := key, holder := some caller } :=
  ⟨List.nodup_singleton caller, nofun, nofun⟩

theorem no_riders (ordered : x.Ordered) (landed : x.result.isSome = true) : x.riders = [] := by
  have free := ordered.landed landed
  unfold riders
  rw [free, ordered.led free]
  rfl

theorem held (ordered : x.Ordered) {caller : Nat} (rides : caller ∈ x.riders) :
    x.holder.isSome = true := by
  cases free : x.holder with
  | some holder => rfl
  | none =>
      unfold riders at rides
      rw [free, ordered.led free] at rides
      exact nomatch rides

/-- Who holds a flight does not wait in it. -/
theorem not_waiting (ordered : x.Ordered) {caller : Nat} (holds : x.holder = some caller) :
    caller ∉ x.waiting := by
  have nodup := ordered.nodup
  unfold riders at nodup
  rw [holds] at nodup
  exact (List.nodup_cons.1 nodup).1

theorem enter (ordered : x.Ordered) {holder caller : Nat} (holds : x.holder = some holder)
    (new : caller ∉ x.riders) :
    Flight.Ordered { x with waiting := x.waiting ++ [caller] } where
  nodup := by
    show (x.holder.toList ++ (x.waiting ++ [caller])).Nodup
    rw [← List.append_assoc]
    exact ordered.nodup.append (List.nodup_singleton caller)
      (List.disjoint_singleton.2 new)
  led free := nomatch holds.symm.trans free
  landed landed := nomatch holds.symm.trans (ordered.landed landed)

theorem riders_handOver :
    Flight.riders { x with holder := x.waiting.head?, waiting := x.waiting.tail } = x.waiting := by
  unfold riders
  cases x.waiting with
  | nil => rfl
  | cons first rest => rfl

theorem land (record : CodeRecord) :
    Flight.Ordered { x with result := some record, holder := none, waiting := [] } :=
  ⟨.nil, fun _ => rfl, fun _ => rfl⟩

theorem handOver (ordered : x.Ordered) {caller : Nat} (holds : x.holder = some caller) :
    Flight.Ordered { x with holder := x.waiting.head?, waiting := x.waiting.tail } where
  nodup := by
    have nodup := ordered.nodup
    unfold riders at nodup
    rw [holds] at nodup
    rw [riders_handOver]
    exact (List.nodup_cons.1 nodup).2
  led free := by
    rw [List.head?_eq_none_iff.1 free]
    rfl
  landed landed := nomatch holds.symm.trans (ordered.landed landed)

end Flight.Ordered

namespace Flights

variable {f f' : Flights} {seats : Nat → Seat} {key k : String} {n m : Nat}

/-! ## Shedding -/

/-- Keys are detached from their flights, and nothing else happens. -/
structure Sheds (f f' : Flights) : Prop where
  all : f'.all = f.all
  callers : f'.callers = f.callers
  current : ∀ {k n}, f'.current.get? k = some n → f.current.get? k = some n

theorem Sheds.refl (f : Flights) : f.Sheds f := ⟨rfl, rfl, id⟩

theorem Sheds.trans {f'' : Flights} (h : f.Sheds f') (h' : f'.Sheds f'') : f.Sheds f'' :=
  ⟨h'.all.trans h.all, h'.callers.trans h.callers, fun leads => h.current (h'.current leads)⟩

theorem Sheds.flight (h : f.Sheds f') (n : Nat) : f'.flight n = f.flight n := by
  unfold Flights.flight
  rw [h.all]

theorem sheds_leave : f.Sheds (f.leave key n) := by
  refine ⟨?_, ?_, current_leave⟩
  · unfold leave
    split
    · rfl
    · rfl
  · unfold leave
    split
    · rfl
    · rfl

/-! ## Boarding -/

theorem caller_join : (f.join key).1.2 = f.callers := by
  unfold join board enter
  cases f.current.get? key with
  | some n => rfl
  | none => rfl

theorem callers_join : (f.join key).2.callers = f.callers + 1 := by
  unfold join board enter
  cases f.current.get? key with
  | some n => rfl
  | none => rfl

theorem flight_join_other (other : n ≠ (f.join key).1.1) :
    (f.join key).2.flight n = f.flight n := by
  cases leads : f.current.get? key with
  | some m =>
      rw [join_boarded leads] at other
      unfold join board enter
      rw [leads]
      exact (flight_update _).trans (if_neg fun h => other h.1)
  | none =>
      rw [join_new leads] at other
      unfold join board enter
      rw [leads]
      refine (flight_update _).trans ((if_neg fun h => other h.1).trans ?_)
      unfold flight
      rcases Nat.lt_or_gt_of_ne other with there | beyond
      · simp [List.getElem?_append_left there]
      · rw [List.getD_eq_getElem?_getD, List.getD_eq_getElem?_getD,
          List.getElem?_eq_none (Nat.le_of_lt beyond), List.getElem?_eq_none (by simp; omega)]

/-! ## Seats -/

/-- Seats and flights agree. -/
structure Seated (f : Flights) (seats : Nat → Seat) : Prop where
  keyed : f.Keyed
  ordered : ∀ n, (f.flight n).Ordered
  /-- Keys lead to flights that go on. -/
  leads : ∀ {k n}, f.current.get? k = some n → (f.flight n).holder.isSome = true
  berth : ∀ {j b}, (seats j).berth? = some b →
    b.number < f.all.length ∧ (f.flight b.number).key = b.key ∧ b.caller < f.callers
  apart : ∀ {i j b b'}, (seats i).berth? = some b → (seats j).berth? = some b' →
    b.caller = b'.caller → i = j
  riders : ∀ {n caller}, caller ∈ (f.flight n).riders →
    ∃ j b, (seats j).berth? = some b ∧ b.number = n ∧ b.caller = caller
  queued : ∀ {j b}, seats j = .queued b →
    (f.flight b.number).result.isSome = true ∨ b.caller ∈ (f.flight b.number).riders
  flying : ∀ {j b token}, seats j = .flying b token →
    (f.flight b.number).holder = some b.caller

theorem seated_empty : Seated {} fun _ => .none where
  keyed := keyed_empty
  ordered n := by
    rw [flight_beyond (Nat.zero_le n)]
    exact .empty
  leads := nofun
  berth := nofun
  apart := nofun
  riders {n caller} rides := by
    rw [flight_beyond (Nat.zero_le n)] at rides
    exact nomatch rides
  queued := nofun
  flying := nofun

namespace Seated

variable {j : Nat} {b : Berth}

theorem sheds (seated : f.Seated seats) (sheds : f.Sheds f') : f'.Seated seats where
  keyed k n leads := by
    rw [sheds.all, sheds.flight]
    exact seated.keyed k n (sheds.current leads)
  ordered n := by
    rw [sheds.flight]
    exact seated.ordered n
  leads leads := by
    rw [sheds.flight]
    exact seated.leads (sheds.current leads)
  berth sits := by
    rw [sheds.all, sheds.flight, sheds.callers]
    exact seated.berth sits
  apart := seated.apart
  riders rides := by
    rw [sheds.flight] at rides
    exact seated.riders rides
  queued waits := by
    rw [sheds.flight]
    exact seated.queued waits
  flying flies := by
    rw [sheds.flight]
    exact seated.flying flies

/-- Callers in a flight have come already. -/
theorem rider_lt (seated : f.Seated seats) {caller : Nat} (rides : caller ∈ (f.flight n).riders) :
    caller < f.callers := by
  obtain ⟨j, b, sits, -, rfl⟩ := seated.riders rides
  exact (seated.berth sits).2.2

/-- The flight that a call boards: it is the last one in it. -/
theorem boarded (seated : f.Seated seats) (key : String) :
    ((f.join key).2.flight (f.join key).1.1).Ordered ∧
      ((f.join key).2.flight (f.join key).1.1).holder.isSome = true ∧
      ((f.join key).2.flight (f.join key).1.1).riders =
        (f.flight (f.join key).1.1).riders ++ [f.callers] := by
  cases leads : f.current.get? key with
  | some n =>
      obtain ⟨holder, holds⟩ := Option.isSome_iff_exists.1 (seated.leads leads)
      rw [join_boarded leads, flight_join_held leads (seated.keyed _ _ leads).1 holds]
      refine ⟨(seated.ordered n).enter holds fun rides => ?_, ?_, (List.append_assoc _ _ _).symm⟩
      · exact Nat.lt_irrefl _ (seated.rider_lt rides)
      · show (f.flight n).holder.isSome = true
        rw [holds]
        rfl
  | none =>
      rw [join_new leads, flight_join_new leads, flight_beyond (Nat.le_refl _), caller_join]
      exact ⟨.alone, rfl, rfl⟩

/-- The seats after one of them has changed. -/
theorem berth_update {seat : Seat} {i : Nat} {b : Berth}
    (sits : (Function.update seats j seat i).berth? = some b) :
    (i = j ∧ seat.berth? = some b) ∨ (i ≠ j ∧ (seats i).berth? = some b) := by
  by_cases own : i = j
  · subst own
    rw [Function.update_self] at sits
    exact .inl ⟨rfl, sits⟩
  · rw [Function.update_of_ne own] at sits
    exact .inr ⟨own, sits⟩

theorem seat_update {seat seat' : Seat} {i : Nat} (is : Function.update seats j seat i = seat') :
    (i = j ∧ seat = seat') ∨ (i ≠ j ∧ seats i = seat') := by
  by_cases own : i = j
  · subst own
    rw [Function.update_self] at is
    exact .inl ⟨rfl, is⟩
  · rw [Function.update_of_ne own] at is
    exact .inr ⟨own, is⟩

theorem join (seated : f.Seated seats) (key : String) (free : (seats j).berth? = none) :
    (f.join key).2.Seated (Function.update seats j
      (.queued ⟨key, (f.join key).1.1, (f.join key).1.2⟩)) := by
  obtain ⟨ordered, held, riders⟩ := seated.boarded key
  refine ⟨seated.keyed.join, fun n => ?_, fun {k n} leads => ?_, fun {i b} sits => ?_,
    fun {i i' b b'} sits sits' same => ?_, fun {n caller} rides => ?_, fun {i b} waits => ?_,
    fun {i b token} flies => ?_⟩
  · by_cases own : n = (f.join key).1.1
    · rw [own]
      exact ordered
    · rw [flight_join_other own]
      exact seated.ordered n
  · by_cases own : n = (f.join key).1.1
    · rw [own]
      exact held
    · rw [flight_join_other own]
      rw [current_join] at leads
      split at leads
      · cases leads
        exact absurd rfl own
      · exact seated.leads leads
  · rw [callers_join]
    rcases berth_update sits with ⟨-, same⟩ | ⟨-, sits⟩
    · cases same
      obtain ⟨there, own⟩ : (f.join key).1.1 < (f.join key).2.all.length ∧
          ((f.join key).2.flight (f.join key).1.1).key = key := seated.keyed.seat
      exact ⟨there, own, by rw [caller_join]; exact Nat.lt_succ_self _⟩
    · obtain ⟨there, own, known⟩ := seated.berth sits
      exact ⟨Nat.lt_of_lt_of_le there length_join, (key_join there).trans own,
        Nat.lt_succ_of_lt known⟩
  -- The new caller has a number that nobody had before.
  · have new {i : Nat} {b : Berth} (sits : (seats i).berth? = some b) :
        b.caller ≠ (f.join key).1.2 := by
      rw [caller_join]
      exact Nat.ne_of_lt (seated.berth sits).2.2
    rcases berth_update sits with ⟨here, own⟩ | ⟨-, before⟩
    · rcases berth_update sits' with ⟨here', -⟩ | ⟨-, before'⟩
      · exact here.trans here'.symm
      · cases own
        exact absurd same.symm (new before')
    · rcases berth_update sits' with ⟨-, own⟩ | ⟨-, before'⟩
      · cases own
        exact absurd same (new before)
      · exact seated.apart before before' same
  · have before (rides : caller ∈ (f.flight n).riders) : ∃ i b, (Function.update seats j
        (.queued ⟨key, (f.join key).1.1, (f.join key).1.2⟩) i).berth? = some b ∧
        b.number = n ∧ b.caller = caller := by
      obtain ⟨i, b, sits, number, caller⟩ := seated.riders rides
      refine ⟨i, b, ?_, number, caller⟩
      rwa [Function.update_of_ne]
      rintro rfl
      exact nomatch free.symm.trans sits
    by_cases own : n = (f.join key).1.1
    · subst own
      rw [riders, List.mem_append, List.mem_singleton] at rides
      rcases rides with rides | rfl
      · exact before rides
      · exact ⟨j, _, by rw [Function.update_self]; rfl, rfl, caller_join⟩
    · rw [flight_join_other own] at rides
      exact before rides
  · rcases seat_update waits with ⟨-, same⟩ | ⟨-, waits⟩
    · cases same
      refine .inr ?_
      rw [riders, caller_join]
      exact List.mem_append_right _ (List.mem_singleton_self _)
    · rw [result_join]
      refine (seated.queued waits).imp_right fun rides => ?_
      by_cases own : b.number = (f.join key).1.1
      · rw [own] at rides ⊢
        rw [riders]
        exact List.mem_append_left _ rides
      · rwa [flight_join_other own]
  · rcases seat_update flies with ⟨-, same⟩ | ⟨-, flies⟩
    · exact nomatch same
    · have holds := seated.flying flies
      have there := (seated.berth (j := i) (by rw [flies]; rfl)).1
      by_cases own : b.number = (f.join key).1.1
      · cases leads : f.current.get? key with
        | some n =>
            rw [join_boarded leads] at own
            rw [own] at holds ⊢
            rw [flight_join_held leads (seated.keyed _ _ leads).1 holds]
            exact holds
        | none =>
            rw [join_new leads] at own
            exact absurd own (Nat.ne_of_lt there)
      · rwa [flight_join_other own]

/-- A call that begins to compile keeps its place. -/
theorem takeOff (seated : f.Seated seats) (waits : seats j = .queued b)
    (due : (f.flight b.number).holder = some b.caller) (token : Token) :
    f.Seated (Function.update seats j (.flying b token)) := by
  have same (i : Nat) : (Function.update seats j (.flying b token) i).berth? =
      (seats i).berth? := by
    by_cases own : i = j
    · rw [own, Function.update_self, waits]
      rfl
    · rw [Function.update_of_ne own]
  refine ⟨seated.keyed, seated.ordered, seated.leads, fun sits => ?_, fun sits sits' => ?_,
    fun rides => ?_, fun waits => ?_, fun flies => ?_⟩
  · rw [same] at sits
    exact seated.berth sits
  · rw [same] at sits sits'
    exact seated.apart sits sits'
  · simp only [same]
    exact seated.riders rides
  · rcases seat_update waits with ⟨-, same⟩ | ⟨-, waits⟩
    · exact nomatch same
    · exact seated.queued waits
  · rcases seat_update flies with ⟨-, same⟩ | ⟨-, flies⟩
    · cases same
      exact due
    · exact seated.flying flies

/-- A call leaves a flight that has landed. -/
theorem alight (seated : f.Seated seats) (waits : seats j = .queued b)
    (landed : (f.flight b.number).result.isSome = true) :
    f.Seated (Function.update seats j .none) where
  keyed := seated.keyed
  ordered := seated.ordered
  leads := seated.leads
  berth sits := by
    rcases berth_update sits with ⟨-, same⟩ | ⟨-, sits⟩
    · exact nomatch same
    · exact seated.berth sits
  apart sits sits' same := by
    rcases berth_update sits with ⟨-, same⟩ | ⟨-, sits⟩
    · exact nomatch same
    · rcases berth_update sits' with ⟨-, same⟩ | ⟨-, sits'⟩
      · exact nomatch same
      · exact seated.apart sits sits' same
  riders {n caller} rides := by
    obtain ⟨i, b', sits, number, caller⟩ := seated.riders rides
    refine ⟨i, b', ?_, number, caller⟩
    rwa [Function.update_of_ne]
    rintro rfl
    rw [waits] at sits
    cases sits
    rw [← number, (seated.ordered _).no_riders landed] at rides
    exact nomatch rides
  queued waits := by
    rcases seat_update waits with ⟨-, same⟩ | ⟨-, waits⟩
    · exact nomatch same
    · exact seated.queued waits
  flying flies := by
    rcases seat_update flies with ⟨-, same⟩ | ⟨-, flies⟩
    · exact nomatch same
    · exact seated.flying flies

/-- Who held a flight leaves it to those who waited, or with a result for them. -/
theorem depart (seated : f.Seated seats) (sits : (seats j).berth? = some b)
    (holds : (f.flight b.number).holder = some b.caller) {change : Flight → Flight}
    (key : ∀ x, (change x).key = x.key) (ordered : (change (f.flight b.number)).Ordered)
    (fewer : (change (f.flight b.number)).riders ⊆ (f.flight b.number).waiting)
    (served : ∀ caller ∈ (f.flight b.number).waiting,
      (change (f.flight b.number)).result.isSome = true ∨
        caller ∈ (change (f.flight b.number)).riders) :
    ((f.update b.number change).leave b.key b.number).Seated (Function.update seats j .none) := by
  obtain ⟨there, own, -⟩ := seated.berth sits
  have flight (n : Nat) : ((f.update b.number change).leave b.key b.number).flight n =
      if n = b.number then change (f.flight n) else f.flight n := by
    rw [flight_leave, flight_update]
    by_cases same : n = b.number
    · rw [if_pos ⟨same, same ▸ there⟩, if_pos same]
    · rw [if_neg fun h => same h.1, if_neg same]
  have all : ((f.update b.number change).leave b.key b.number).all.length = f.all.length := by
    rw [sheds_leave.all, length_update]
  have others {i : Nat} {b' : Berth} (other : i ≠ j) (sits' : (seats i).berth? = some b') :
      b'.caller ≠ b.caller := fun same => other (seated.apart sits' sits same)
  refine ⟨(seated.keyed.update key).leave, fun n => ?_, fun {k n} leads => ?_,
    fun {i b'} sits' => ?_, fun {i i' b' b''} sits' sits'' same => ?_, fun {n caller} rides => ?_, fun {i b'} waits => ?_,
    fun {i b' token} flies => ?_⟩
  · rw [flight]
    split
    · rename_i same
      rw [same]
      exact ordered
    · exact seated.ordered n
  -- No key leads to the flight any more.
  · have before : (f.update b.number change).current.get? k = some n := current_leave leads
    have other : n ≠ b.number := by
      rintro rfl
      have same := (seated.keyed _ _ before).2
      rw [own] at same
      subst same
      have gone : ((f.update b.number change).leave b.key b.number).current.get? b.key = none :=
        current_leave_own before
      exact nomatch gone.symm.trans leads
    rw [flight, if_neg other]
    exact seated.leads before
  · rcases berth_update sits' with ⟨-, same⟩ | ⟨-, sits'⟩
    · exact nomatch same
    · obtain ⟨there', own', known⟩ := seated.berth sits'
      refine ⟨by rwa [all], ?_, by rwa [sheds_leave.callers]⟩
      rw [flight]
      split
      · rw [key, own']
      · exact own'
  · rcases berth_update sits' with ⟨-, same⟩ | ⟨-, sits'⟩
    · exact nomatch same
    · rcases berth_update sits'' with ⟨-, same⟩ | ⟨-, sits''⟩
      · exact nomatch same
      · exact seated.apart sits' sits'' same
  · have left (rides : caller ∈ (f.flight n).riders) (other : n = b.number → caller ≠ b.caller) :
        ∃ i b', (Function.update seats j .none i).berth? = some b' ∧ b'.number = n ∧
          b'.caller = caller := by
      obtain ⟨i, b', sits', number, caller⟩ := seated.riders rides
      refine ⟨i, b', ?_, number, caller⟩
      rwa [Function.update_of_ne]
      rintro rfl
      cases sits.symm.trans sits'
      exact other number.symm caller.symm
    rw [flight] at rides
    split at rides
    · rename_i same
      subst same
      have waits := fewer rides
      refine left (List.mem_append_right _ waits) fun _ same => ?_
      exact (seated.ordered _).not_waiting holds (same ▸ waits)
    · rename_i other
      exact left rides fun same => absurd same other
  · rcases seat_update waits with ⟨-, same⟩ | ⟨other, waits⟩
    · exact nomatch same
    · rw [flight]
      split
      · rename_i same
        have rides := seated.queued waits
        rw [same] at rides
        rw [same]
        rcases rides with landed | rides
        · exact nomatch holds.symm.trans ((seated.ordered _).landed landed)
        · unfold Flight.riders at rides
          rw [holds, List.mem_append] at rides
          rcases rides with first | waiting
          · have sits' : (seats i).berth? = some b' := by rw [waits]; rfl
            exact absurd (by simpa using first) (others other sits')
          · exact served _ waiting
      · exact seated.queued waits
  · rcases seat_update flies with ⟨-, same⟩ | ⟨other, flies⟩
    · exact nomatch same
    · have holds' := seated.flying flies
      have sits' : (seats i).berth? = some b' := by rw [flies]; rfl
      rw [flight, if_neg]
      · exact holds'
      · intro same
        rw [same, holds] at holds'
        exact others other sits' (Option.some.inj holds').symm

end Seated

/-! ## Passages -/

/-- What one call can do with its seat in one stretch, once it has boarded. An attempt that it
begins has a `fresh` token. -/
inductive Passage (f : Flights) (fresh : Token) : Seat → Flights → Seat → Prop where
  | idle (seat : Seat) : Passage f fresh seat f seat
  | share {b : Berth} {record : CodeRecord}
      (landed : (f.flight b.number).result = some record) :
      Passage f fresh (.queued b) (f.leave b.key b.number) .none
  | takeOff {b : Berth} (due : (f.flight b.number).holder = some b.caller) :
      Passage f fresh (.queued b) f (.flying b fresh)
  | land {seat : Seat} {b : Berth} (sits : seat.berth? = some b)
      (holds : (f.flight b.number).holder = some b.caller) (record : CodeRecord) :
      Passage f fresh seat ((f.land b.number record).leave b.key b.number) .none
  | handOver {seat : Seat} {b : Berth} (sits : seat.berth? = some b)
      (holds : (f.flight b.number).holder = some b.caller) :
      Passage f fresh seat ((f.handOver b.number).leave b.key b.number) .none

theorem Seated.passage {fresh : Token} {before seat : Seat} {j : Nat} (seated : f.Seated seats)
    (now : seats j = before) (passage : f.Passage fresh before f' seat) :
    f'.Seated (Function.update seats j seat) := by
  cases passage with
  | idle =>
      rw [← now, Function.update_eq_self]
      exact seated
  | share landed =>
      refine (seated.alight now ?_).sheds sheds_leave
      rw [landed]
      rfl
  | takeOff due => exact seated.takeOff now due fresh
  | land sits holds record =>
      refine seated.depart (now ▸ sits) holds (fun _ => rfl) (.land record) ?_ fun _ _ => .inl rfl
      exact fun _ => nofun
  | handOver sits holds =>
      refine seated.depart (now ▸ sits) holds (fun _ => rfl)
        ((seated.ordered _).handOver holds) ?_ fun caller waits => .inr ?_
      · rw [Flight.Ordered.riders_handOver]
        exact List.Subset.refl _
      · rwa [Flight.Ordered.riders_handOver]

end Flights

end TemplateCache
