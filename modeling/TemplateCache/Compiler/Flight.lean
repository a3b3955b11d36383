import TemplateCache.Record

/-!
# Shared compiles

Callers that ask for one code key at the same time share a flight: the first caller compiles and
the others wait. Where it fails, the caller that has waited longest compiles in its place; where it
succeeds, all of them take the result. A key leads to at most one flight, and a flight that a key
no longer leads to goes on for those who share it.
-/

namespace TemplateCache

structure Flight where
  /-- The key it was made for. -/
  key : String := ""
  result : Option CodeRecord := none
  /-- The caller that compiles. -/
  holder : Option Nat := none
  /-- The callers that wait, in order. -/
  waiting : List Nat := []

structure Flights where
  /-- The number of the flight that each key leads to. -/
  current : KeyMap Nat := ∅
  all : List Flight := []
  /-- How many callers there were. -/
  callers : Nat := 0

namespace Flights

instance : Inhabited Flights := ⟨{}⟩

def flight (f : Flights) (number : Nat) : Flight := f.all.getD number {}

def update (f : Flights) (number : Nat) (change : Flight → Flight) : Flights :=
  { f with all := f.all.modify number change }

/-- The flight that a key leads to, which is a new one if there is none. -/
def board (f : Flights) (key : String) : Nat × Flights :=
  match f.current.get? key with
  | some number => (number, f)
  | none =>
    (f.all.length,
      { f with current := f.current.insert key f.all.length, all := f.all ++ [{ key := key }] })

/-- Gives a caller its number. It compiles if nobody does, and waits otherwise. -/
def enter (f : Flights) (number : Nat) : Nat × Flights :=
  let caller := f.callers
  (caller, ({ f with callers := caller + 1 }).update number fun flight =>
    if flight.holder.isNone then { flight with holder := some caller }
    else { flight with waiting := flight.waiting ++ [caller] })

/-- Whether a caller need not wait: there is a result, or it is its turn. -/
def isDue (f : Flights) (number caller : Nat) : Bool :=
  let flight := f.flight number
  flight.result.isSome || flight.holder == some caller

/-- Ends a flight with a result. -/
def land (f : Flights) (number : Nat) (record : CodeRecord) : Flights :=
  f.update number fun flight =>
    { flight with result := some record, holder := none, waiting := [] }

/-- Makes it the turn of the next caller. -/
def handOver (f : Flights) (number : Nat) : Flights :=
  f.update number fun flight =>
    { flight with holder := flight.waiting.head?, waiting := flight.waiting.tail }

/-- Lets the next callers of a key start over. -/
def detach (f : Flights) (key : String) : Flights := { f with current := f.current.erase key }

/-- Detaches a key that still leads to the given flight. -/
def leave (f : Flights) (key : String) (number : Nat) : Flights :=
  if f.current.get? key = some number then f.detach key else f

end Flights
end TemplateCache
