import TemplateCache.KeyMap

/-!
# Quiet periods

A changed path is acted upon once it has been left alone for a while. Every event starts a timer
and counts up the generation of its path; a timer that runs out settles the path only if no later
event has counted on.
-/

namespace TemplateCache

/-- A running timer. -/
structure Timer where
  path : String
  generation : Nat
  due : Nat
  deriving DecidableEq, Repr

structure Debounce where
  generations : KeyMap Nat := ∅
  timers : List Timer := []
  deriving Inhabited

namespace Debounce

/-- How many milliseconds a path has to be left alone. -/
def window : Nat := 100

/-- An event of a path at some time. -/
def arrive (d : Debounce) (path : String) (now : Nat) : Debounce :=
  let generation := (d.generations.get? path).getD 0 + 1
  { generations := d.generations.insert path generation
    timers := d.timers ++ [⟨path, generation, now + window⟩] }

/-- Lets a timer run out. Tells whether its path has settled. -/
def ring (d : Debounce) (timer : Timer) : Bool × Debounce :=
  if d.generations.get? timer.path = some timer.generation then
    (true, { d with generations := d.generations.erase timer.path })
  else (false, d)

/-- Lets timers run out in turn. Gives the paths that have settled. -/
def ringAll (d : Debounce) : List Timer → List String × Debounce
  | [] => ([], d)
  | timer :: rest =>
    match d.ring timer with
    | (true, d) =>
      let (paths, d) := d.ringAll rest
      (timer.path :: paths, d)
    | (false, d) => d.ringAll rest

/-- Lets the timers run out that are due. -/
def settle (d : Debounce) (now : Nat) : List String × Debounce :=
  let (ended, running) := d.timers.partition fun timer => timer.due ≤ now
  { d with timers := running }.ringAll ended

end Debounce
end TemplateCache
