/-!
# Durations

A span of time in nanoseconds. Its text uses the largest of the units s, ms, µs and ns that is at
least one, with decimals and without zeros at their end. Timers run on whole milliseconds, so a
deadline is rounded up.
-/

namespace TemplateCache

structure Duration where
  nanoseconds : Nat
  deriving DecidableEq, Repr, Inhabited

namespace Duration

def ofMilliseconds (ms : Nat) : Duration := ⟨ms * 1000000⟩

/-- Whole milliseconds, rounded up. -/
def ticks (d : Duration) : Nat := (d.nanoseconds + 999999) / 1000000

/-- No timer runs for more than thirty years of 365 days, in milliseconds. -/
def longestTimer : Nat := 30 * 365 * 86400 * 1000

/-- How long a timer runs that is set to a number of milliseconds. -/
def timer (ms : Nat) : Nat := min ms longestTimer

/-- `count` digits of a number, with zeros in front. -/
def padded (count n : Nat) : List Char :=
  let digits := Nat.toDigits 10 n
  List.replicate (count - digits.length) '0' ++ digits

/-- A number of units, each of `10 ^ places` nanoseconds, with the decimals that are needed. -/
def inUnit (n places : Nat) (unit : String) : String :=
  let whole := Nat.pow 10 places
  let decimals := ((padded places (n % whole)).reverse.dropWhile (· == '0')).reverse
  let point := if decimals.isEmpty then [] else '.' :: decimals
  toString (n / whole) ++ String.ofList point ++ unit

def text (d : Duration) : String :=
  let n := d.nanoseconds
  if 1000000000 ≤ n then inUnit n 9 "s"
  else if 1000000 ≤ n then inUnit n 6 "ms"
  else if 1000 ≤ n then inUnit n 3 "µs"
  else inUnit n 0 "ns"

end Duration
end TemplateCache
