/-!
# Punycode

Text in letters, digits and hyphens. Its ASCII characters come first; behind a hyphen follow the
other ones in the order of their code points, each as the number of steps from the one before. A
step leads to the next place of the text, and from the end of the text to the next code point.
Numbers are written in digits to base 36, the lowest first, where a digit below a threshold is the
last one. The thresholds follow from a bias, which is adapted to the size of the numbers.
-/

namespace TemplateCache.Domain.Punycode

def digitChar (d : Nat) : Char :=
  if d < 26 then Char.ofNat (0x61 + d) else Char.ofNat (0x30 + d - 26)

def digit? (c : Char) : Option Nat :=
  if 'a' ≤ c ∧ c ≤ 'z' then some (c.toNat - 0x61)
  else if c.isDigit then some (c.toNat - 0x30 + 26)
  else none

/-- The threshold of the digit at a place; places are counted from one. -/
def threshold (place bias : Nat) : Nat :=
  if 36 * place ≤ bias then 1 else if bias + 26 ≤ 36 * place then 26 else 36 * place - bias

theorem one_le_threshold (place bias : Nat) : 1 ≤ threshold place bias := by
  unfold threshold
  split
  · exact Nat.le_refl 1
  · split <;> omega

theorem threshold_le (place bias : Nat) : threshold place bias ≤ 26 := by
  unfold threshold
  split
  · omega
  · split <;> omega

/-- The bias for numbers of about the size of `n`. -/
def biasFor (n bias : Nat) : Nat :=
  if 455 < n then biasFor (n / 35) (bias + 36) else bias + 36 * n / (n + 38)
termination_by n
decreasing_by omega

/-- The bias behind a number that leads to one of `count` places. The first number tells less of
those that follow, since it starts from the end of ASCII. -/
def adapted (n count : Nat) (isFirst : Bool) : Nat :=
  let n := if isFirst then n / 700 else n / 2
  biasFor (n + n / count) 0

/-! ## Encoding -/

/-- The digits of a number from a place on. -/
def digits (bias place n : Nat) : List Char :=
  let t := threshold place bias
  if n < t then [digitChar n]
  else digitChar (t + (n - t) % (36 - t)) :: digits bias (place + 1) ((n - t) / (36 - t))
termination_by n
decreasing_by
  have low := one_le_threshold place bias
  have high := threshold_le place bias
  have quotient := Nat.div_le_self (n - threshold place bias) (36 - threshold place bias)
  omega

/-- How far a text is encoded: the steps since the last number, the bias, and the number of
characters that are done. -/
structure Encoder where
  steps : Nat
  bias : Nat
  done : Nat
  output : List Char

/-- Passes over the text for the character with code point `n`. -/
def encodePass (ascii n : Nat) : Encoder → List Nat → Encoder
  | e, [] => e
  | e, m :: rest =>
    if m < n then encodePass ascii n { e with steps := e.steps + 1 } rest
    else if m = n then
      let output := e.output ++ digits e.bias 1 e.steps
      let bias := adapted e.steps (e.done + 1) (e.done = ascii)
      encodePass ascii n ⟨0, bias, e.done + 1, output⟩ rest
    else encodePass ascii n e rest

/-- Encodes the characters with the given code points, in ascending order from `n` on. -/
def encodeFrom (ascii : Nat) (text : List Nat) : (codes : List Nat) → (n : Nat) → Encoder → Encoder
  | [], _, e => e
  | m :: codes, n, e =>
    let e := { e with steps := e.steps + (m - n) * (e.done + 1) }
    let e := encodePass ascii m e text
    encodeFrom ascii text codes (m + 1) { e with steps := e.steps + 1 }

def firstCode : Nat := 0x80

def firstBias : Nat := 72

def encode (text : List Char) : List Char :=
  let ascii := text.filter (·.toNat < firstCode)
  let output := if ascii.isEmpty then [] else ascii ++ ['-']
  let text := text.map Char.toNat
  let codes := ((text.filter (firstCode ≤ ·)).mergeSort (· ≤ ·)).eraseDups
  (encodeFrom ascii.length text codes firstCode ⟨0, firstBias, ascii.length, output⟩).output

/-! ## Decoding -/

/-- Numbers stay below this bound. -/
def bound : Nat := UInt32.size

/-- Adds a number in digits to `n`; `weight` is that of the digit at the place. -/
def readNumber? (bias : Nat) : (place weight n : Nat) → List Char → Option (Nat × List Char)
  | _, _, _, [] => none
  | place, weight, n, c :: rest =>
    match digit? c with
    | none => none
    | some d =>
      let n := n + d * weight
      let t := threshold place bias
      let weight' := weight * (36 - t)
      if bound ≤ n then none
      else if d < t then some (n, rest)
      else if bound ≤ weight' then none
      else readNumber? bias (place + 1) weight' n rest

/-- Puts in the characters that numbers lead to, the first one `start` places behind that of the
text for code point `n`. -/
def decodeFrom : (fuel : Nat) → (bias start n : Nat) → (text : List Char) → List Char →
    Option (List Char)
  | _, _, _, _, text, [] => some text
  | 0, _, _, _, _, _ => none
  | fuel + 1, bias, start, n, text, input =>
    match readNumber? bias 1 1 start input with
    | none => none
    | some (stop, rest) =>
      let count := text.length + 1
      let n := n + stop / count
      let place := stop % count
      if !n.isValidChar then none
      else
        let text := text.take place ++ Char.ofNat n :: text.drop place
        decodeFrom fuel (adapted (stop - start) count (start = 0)) (place + 1) n text rest

/-- The last hyphen ends the ASCII characters, unless it is the first character of all. -/
def decode? (input : List Char) : Option (List Char) :=
  let digits := (input.reverse.takeWhile (· != '-')).reverse
  let front := input.take (input.length - digits.length - 1)
  if front.any (firstCode ≤ ·.toNat) then none
  else
    let rest := if front.isEmpty then input else digits
    decodeFrom (input.length + 1) firstBias 0 firstCode front rest

end TemplateCache.Domain.Punycode
