import TemplateCache.Text.Blank
import TemplateCache.Text.Hex

/-!
# Blanks, comments and numbers in patterns

Verbose patterns may have blanks and comments between their characters. The functions here pass over
them where `verbose` says that they are ignored.
-/

namespace TemplateCache.Pattern

/-- Passes over what is ignored; `comment` tells that a comment is open. -/
def skipFrom (verbose comment : Bool) : List Char → List Char
  | [] => []
  | c :: rest =>
    if !verbose then c :: rest
    else if comment then skipFrom verbose (c != '\n') rest
    else if Text.isBlank c then skipFrom verbose false rest
    else if c == '#' then skipFrom verbose true rest
    else c :: rest

def skip (verbose : Bool) (input : List Char) : List Char := skipFrom verbose false input

/-- The characters up to the first that fails a test, without what is ignored, and the rest from
that one on. -/
def takeFrom (verbose comment : Bool) (accepts : Char → Bool) :
    List Char → List Char × List Char
  | [] => ([], [])
  | c :: rest =>
    if comment then takeFrom verbose (c != '\n') accepts rest
    else if verbose && Text.isBlank c then takeFrom verbose false accepts rest
    else if verbose && c == '#' then takeFrom verbose true accepts rest
    else if accepts c then
      let (taken, more) := takeFrom verbose false accepts rest
      (c :: taken, more)
    else ([], c :: rest)

def take (verbose : Bool) (accepts : Char → Bool) (input : List Char) : List Char × List Char :=
  takeFrom verbose false accepts input

/-- The first character that is no blank, nor the first number sign behind blanks. -/
def firstVisible? (sign : Bool) : List Char → Option Char
  | [] => none
  | c :: rest =>
    if Text.isBlank c then firstVisible? sign rest
    else if !sign && c == '#' then firstVisible? true rest
    else some c

/-- Looks at the next character. A look does not pass over the text of a comment. -/
def peek? (verbose : Bool) (input : List Char) : Option Char :=
  if verbose then (firstVisible? false input).orElse fun _ => input.head? else input.head?

/-! ## Numbers -/

/-- The character whose code point some hexadecimal digits write. -/
def hexChar? (digits : List Char) : Option Char :=
  let n := digits.foldl (fun n c => n * 16 + (Text.hexValue? c).getD 0) 0
  if !digits.isEmpty && n.isValidChar then some (Char.ofNat n) else none

/-- Exactly `count` hexadecimal digits. -/
def takeHex? (verbose : Bool) : (count : Nat) → List Char → Option (List Char × List Char)
  | 0, input => some ([], input)
  | count + 1, input =>
    match skip verbose input with
    | [] => none
    | c :: rest =>
      if Text.isHexDigit c then
        (takeHex? verbose count rest).map fun (digits, more) => (c :: digits, more)
      else none

/-- The greatest number of times that can be written. -/
def countLimit : Nat := UInt32.size - 1

/-- A number in decimal digits, with blanks around them. -/
def number? (verbose : Bool) (input : List Char) : Option (Nat × List Char) :=
  let (digits, rest) := take verbose Char.isDigit (input.dropWhile Text.isBlank)
  let n := digits.foldl (fun n c => n * 10 + (c.toNat - '0'.toNat)) 0
  if digits.isEmpty || countLimit < n then none else some (n, rest.dropWhile Text.isBlank)

end TemplateCache.Pattern
