import TemplateCache.Unicode.Runs

/-!
# Case folding

Characters that differ only in case fold to the same character. `CodeSet.folded` adds to a set all
characters that fold like one of it.
-/

namespace TemplateCache.Unicode

/-- Runs of characters at a fixed distance from what they fold to: how far the first is from that of
the run before, how many there are, the step between them, and the distance, which is doubled, and
odd where it goes down. -/
def foldRows : List String := [
  "CnBabCmEmbbCHqlxbCmyhbCmBoyccBydcchiccrxccBubbJhbdccgbbUpcbbQebcccebbPwbbbcccbPucbbcdbbGcbbb",
  "PobbbPqbbbccbbPubbbPycbbQgbbbQcbbbcebbQgbbbQkcbbQmbdccgbbQubbbccbbQudbbccbbQubbbcccbQscccceb",
  "bQwbbbcebbcibbebbbccbbebbbccbbebjcctjcctbbebcccebbHlbbbEhbuccBobbJzcjccybbBFYkbbbccbbMnbbbBF",
  "YedbbccbbOzbbbFibbbFmbfccJvbbIyBrcccgbbcjbbIyhbbCycdbCwebbEyccbEwdrbCmsjbCmBfbbcnbbqbbbChbbb",
  "BxebbBdbbbBrcmccybbEdbbbDrdbbEpbbbExcbbccbbnbbbcddbJzdqbGeqBgbCmDcrccBqBbccCcbbBebhccpBwccDt",
  "BmbDsEIpBmbVMuBnbbVMugbbVMuBFfgbpDGabbSKpbbbSKnbbbSJvbcbSJrcbbSJtbbbSJfbbbSHjbbbEAIwbbbchBrb",
  "IXjBtdbIXjMlCxccFzbbEldbbWNtcBwccEaibpqgbpqibpqibpqgbprecppibpBgibpqibpqibpqcbpccbFrcbbrcbbV",
  "FtkebGpebbrhbbVKnfcbpccbHrjbbVJhfcbpccbIpcbbnmcbJvccbJrcbbrLmbbWGfebbYUvbbbYLnhbbCeBuqbBgBjb",
  "bcBFnBabCaCTuBwbDsDsbbccbbBFUjbbbLHjbbbBFTdddccgbbBFXfbbbBFUvbbbBFXlbbbBFXjcbbcdbbcjcbBFZxcB",
  "yccEdccchbbcBTYkxccCmoccGghccqBfccCtcccebbEANvbfccnbbccbbEVChdcccgkccubbEVElbbbEVFhbbbEVEzbb",
  "bEVEfbbbEVElcbbEVApbbbEVClbbbEVAvbbbCTkbiccqbbDrbbbEVEjbbbEARvbcccebbEVHdbbbcebbcgdccgbbEVXx",
  "zbbcBIhDcbEKZnBEDpbbcBOmBabCmBVzBobDcGuBkbDcHklbDampbDaqhbDaicbDaCQeBzbEyIawbCmEHkBgbCmBGLcB",
  "gbCmBUMqBibCq"]

/-- A character and the one it folds to. -/
structure Fold where
  source : Nat
  target : Nat
  deriving DecidableEq, Repr

def foldRun (first count step distance : Nat) : List Fold :=
  (List.range count).map fun i =>
    let source := first + i * step
    ⟨source, if distance % 2 = 0 then source + distance / 2 else source - (distance + 1) / 2⟩

def foldsFrom : List Nat → (start : Nat) → List Fold
  | ahead :: count :: step :: distance :: rest, start =>
    foldRun (start + ahead) count step distance ++ foldsFrom rest (start + ahead)
  | _, _ => []

def folds : List Fold := foldsFrom (numbers foldRows) 0

/-- Puts characters that fold to the same one together, `target` being that of the last orbit. -/
def orbitsFrom : (target : Nat) → (orbit : List Nat) → List Fold → List (List Nat)
  | target, orbit, [] => [target :: orbit]
  | target, orbit, f :: rest =>
    if f.target = target then orbitsFrom target (f.source :: orbit) rest
    else (target :: orbit) :: orbitsFrom f.target [f.source] rest

/-- The sets of characters that fold alike, where these are more than one. -/
def orbits : List (List Nat) :=
  match folds.mergeSort fun a b => a.target ≤ b.target with
  | [] => []
  | f :: rest => orbitsFrom f.target [f.source] rest

end TemplateCache.Unicode

namespace TemplateCache.CodeSet

/-- The set with all characters that fold like one of it. -/
def folded (s : CodeSet) : CodeSet :=
  s.union (ofCodes ((Unicode.orbits.filter fun orbit => orbit.any s.containsCode).flatten))

/-- The set with the other cases of its ASCII letters. -/
def foldedAscii (s : CodeSet) : CodeSet :=
  let capitals := s.inter (range 0x41 0x5a)
  let smalls := s.inter (range 0x61 0x7a)
  unions [s, ⟨capitals.ranges.map fun r => ⟨r.first + 32, r.last + 32⟩⟩,
    ⟨smalls.ranges.map fun r => ⟨r.first - 32, r.last - 32⟩⟩]

end TemplateCache.CodeSet
