/-!
# Batches of independent operations

Every operation of a batch runs. The outcome is the list of all values, or a failure that keeps one
slot for each operation in the order of submission: `single` names the only error, `aggregate`
lists all of them. `collect` is the law for finished outcomes, and `Board` fills the slots in
whatever order the operations finish.
-/

namespace TemplateCache

inductive BatchFailure (α ε : Type) where
  | single (index : Nat) (error : ε) (results : List (Except ε α))
  | aggregate (errors : List ε) (results : List (Except ε α))

namespace BatchFailure

variable {α β ε : Type}

def results : BatchFailure α ε → List (Except ε α)
  | single _ _ results => results
  | aggregate _ results => results

def errors : BatchFailure α ε → List ε
  | single _ error _ => [error]
  | aggregate errors _ => errors

/-- Changes the values of the operations that succeeded. -/
def mapValues (f : α → β) : BatchFailure α ε → BatchFailure β ε
  | single index error results => single index error (results.map (·.map f))
  | aggregate errors results => aggregate errors (results.map (·.map f))

/-- The text of a failure, given that of its errors. -/
def message (errorText : ε → String) : BatchFailure α ε → String
  | single index error _ => "operation #" ++ toString index ++ " failed: " ++ errorText error
  | aggregate errors results =>
    errors.foldl (fun text e => text ++ "; " ++ errorText e)
      (toString errors.length ++ " of " ++ toString results.length ++ " operations failed")

end BatchFailure

namespace Batch

variable {α ε : Type}

def failuresOf (outcomes : List (Except ε α)) : List (Nat × ε) :=
  outcomes.zipIdx.filterMap fun (outcome, index) =>
    match outcome with
    | .ok _ => none
    | .error e => some (index, e)

def valuesOf (outcomes : List (Except ε α)) : List α :=
  outcomes.filterMap fun outcome => outcome.toOption

/-- The outcome of a batch whose operations have all finished. -/
def collect (outcomes : List (Except ε α)) : Except (BatchFailure α ε) (List α) :=
  match failuresOf outcomes with
  | [] => .ok (valuesOf outcomes)
  | [(index, e)] => .error (.single index e outcomes)
  | failures => .error (.aggregate (failures.map (·.2)) outcomes)

/-- The slots of a batch that is running. -/
abbrev Board (α ε : Type) := List (Option (Except ε α))

/-- Enters the outcome of the operation at a place. -/
def Board.finish (board : Board α ε) (index : Nat) (outcome : Except ε α) : Board α ε :=
  board.set index (some outcome)

/-- The outcome of a batch once every slot is filled. -/
def Board.outcome? (board : Board α ε) : Option (Except (BatchFailure α ε) (List α)) :=
  (board.mapM id).map collect

/-- Runs a batch whose operations finish in the given order. -/
def finishAll (count : Nat) (finished : List (Nat × Except ε α)) :
    Option (Except (BatchFailure α ε) (List α)) :=
  Board.outcome? (finished.foldl (fun board f => Board.finish board f.1 f.2)
    (List.replicate count none))

end Batch
end TemplateCache
