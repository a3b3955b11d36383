import TemplateCache.Batch
import TemplateCache.Duration
import TemplateCache.Naming.Resolver

/-!
# Errors of stores

Each constructor is a cause; `message` gives its wording.
-/

namespace TemplateCache

namespace NameError

def message : NameError → String
  | empty => "template name must not be empty"
  | invalidPattern pattern => "invalid bypass pattern `" ++ pattern ++ "`"

end NameError

/-- What can go wrong with files. -/
inductive FileErrorKind where
  | notFound
  | isADirectory
  | notADirectory
  | alreadyExists
  | invalidName
  | tooManyLinks
  | notUtf8
  | invalidInput
  /-- The last part of the path is a dot, which is no name. -/
  | unnamed
  deriving DecidableEq, Repr

namespace FileErrorKind

def text : FileErrorKind → String
  | notFound => "No such file or directory (os error 2)"
  | isADirectory => "Is a directory (os error 21)"
  | notADirectory => "Not a directory (os error 20)"
  | alreadyExists => "File exists (os error 17)"
  | invalidName => "File name too long (os error 36)"
  | tooManyLinks => "Too many levels of symbolic links (os error 40)"
  | notUtf8 => "stream did not contain valid UTF-8"
  | invalidInput => "file name contained an unexpected NUL byte"
  | unnamed => "Invalid argument (os error 22)"

end FileErrorKind

/-- A file error; one met on a walk over a tree names the place. -/
structure FileError where
  kind : FileErrorKind
  walked : Option String := none
  deriving DecidableEq, Repr

namespace FileError

def message (e : FileError) : String :=
  match e.walked with
  | none => e.kind.text
  | some path => "IO error for operation on " ++ path ++ ": " ++ e.kind.text

end FileError

/-- What failed between a store and its backend. -/
inductive MediumError where
  | io (error : FileError)
  | http (status : Option Nat) (url reason : String)
  | engine (reason : String)
  /-- A stored document that cannot be read. -/
  | codec
  deriving DecidableEq, Repr

namespace MediumError

def message : MediumError → String
  | io e => "I/O error: " ++ e.message
  | http status _ reason =>
    "HTTP error" ++ status.elim "" (fun s => " " ++ toString s) ++ ": " ++ reason
  | engine reason => "key/value error: " ++ reason
  | codec => "codec error: <json>"

end MediumError

inductive StoreError where
  | naming (error : NameError)
  | medium (backend target : String) (detail : MediumError)
  | cancelled (operation : String)
  | timedOut (operation : String) (after : Duration)
  /-- Entries of a bulk operation failed. -/
  | batch (failure : BatchFailure String StoreError)

namespace StoreError

mutual

def message : StoreError → String
  | naming e => e.message
  | medium backend target detail =>
    backend ++ " backend failed for `" ++ target ++ "`: " ++ detail.message
  | cancelled operation => operation ++ " was cancelled"
  | timedOut operation after => operation ++ " timed out after " ++ after.text
  | batch failure => batchMessage failure

/-- The wording of `BatchFailure.message` for these errors. -/
def batchMessage : BatchFailure String StoreError → String
  | .single index error _ => "operation #" ++ toString index ++ " failed: " ++ message error
  | .aggregate errors results =>
    toString errors.length ++ " of " ++ toString results.length ++ " operations failed" ++
      listMessages errors

def listMessages : List StoreError → String
  | [] => ""
  | e :: rest => "; " ++ message e ++ listMessages rest

end

def status? : StoreError → Option Nat
  | medium _ _ (.http status _ _) => status
  | _ => none

end StoreError
end TemplateCache
