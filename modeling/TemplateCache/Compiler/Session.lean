import TemplateCache.Compiler.Compile
import TemplateCache.Compiler.Upkeep
import TemplateCache.Compiler.Watching

/-!
# Sessions

Calls that are made of one compiler at the same time. A call works in stretches: from when it is
made, or gets its turn, to where it has to wait next. Any order of events is a session, so a
property of all sessions holds in every interleaving.
-/

namespace TemplateCache

/-- What a client, or a watch, asks of a compiler. -/
inductive Command where
  | compile (input : CompileInput)
  | register (name : String) (content : Content)
  | unregister (name : String)
  | scan
  | clear (all : Bool)
  | cancel
  | watch
  /-- A watched path has settled. -/
  | settle (path : Path) (token : Token)

inductive Answer where
  | code (record : CodeRecord)
  | content (record : ContentRecord)
  | count (number : Nat)
  | root (path : Path)
  | nothing

/-- The work that a command comes to. -/
def Command.work {π : Type} (c : Compiler π) : Command → Compiling π Answer
  | compile input => Answer.code <$> c.compile input
  | register name content => Answer.content <$> c.register name content
  | unregister name => (fun _ => Answer.nothing) <$> c.unregister name
  | scan => Answer.count <$> c.scan
  | clear all => (fun _ => Answer.nothing) <$> c.clear all
  | cancel => (fun _ => Answer.nothing) <$> Compiling.modify Compiler.cancel
  | watch => Answer.root <$> c.watch
  | settle path token => (fun _ => Answer.nothing) <$> c.settlePath path token

/-- A call, and what is left of its work. -/
structure Call (π : Type) where
  command : Command
  job : Job (Bench π) (Except CompileError Answer)

/-- The answer to a call that has ended. -/
def Call.answer? {π : Type} (call : Call π) : Option (Except CompileError Answer) :=
  match call.job with
  | .done answer => some answer
  | _ => none

structure Session (π : Type) where
  bench : Bench π
  /-- All calls in the order in which they were made. -/
  calls : List (Call π) := []

namespace Session

variable {π : Type}

inductive Event (π : Type) where
  /-- A call is made. -/
  | ask (command : Command)
  /-- A call goes on. -/
  | turn (number : Nat)
  /-- Time goes by, and others who use the store or its medium do as they like. They leave the
  renderers in the overlay alone, which only compilers put there. -/
  | elsewhere (content : KeyMap ContentRecord) (own : π) (environment : Environment)

def start (site : Site π) : Session π := { bench := Compiler.start site }

def step (c : Compiler π) (s : Session π) : Event π → Session π
  | .ask command =>
    let (job, bench) := (command.work c).run.advance s.bench
    ⟨bench, s.calls ++ [⟨command, job⟩]⟩
  | .turn number =>
    match s.calls[number]? with
    | none => s
    | some call =>
      let (job, bench) := (Task.unpaused call.job).advance s.bench
      ⟨bench, s.calls.set number { call with job := job }⟩
  | .elsewhere content own environment =>
    let overlay := { s.bench.site.overlay with content := content }
    { s with bench := { s.bench with site := ⟨overlay, own, environment⟩ } }

def run (c : Compiler π) (s : Session π) (events : List (Event π)) : Session π :=
  events.foldl (step c) s

end Session
end TemplateCache
