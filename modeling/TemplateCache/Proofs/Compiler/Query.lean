import TemplateCache.Proofs.Compiler.Serial
import TemplateCache.Proofs.Naming
import TemplateCache.Proofs.Store.Reading

/-!
# Queries

What a client asks that wants content or code: it registers, compiles, and looks up what is
registered. Queries that are made one after the other are all answered, and where the policy does
not let a compile write, none of their steps leaves a trace in the media.
-/

namespace TemplateCache

open Job

variable {π α β : Type}

inductive Query where
  | register (name : String) (content : Content)
  | compile (input : CompileInput)
  /-- What is registered under a name. -/
  | registered (name : String)

/-- The work that a query comes to. A name that is not registered is answered with nothing. -/
def Query.work (c : Compiler π) : Query → Compiling π Answer
  | register name content => Command.work c (.register name content)
  | compile input => Command.work c (.compile input)
  | registered name => (fun found => found.elim .nothing .content) <$>
      Compiling.gets (·.state.registry.get? name)

namespace Compiler

/-- Answers to queries, each of which is made when the one before has ended. Others may work at any
time in between. -/
inductive Serves (c : Compiler π) (others : Bench π → Bench π → Prop) :
    List Query → Bench π → List (Except CompileError Answer) → Bench π → Prop where
  | nil {b : Bench π} : Serves c others [] b [] b
  | cons {query : Query} {queries : List Query} {b u v d : Bench π}
      {answer : Except CompileError Answer} {answers : List (Except CompileError Answer)}
      (before : others b u) (works : (query.work c).run.Runs others u answer v)
      (rest : Serves c others queries v answers d) :
      Serves c others (query :: queries) b (answer :: answers) d

/-- What the media hold is as it was, if the policy does not let a compile write. -/
def Guards (c : Compiler π) (b d : Bench π) : Prop :=
  c.settings.policy.mayWrite = false → b.site.Unwritten d.site

theorem guards_of_eq {c : Compiler π} {b d : Bench π}
    (same : d.site.environment = b.site.environment) : c.Guards b d :=
  fun _ => Site.unwritten_of_eq same

end Compiler

/-! ## Steady compiles -/

namespace Compiling

section

variable {change : Bench π → Bench π → Prop}

theorem steady_step {f : Bench π → α × Bench π} (h : ∀ b, change b (f b).2) :
    (step f).run.Steady change := steady_lift (steady_modifyGet h)

theorem steady_modify {f : Bench π → Bench π} (h : ∀ b, change b (f b)) :
    (modify f).run.Steady change := ⟨fun _ => trivial, fun b => ⟨h b, trivial⟩⟩

theorem steady_gets (same : ∀ b, change b b) (f : Bench π → α) : (gets f).run.Steady change :=
  ⟨fun _ => trivial, fun b => ⟨same b, trivial⟩⟩

theorem steady_ofExcept (r : Except CompileError α) : (ofExcept r).run.Steady change :=
  steady_returns r

theorem steady_storing {job : Storing π α} {works : Site π → Site π → Prop}
    (h : job.run.Steady works) (on : ∀ b site, works b.site site → change b (b.withSite site)) :
    (storing job).run.Steady change :=
  steady_lift (h.on (fun _ _ => rfl) on)

end

end Compiling

namespace Compiler

open Compiling

variable {c : Compiler π} {address : Address} {codeKey contentKey : String}
  {given : Option ContentRecord} {since : Nat} {token : Token}

section

variable (fenced : c.store.Fenced)

include fenced

theorem steady_storedCode : (c.storedCode address codeKey token).run.Steady c.Guards := by
  unfold storedCode
  split
  · have read : (storing (c.store.readCode address token)).run.Steady c.Guards :=
      steady_storing (fenced.readCode address token) fun _ _ unwritten _ => unwritten
    refine read.bindExcept fun found => ?_
    split
    · exact steady_pure _
    · exact steady_throw _
    · exact steady_throw _
    · exact steady_pure _
  · exact (steady_gets (fun _ => guards_of_eq rfl) _).bindExcept fun _ => steady_pure _

theorem steady_findCode : (c.findCode address codeKey token).run.Steady c.Guards := by
  unfold findCode
  refine (steady_storedCode fenced).bindExcept fun found => ?_
  split
  · exact steady_pure _
  · exact steady_pure _
  · refine steady_step fun b => guards_of_eq ?_
    dsimp only
    split
    · rfl
    · rfl

theorem steady_readContent : (c.readContent address contentKey token).run.Steady c.Guards := by
  have delivered (found : Option ContentRecord) :
      (c.deliver address contentKey found).run.Steady c.Guards := by
    cases found with
    | some record => exact steady_pure _
    | none => exact steady_throw _
  rw [readContent_eq]
  split
  · have read : (storing (c.store.readContent address token)).run.Steady c.Guards :=
      steady_storing (fenced.readContent address token) fun _ _ unwritten _ => unwritten
    refine read.bindExcept fun found => ?_
    split
    · exact delivered _
    · exact steady_throw _
  · exact (steady_gets (fun _ => guards_of_eq rfl) _).bindExcept fun _ => delivered _

theorem steady_findContent :
    (c.findContent address codeKey contentKey since token).run.Steady c.Guards := by
  unfold findContent
  refine (steady_gets (fun _ => guards_of_eq rfl) _).bindExcept fun registry => ?_
  split
  · exact steady_pure _
  · refine (steady_readContent fenced).bindExcept fun found => ?_
    refine (steady_modify fun b => guards_of_eq ?_).bindExcept fun _ => steady_pure _
    split
    · rfl
    · rfl

/-- Here a compile writes, if the policy lets it. -/
theorem steady_storeCode {renderer : Renderer} :
    (c.storeCode address codeKey renderer token).run.Steady c.Guards := by
  unfold storeCode
  split
  · rename_i writes
    have written : (storing (c.store.writeCode address renderer token)).run.Steady c.Guards :=
      steady_storing (fenced.writeCode address renderer token) fun _ _ _ walled =>
        absurd (walled.symm.trans writes) Bool.false_ne_true
    refine written.bindExcept fun found => ?_
    split
    · exact steady_pure _
    · exact steady_throw _
  · exact steady_pure _

theorem steady_compileContent {content : Content} :
    (c.compileContent address codeKey contentKey content since token).run.Steady c.Guards := by
  unfold compileContent
  refine Steady.bindExcept (steady_step fun b => guards_of_eq ?_) fun generated => ?_
  · rfl
  · split
    · exact steady_throw _
    · refine (steady_storeCode fenced).bindExcept fun record => ?_
      refine Steady.bindExcept (steady_modify fun b => guards_of_eq ?_) fun _ => steady_pure _
      rfl

theorem steady_compileRecord :
    (c.compileRecord address codeKey given since token).run.Steady c.Guards := by
  unfold compileRecord
  refine (steady_ofExcept _).bindExcept fun contentKey => ?_
  dsimp only
  split
  · exact Steady.bindExcept (steady_pure _) fun record => steady_compileContent fenced
  · exact (steady_findContent fenced).bindExcept fun record => steady_compileContent fenced

theorem steady_conclude (found : Option CodeRecord) :
    (c.conclude address codeKey given since token found).run.Steady c.Guards := by
  cases found with
  | some record =>
      refine Steady.bindExcept (steady_modify fun b => guards_of_eq ?_) fun _ => steady_pure _
      rfl
  | none => exact steady_compileRecord fenced

theorem steady_compileAnew : (c.compileAnew address codeKey given since).run.Steady c.Guards := by
  have drawn : (c.newToken).run.Steady c.Guards :=
    steady_step fun b _ => .of_media rfl rfl rfl
  rw [compileAnew_eq]
  refine drawn.bindExcept fun token => ?_
  refine (steady_gets (fun _ => guards_of_eq rfl) _).bindExcept fun cache => ?_
  refine Steady.bindExcept ?_ (steady_conclude fenced)
  split
  · exact steady_findCode fenced
  · exact steady_pure _

end

/-- Whoever takes part in a flight changes the flights, and else what the work changes. -/
theorem keeps_share {change : Bench π → Bench π → Prop} {work : Compiling π CodeRecord}
    (flies : ∀ b f, change b (b.withFlights f)) (same : ∀ b, change b b)
    (h : work.run.Keeps change) : (share codeKey work).run.Keeps change := by
  unfold share
  dsimp only
  refine Keeps.bindExcept (keeps_step fun b => ?_) fun seat => ?_
  · exact flies b fun f => (f.join codeKey).2
  refine Keeps.bindExcept (fun _ _ => trivial) fun _ => ?_
  refine (keeps_gets same _).bindExcept fun flown => ?_
  have leaves (result : Except CompileError CodeRecord) : (do
      let result ← (pure result : Compiling π (Except CompileError CodeRecord))
      Compiling.modify (·.onState fun s => { s with flights := s.flights.leave codeKey seat.1 })
      Compiling.ofExcept result : Compiling π CodeRecord).run.Keeps change := by
    refine Keeps.bindExcept (fun _ => trivial) fun result => ?_
    refine Keeps.bindExcept (keeps_modify fun b => ?_) fun _ => keeps_ofExcept _
    exact flies b fun f => f.leave codeKey seat.1
  split
  · exact leaves _
  · refine Keeps.bindExcept (keeps_lift h) fun result => ?_
    refine Keeps.bindExcept (keeps_modify fun b => ?_) fun _ => leaves _
    exact flies b _

theorem keeps_registerGiven (input : CompileInput) :
    (c.registerGiven input).run.Keeps c.Guards := by
  unfold registerGiven
  split
  · exact keeps_pure _
  · refine (keeps_ofExcept _).bindExcept fun key => ?_
    exact (keeps_step fun b => guards_of_eq (Bench.medium_register _).1).mapExcept

variable (fenced : c.store.Fenced)

include fenced

theorem keeps_compile (input : CompileInput) : (c.compile input).run.Keeps c.Guards := by
  unfold compile
  refine (keeps_ofExcept _).bindExcept fun codeKey => ?_
  refine (keeps_registerGiven input).bindExcept fun given => ?_
  refine (keeps_gets (fun _ => guards_of_eq rfl) _).bindExcept fun since => ?_
  refine (keeps_gets (fun _ => guards_of_eq rfl) _).bindExcept fun cache => ?_
  split
  · exact keeps_pure _
  · refine keeps_share (fun b f => guards_of_eq rfl) (fun _ => guards_of_eq rfl) ?_
    exact (steady_compileAnew fenced).keeps

/-- Alone, a compile comes to an end: its flight is its own, and the store answers. -/
theorem compile_ends {b : Bench π} (resting : b.Resting) (input : CompileInput) :
    (c.compile input).run.Ends (fun _ _ => True) b := by
  cases coded : input.address.key c.store.resolver .code with
  | error e =>
      rw [Session.compile_unnamed coded]
      exact ends_done trivial
  | ok codeKey =>
      obtain ⟨contentKey, keyed⟩ : ∃ key, input.address.key c.store.resolver .content = .ok key :=
        Resolver.resolve_ok (Resolver.not_blank coded)
      have rested : (b.accept c.store.resolver input.address contentKey input.content).2.Resting :=
        resting.accept rfl
      unfold compile
      refine Ends.after (finish_naming coded) (Ends.after (finish_registerGiven keyed) ?_)
      refine Ends.after (finish_gets _) (Ends.after (finish_gets _) ?_)
      split
      · exact ends_done trivial
      · refine ends_share (rested.free codeKey) ?_
        obtain ⟨r, d, ends⟩ := (steady_compileAnew fenced).timed.ends _
        exact ⟨r, d, ends, fun _ => trivial⟩

end Compiler

/-! ## Answers -/

namespace Query

variable {c : Compiler π}

theorem steady_register (name : String) (content : Content) :
    (work c (.register name content)).run.Steady c.Guards := by
  refine Steady.mapExcept ((Compiling.steady_ofExcept _).bindExcept fun key => ?_)
  exact Compiling.steady_step fun b => Compiler.guards_of_eq (Bench.medium_register _).1

theorem keeps (fenced : c.store.Fenced) (query : Query) : (query.work c).run.Keeps c.Guards := by
  cases query with
  | register name content => exact (steady_register name content).keeps
  | compile input => exact (Compiler.keeps_compile fenced input).mapExcept
  | registered name => exact (keeps_gets (fun _ => Compiler.guards_of_eq rfl) _).mapExcept

theorem ends (fenced : c.store.Fenced) {b : Bench π} (resting : b.Resting) (query : Query) :
    ∃ answer d, (query.work c).run.finish b = some (answer, d) := by
  cases query with
  | register name content => exact (steady_register name content).timed.ends b
  | compile input =>
      have answered : (work c (.compile input)).run.Ends (fun _ _ => True) b :=
        Ends.mapExcept (Compiler.compile_ends fenced resting input)
      obtain ⟨answer, d, ends, -⟩ := answered
      exact ⟨answer, d, ends⟩
  | registered name => exact ⟨_, _, rfl⟩

theorem resting (lawful : c.store.Lawful) {b d : Bench π} {answer : Except CompileError Answer}
    (rested : b.Resting) {query : Query}
    (runs : (query.work c).run.Runs Bench.Elsewhere b answer d) : d.Resting := by
  cases query with
  | register name content =>
      have does : c.Does (.register name content) b answer d := runs
      exact does.resting lawful rested
  | compile input =>
      have does : c.Does (.compile input) b answer d := runs
      exact does.resting lawful rested
  | registered name =>
      cases runs with
      | act rest =>
          cases rest
          exact rested

end Query

namespace Compiler

variable {c : Compiler π} {others : Bench π → Bench π → Prop} {queries : List Query}
  {b d : Bench π} {answers : List (Except CompileError Answer)}

/-- The answers to queries that are made with nobody else at work. -/
def serveAlone (c : Compiler π) :
    List Query → Bench π → Option (List (Except CompileError Answer) × Bench π)
  | [], b => some ([], b)
  | query :: queries, b => do
    let (answer, b) ← (query.work c).run.finish b
    let (answers, b) ← c.serveAlone queries b
    return (answer :: answers, b)

theorem serves_of_alone (nothing : ∀ b, others b b)
    (passes : ∀ clock b, others b (Clocked.setClock clock b))
    (alone : c.serveAlone queries b = some (answers, d)) : c.Serves others queries b answers d := by
  induction queries generalizing b answers with
  | nil =>
      cases alone
      exact .nil
  | cons query queries ih =>
      obtain ⟨⟨answer, u⟩, ends, alone⟩ := Option.bind_eq_some_iff.1 alone
      obtain ⟨⟨rest, v⟩, served, same⟩ := Option.bind_eq_some_iff.1 alone
      cases same
      exact .cons (nothing b) (runs_of_finish nothing passes (fun _ _ => rfl) ends) (ih served)

/-- Between calls, queries are all answered. -/
theorem exists_serveAlone (lawful : c.store.Lawful) (fenced : c.store.Fenced)
    (resting : b.Resting) (queries : List Query) :
    ∃ answers d, c.serveAlone queries b = some (answers, d) := by
  induction queries generalizing b with
  | nil => exact ⟨_, _, rfl⟩
  | cons query queries ih =>
      obtain ⟨answer, u, ends⟩ := query.ends fenced resting
      have runs : (query.work c).run.Runs Bench.Elsewhere b answer u :=
        runs_of_finish .refl (fun _ _ => ⟨rfl, rfl⟩) (fun _ _ => rfl) ends
      obtain ⟨answers, d, served⟩ := ih (Query.resting lawful resting runs)
      refine ⟨answer :: answers, d, ?_⟩
      unfold serveAlone
      rw [ends]
      show (c.serveAlone queries u).bind _ = _
      rw [served]
      rfl

/-- Queries leave no trace in the media where the policy does not let compiles write. -/
theorem Serves.unwritten (fenced : c.store.Fenced) (walled : c.settings.policy.mayWrite = false)
    (serves : c.Serves (fun b d => b.site.Unwritten d.site) queries b answers d) :
    b.site.Unwritten d.site := by
  induction serves with
  | nil => exact .refl _
  | cons before works rest ih =>
      have query := ((Query.keeps fenced _ _).runs (Site.Unwritten _ ·.site) works
        (fun step reached => reached.trans (step walled))
        (fun changed reached => reached.trans changed) before).1
      exact query.trans ih

end Compiler
end TemplateCache
