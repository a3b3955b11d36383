import TemplateCache.Proofs.Compiler.Registration
import TemplateCache.Proofs.Compiler.Removal
import TemplateCache.Proofs.Registry.History

/-!
# Records change by registrations and removals

Calls in flight and others that are made meanwhile share one registry. A record there is replaced or
removed only by a call whose business that is: a registration or a compile that brings content for
its key, the removal of a name that has the key, a clearing, or a scan or a watch that finds out
about sources. Most of these do so in their first stretch. A compile that read its content from the
store registers that under a key that has no record by then, however late it comes.
-/

namespace TemplateCache

open Job

variable {π : Type}

/-- A scan or a watch looks at sources, and registers or removes what it finds out at any time. -/
def Command.Discovers : Command → Prop
  | .scan => True
  | .settle _ _ => True
  | _ => False

/-- A call that may replace or remove the record under a key when it is made. -/
inductive Command.Alters (resolver : Resolver) (key : String) (r : Registry) : Command → Prop where
  | register {name : String} {content : Content}
      (named : resolver.resolve name .content none none = .ok key) :
      Alters resolver key r (.register name content)
  | compile {input : CompileInput} {content : Content} (brings : input.content = some content)
      (keyed : input.address.key resolver .content = .ok key) :
      Alters resolver key r (.compile input)
  | unregister {name : String} (listed : key ∈ r.keysOf name) :
      Alters resolver key r (.unregister name)
  | clear {all : Bool} : Alters resolver key r (.clear all)
  | discover {command : Command} (discovers : command.Discovers) : Alters resolver key r command

/-- An event in which the record under a key may be replaced or removed: such a call is made, or a
scan or a watch goes on. -/
inductive Session.Alters (c : Compiler π) (key : String) (s : Session π) : Event π → Prop where
  | made {command : Command}
      (alters : command.Alters c.store.resolver key s.bench.state.registry) :
      Alters c key s (.ask command)
  | discovers {number : Nat} {call : Call π} (there : s.calls[number]? = some call)
      (discovers : call.command.Discovers) : Alters c key s (.turn number)

/-! ## Single steps -/

section

variable {b d : Bench π} {key : String} {record : ContentRecord} {resolver : Resolver}

/-- The record under a key. -/
def Bench.Has (key : String) (record : ContentRecord) (b : Bench π) : Prop :=
  b.state.registry.byKey.get? key = some record

def Bench.SameRegistry (b d : Bench π) : Prop := d.state.registry = b.state.registry

theorem Bench.Has.of_same (has : b.Has key record) (same : b.SameRegistry d) :
    d.Has key record := by
  unfold Bench.Has at *
  rw [same]
  exact has

theorem Bench.Has.of_path (has : b.Has key record)
    (path : Relation.ReflTransGen Bench.SameRegistry b d) : d.Has key record := by
  induction path with
  | refl => exact has
  | tail _ same ih => exact ih.of_same same

theorem Bench.Has.register (has : b.Has key record) {given : ContentRecord}
    (other : given.key ≠ key) : (Bench.register resolver given b).2.Has key record := by
  unfold Bench.Has at *
  rw [Bench.registry_register, Registry.byKey_register_of_ne (Ne.symm other)]
  exact has

theorem Bench.Has.eraseName (has : b.Has key record) {name : String}
    (unlisted : key ∉ b.state.registry.keysOf name) :
    (Bench.eraseName resolver name b).Has key record := by
  unfold Bench.Has at *
  rw [Bench.registry_eraseName, Registry.byKey_remove, if_neg unlisted]
  exact has

/-- What was read takes nobody's place. -/
theorem Bench.Has.note (has : b.Has key record) {codeKey : String} {since : Nat}
    {found : ContentRecord} : (b.note codeKey since found).Has key record := by
  unfold Bench.note
  split
  · exact has
  · show (Registry.registerNew _ found).2.byKey.get? key = _
    unfold Registry.registerNew
    split
    · exact has
    · rename_i unknown
      refine (KeyMap.get?_insert _ _ _ _).trans ?_
      rw [if_neg]
      · exact has
      · rintro rfl
        unfold Bench.Has at has
        simp [KeyMap.contains, has] at unknown

variable {c : Compiler π} {input : CompileInput} {codeKey : String} {a a' : Stage}

theorem Move.asked_once (m : Move c input codeKey a b a' d) : a' ≠ .asked := by
  cases m <;> nofun

/-- A compile leaves the records that are there alone, but for the one under the key of content
that it brings, which it registers first. -/
theorem Move.has (m : Move c input codeKey a b a' d)
    (apart : a = .asked → ∀ content, input.content = some content →
      input.address.key c.store.resolver .content ≠ .ok key)
    (has : b.Has key record) : d.Has key record := by
  cases m with
  | give full keyed =>
      refine has.register ?_
      rintro rfl
      exact apart rfl _ full keyed
  | found => exact has.note
  | _ => exact has

theorem path_has (path : (compilePlan c input codeKey).Path a b a' d)
    (apart : a = .asked → ∀ content, input.content = some content →
      input.address.key c.store.resolver .content ≠ .ok key)
    (has : b.Has key record) : d.Has key record := by
  refine (path.keeps (fun a b => (a = .asked → ∀ content, input.content = some content →
    input.address.key c.store.resolver .content ≠ .ok key) ∧ b.Has key record) ?_ ⟨apart, has⟩).2
  intro a a' b d m h
  exact ⟨fun again => absurd again (Move.asked_once m), Move.has m h.1 h.2⟩

/-- A call that does not compile and does not look at sources is through with the registry after
its first stretch. In that it leaves the records that it is not about alone. -/
theorem errand_stretch {command : Command} (errand : ∀ input, command ≠ .compile input)
    (blind : ¬command.Discovers) (b : Bench π) :
    ((command.work c).run.advance b).1.Keeps Bench.SameRegistry ∧
      ∀ key record, ¬command.Alters c.store.resolver key b.state.registry → b.Has key record →
        ((command.work c).run.advance b).2.Has key record := by
  -- What never touches the registry keeps every record.
  have idle (keeps : (command.work c).run.Keeps Bench.SameRegistry) :
      ((command.work c).run.advance b).1.Keeps Bench.SameRegistry ∧
        ∀ key record, ¬command.Alters c.store.resolver key b.state.registry → b.Has key record →
          ((command.work c).run.advance b).2.Has key record := by
    obtain ⟨path, rest⟩ := (keeps b).advance
    exact ⟨rest, fun _ _ _ has => has.of_path path⟩
  cases command with
  | compile input => exact absurd rfl (errand input)
  | register name content =>
      cases named : c.store.resolver.resolve name .content none none with
      | error e =>
          refine idle ?_
          simp only [Command.work, Compiler.register, named]
          exact fun _ => trivial
      | ok contentKey =>
          have begins : ((Command.register name content).work c).run.Begins (fun b =>
              (Bench.register c.store.resolver
                (.make name contentKey content .explicit none none) b).2) Bench.SameRegistry := by
            simp only [Command.work, Compiler.register, named]
            exact ⟨_, rfl, fun _ _ => trivial⟩
          obtain ⟨path, rest⟩ := begins.advance b
          refine ⟨rest, fun key record foreign has => Bench.Has.of_path (has.register ?_) path⟩
          rintro rfl
          exact foreign (.register named)
  | unregister name =>
      cases named : c.store.resolver.resolve name .content none none with
      | error e =>
          refine idle ?_
          simp only [Command.work, Compiler.unregister, named]
          exact fun _ => trivial
      | ok contentKey =>
          obtain ⟨path, rest⟩ := (unregister_begins named).advance b
          refine ⟨rest.mono (congrArg CompilerState.registry ·), fun key record foreign has => ?_⟩
          have erased : (Bench.eraseName c.store.resolver name b).Has key record :=
            has.eraseName fun listed => foreign (.unregister listed)
          exact erased.of_same (congrArg CompilerState.registry (state_of_path path))
  | scan => exact absurd trivial blind
  | clear all =>
      obtain ⟨-, rest⟩ := (clear_begins c all).advance b
      exact ⟨rest.mono (congrArg CompilerState.registry ·),
        fun key record foreign => absurd .clear foreign⟩
  | cancel => exact idle (cancel_keeps fun same _ _ _ => same).mapExcept
  | watch => exact idle (watch_keeps fun same _ _ _ => same).mapExcept
  | settle path token => exact absurd trivial blind

end

/-! ## Sessions -/

namespace Session

variable {c : Compiler π} {s : Session π} {ps : Nat → Progress π} {key : String}
  {record : ContentRecord}

/-- Calls that were made, do not look at sources and do not compile are through with the
registry. -/
def Spent (c : Compiler π) (s : Session π) : Prop :=
  ∀ (j : Nat) (call : Call π), s.calls[j]? = some call → ¬call.command.Discovers →
    (∀ input codeKey, call.command = .compile input →
      input.address.key c.store.resolver .code ≠ .ok codeKey) →
    call.job.Keeps Bench.SameRegistry

theorem spent_start (site : Site π) : (start site).Spent c := by
  intro j call there
  simp [start] at there

/-- A compile of a name without a code key ends at once. -/
theorem advance_unnamed {input : CompileInput} {b : Bench π}
    (unnamed : ∀ codeKey, input.address.key c.store.resolver .code ≠ .ok codeKey) :
    ∃ r, ((Command.compile input).work c).run.advance b = (.done r, b) := by
  cases named : input.address.key c.store.resolver .code with
  | ok codeKey => exact absurd named (unnamed codeKey)
  | error e =>
      refine ⟨.error (.naming e), ?_⟩
      show ((Answer.code <$> c.compile input).run).advance b = _
      have refused := compile_unnamed named
      have work : (Answer.code <$> c.compile input).run = .done (.error (.naming e)) :=
        congrArg (fun job => Job.bind job _) refused
      rw [work]
      rfl

theorem Spent.step (spent : s.Spent c) (e : Event π) : (step c s e).Spent c := by
  intro j call there blind unnamed
  cases e with
  | ask command =>
      rcases mem_asked there with ⟨-, there⟩ | ⟨-, rfl⟩
      · exact spent j call there blind unnamed
      · by_cases compiles : ∃ input, command = .compile input
        · obtain ⟨input, rfl⟩ := compiles
          obtain ⟨r, ended⟩ := advance_unnamed (b := s.bench) (unnamed input · rfl)
          rw [ended]
          exact fun _ => trivial
        · exact (errand_stretch (fun input same => compiles ⟨input, same⟩) blind s.bench).1
  | turn number =>
      cases found : s.calls[number]? with
      | none =>
          simp only [Session.step, found] at there
          exact spent j call there blind unnamed
      | some before =>
          simp only [Session.step, found] at there
          rcases mem_turned there with ⟨-, there⟩ | ⟨-, rfl⟩
          · exact spent j call there blind unnamed
          · exact ((spent _ before found blind unnamed).unpaused s.bench).advance.2
  | elsewhere content own environment => exact spent j call there blind unnamed

theorem Spent.run (spent : s.Spent c) (events : List (Event π)) : (run c s events).Spent c := by
  induction events generalizing s with
  | nil => exact spent
  | cons e rest ih => exact ih (spent.step e)

/-- A record stays in every event that is not about it. -/
theorem Traced.has (lawful : c.store.Lawful) (traced : s.Traced c ps) (spent : s.Spent c)
    {e : Event π} (foreign : ¬s.Alters c key e) (has : s.bench.Has key record) :
    (Session.step c s e).bench.Has key record := by
  obtain ⟨ps', change, -⟩ := traced.step lawful e
  generalize bench : (Session.step c s e).bench = b at change ⊢
  cases change with
  | begin named path stops =>
      refine path_has path (fun _ content brings keyed => foreign ?_) has
      exact .made (.compile brings keyed)
  | proceed there now path stops =>
      refine path_has path (fun asked => ?_) has
      have boarded := (traced.stages there now).2
      rw [asked] at boarded
      rcases boarded with ⟨t, sits⟩ | ⟨result, same⟩
      · exact nomatch sits
      · exact nomatch same
  | other kept new sheds free =>
      subst bench
      cases e with
      | ask command =>
          by_cases compiles : ∃ input, command = .compile input
          · obtain ⟨input, rfl⟩ := compiles
            obtain ⟨r, ended⟩ := advance_unnamed (b := s.bench) (free _ input · rfl)
            show (((Command.compile input).work c).run.advance s.bench).2.Has key record
            rw [ended]
            exact has
          · refine (errand_stretch (fun input same => compiles ⟨input, same⟩) ?_ s.bench).2
              key record ?_ has
            · exact fun discovers => foreign (.made (.discover discovers))
            · exact fun alters => foreign (.made alters)
      | turn number =>
          cases found : s.calls[number]? with
          | none =>
              simp only [Session.step, found]
              exact has
          | some call =>
              have through : call.job.Keeps Bench.SameRegistry := by
                refine spent _ call found (fun discovers => foreign (.discovers found discovers)) ?_
                rintro input codeKey same
                refine free number input codeKey ?_
                rcases call with ⟨command, job⟩
                cases same
                simp only [Session.compiles, found]
              simp only [Session.step, found]
              exact has.of_path (through.unpaused s.bench).advance.1
      | elsewhere content own environment => exact has

/-- A record that is gone or replaced was there until an event that is about it. -/
theorem Traced.alteration (lawful : c.store.Lawful) (traced : s.Traced c ps) (spent : s.Spent c)
    (has : s.bench.Has key record) {events : List (Event π)}
    (changed : ¬(Session.run c s events).bench.Has key record) :
    ∃ before e after, events = before ++ e :: after ∧
      (Session.run c s before).bench.Has key record ∧
      ¬(Session.run c s (before ++ [e])).bench.Has key record ∧
      (Session.run c s before).Alters c key e := by
  induction events generalizing s ps with
  | nil => exact absurd has changed
  | cons e rest ih =>
      obtain ⟨ps', -, traced'⟩ := traced.step lawful e
      by_cases kept : (Session.step c s e).bench.Has key record
      · obtain ⟨before, e', after, same, there, gone, alters⟩ :=
          ih traced' (spent.step e) kept changed
        exact ⟨e :: before, e', after, by rw [same]; rfl, there, gone, alters⟩
      · refine ⟨[], e, rest, rfl, has, kept, ?_⟩
        by_contra foreign
        exact kept (traced.has lawful spent foreign has)

/-- However calls and their stretches are interleaved, a record is replaced or removed only in an
event in which a call that is about it is made, or a scan or a watch goes on. No compile does so
that brings no content, and none does when it goes on, whatever it has read. -/
theorem records_change_by_registrations (lawful : c.store.Lawful) (reached : c.Reaches s) :
    (∀ key record events, s.bench.Has key record → ¬(run c s events).bench.Has key record →
      ∃ before e after, events = before ++ e :: after ∧
        (run c s before).bench.Has key record ∧ ¬(run c s (before ++ [e])).bench.Has key record ∧
        (run c s before).Alters c key e) ∧
    ∀ key record e j input, s.compiles e = some (j, input) →
      (input.content = none ∨ e = .turn j) → s.bench.Has key record →
      (step c s e).bench.Has key record := by
  obtain ⟨ps, traced⟩ := reached.traced lawful
  have spent : s.Spent c := by
    obtain ⟨site, events, -, rfl⟩ := reached
    exact (spent_start site).run events
  refine ⟨fun key record events has changed => traced.alteration lawful spent has changed, ?_⟩
  intro key record e j input compiles brings has
  refine traced.has lawful spent ?_ has
  intro alters
  cases alters with
  | @made command alters =>
      cases command with
      | compile asked =>
          cases compiles
          rcases brings with none | turn
          · cases alters with
            | compile some keyed => exact nomatch none.symm.trans some
            | discover discovers => exact discovers.elim
          · exact nomatch turn
      | _ => exact nomatch compiles
  | @discovers number call there discovers =>
      rw [(compiles_turn there compiles).2] at discovers
      exact discovers.elim

end Session

open Session Sample

/-- A compile that read the old text before the new one was registered leaves it. The text goes
when its name is removed. -/
theorem late_read_spares_registration :
    ∃ record, posted.bench.Has "partials/a.html" record ∧
      (step slow (run slow posted [pass]) (.turn 0)).bench.Has "partials/a.html" record ∧
      ∃ before e after, [pass, .turn 0, drop] = before ++ e :: after ∧
        (run slow posted before).Alters slow "partials/a.html" e := by
  have lawful : slow.store.Lawful := Store.delayed_lawful 100
  obtain ⟨record, has⟩ : ∃ record, posted.bench.Has "partials/a.html" record := ⟨_, rfl⟩
  have late : (run slow posted [pass]).bench.Has "partials/a.html" record := has
  have removed : ¬(run slow posted [pass, .turn 0, drop]).bench.Has "partials/a.html" record := by
    have named : slow.store.resolver.resolve "a" .content none none = .ok "partials/a.html" := rfl
    have listed : "partials/a.html" ∈
        (run slow posted [pass, .turn 0]).bench.state.registry.keysOf "a" := by decide
    have state := state_unregister (s := run slow posted [pass, .turn 0]) named
    intro kept
    replace kept : (step slow (run slow posted [pass, .turn 0])
      (.ask (.unregister "a"))).bench.state.registry.byKey.get? "partials/a.html" = some record :=
      kept
    rw [state, Bench.registry_eraseName, Registry.byKey_remove, if_pos listed] at kept
    exact nomatch kept
  refine ⟨record, has, ?_, ?_⟩
  · have reached : slow.Reaches (run slow posted [pass]) :=
      ⟨shelf, [ask, post, pass], shelf_keyed, rfl⟩
    exact (records_change_by_registrations lawful reached).2 _ _ _ 0 _ rfl (.inl rfl) late
  · have reached : slow.Reaches posted := ⟨shelf, [ask, post], shelf_keyed, rfl⟩
    obtain ⟨before, e, after, same, -, -, alters⟩ :=
      (records_change_by_registrations lawful reached).1 _ _ _ has removed
    exact ⟨before, e, after, same, alters⟩

end TemplateCache
