import TemplateCache.Proofs.Compiler.Permit
import TemplateCache.Proofs.Compiler.Sharing

/-!
# Cancelling

A cancellation reaches what works under a token that was drawn before, and nothing else. So an
attempt to compile that is under way fails in its next turn. A compile that only waits for the
attempt of another call has no token yet: it goes on, like all calls that are made later.
-/

namespace TemplateCache

open Job

variable {π : Type}

/-! ## Tokens that nobody cancels -/

namespace Bench

/-- What does not cancel tokens of one's own: others draw tokens too and may cancel these. -/
structure Spares (own : Nat → Prop) (b d : Bench π) : Prop where
  root : d.state.root = b.state.root
  fresh : (Clocked.clock b).fresh ≤ (Clocked.clock d).fresh
  kept : ∀ n ∈ (Clocked.clock b).cancelled, n ∈ (Clocked.clock d).cancelled
  ends : ∀ n ∈ (Clocked.clock d).cancelled, n ∈ (Clocked.clock b).cancelled ∨ b.Watches n ∨
    b.Draws d n ∨ (¬own n ∧ n < (Clocked.clock d).fresh)
  watches : ∀ n, d.Watches n → b.Watches n ∨ b.Draws d n

/-- The number of a token of one's own under which operations work. -/
structure Valid (own : Nat → Prop) (b : Bench π) (n : Nat) : Prop where
  own : own n
  drawn : n < (Clocked.clock b).fresh
  lasts : n ∉ (Clocked.clock b).cancelled
  unwatched : ¬b.Watches n

/-- The compiler may go on: numbers are not used twice, and its root is valid. -/
structure Licensed (own : Nat → Prop) (b : Bench π) : Prop where
  cancelled : ∀ n ∈ (Clocked.clock b).cancelled, n < (Clocked.clock b).fresh
  watched : ∀ n, b.Watches n → n < (Clocked.clock b).fresh
  root : ∃ n, b.state.root.lineage = [n] ∧ b.Valid own n

/-- A cancellation makes a token invalid, if it is not already. -/
def Reaches (b : Bench π) (token : Token) : Prop :=
  isCancelled token b = true ∨ ∃ n ∈ b.state.root.lineage.head?, n ∈ token.lineage

variable {own own' : Nat → Prop} {b d : Bench π} {n : Nat} {token : Token}

theorem Proceeds.spares (h : b.Proceeds d) : b.Spares own d where
  root := h.root
  fresh := h.fresh
  kept := h.kept
  ends n ended := (h.ends n ended).imp_right (.imp_right .inl)
  watches := h.watches

theorem Valid.mono (valid : b.Valid own n) (may : own n → own' n) : b.Valid own' n :=
  ⟨may valid.own, valid.drawn, valid.lasts, valid.unwatched⟩

theorem Valid.spared (valid : b.Valid own n) (spares : b.Spares own d) : d.Valid own n where
  own := valid.own
  drawn := Nat.lt_of_lt_of_le valid.drawn spares.fresh
  lasts ended := by
    rcases spares.ends n ended with before | watched | drawn | strange
    · exact valid.lasts before
    · exact valid.unwatched watched
    · exact absurd valid.drawn (Nat.not_lt.2 drawn.1)
    · exact strange.1 valid.own
  unwatched watched := by
    rcases spares.watches n watched with before | drawn
    · exact valid.unwatched before
    · exact absurd valid.drawn (Nat.not_lt.2 drawn.1)

theorem Licensed.mono (licensed : b.Licensed own) (may : ∀ n, own n → own' n) :
    b.Licensed own' where
  cancelled := licensed.cancelled
  watched := licensed.watched
  root := licensed.root.imp fun n root => ⟨root.1, root.2.mono (may n)⟩

theorem Licensed.spared (licensed : b.Licensed own) (spares : b.Spares own d) :
    d.Licensed own where
  cancelled n ended := by
    rcases spares.ends n ended with before | watched | drawn | strange
    · exact Nat.lt_of_lt_of_le (licensed.cancelled n before) spares.fresh
    · exact Nat.lt_of_lt_of_le (licensed.watched n watched) spares.fresh
    · exact drawn.2
    · exact strange.2
  watched n watched := by
    rcases spares.watches n watched with before | drawn
    · exact Nat.lt_of_lt_of_le (licensed.watched n before) spares.fresh
    · exact drawn.2
  root := by
    obtain ⟨n, root, valid⟩ := licensed.root
    exact ⟨n, spares.root ▸ root, valid.spared spares⟩

theorem Licensed.root_lasts (licensed : b.Licensed own) :
    isCancelled b.state.root b = false := by
  obtain ⟨r, root, valid⟩ := licensed.root
  refine Bool.eq_false_iff.2 fun ended => ?_
  obtain ⟨n, above, ended⟩ := isCancelled_iff.1 ended
  rw [root, List.mem_singleton] at above
  exact valid.lasts (above ▸ ended)

/-- A number that has just been drawn is valid. -/
theorem Licensed.draw (licensed : b.Licensed own) (may : own (Clocked.clock b).fresh)
    (fresh : (Clocked.clock b).fresh < (Clocked.clock d).fresh)
    (ends : ∀ n ∈ (Clocked.clock d).cancelled, n < (Clocked.clock b).fresh)
    (watches : ∀ n, d.Watches n → b.Watches n) : d.Valid own (Clocked.clock b).fresh where
  own := may
  drawn := fresh
  lasts ended := Nat.lt_irrefl _ (ends _ ended)
  unwatched watched := Nat.lt_irrefl _ (licensed.watched _ (watches _ watched))

/-- A token that is drawn now is valid throughout. -/
theorem Licensed.newToken (licensed : b.Licensed own) (may : own (Clocked.clock b).fresh)
    (settings : CompilerSettings) :
    ∀ n ∈ (b.newToken settings).1.lineage, (b.newToken settings).2.Valid own n := by
  obtain ⟨r, root, valid⟩ := licensed.root
  intro n member
  replace member : n ∈ (Clocked.clock b).fresh :: b.state.root.lineage := member
  rw [root] at member
  rcases List.mem_cons.1 member with rfl | above
  · exact licensed.draw may (Nat.lt_succ_self _) licensed.cancelled fun _ => id
  · rw [List.mem_singleton.1 above]
    exact valid.spared (proceeds_newToken settings).spares

theorem licensed_start {site : Site π}
    (numbered : ∀ n ∈ (Clocked.clock site).cancelled, n < (Clocked.clock site).fresh)
    (may : own (Clocked.clock site).fresh) : (Compiler.start site).Licensed own where
  cancelled n ended := Nat.lt_succ_of_lt (numbered n ended)
  watched := by
    rintro n ⟨w, there, -⟩
    exact nomatch there
  root := by
    refine ⟨_, rfl, may, Nat.lt_succ_self _, fun ended => ?_, ?_⟩
    · exact Nat.lt_irrefl _ (numbered _ ended)
    · rintro ⟨w, there, -⟩
      exact nomatch there

/-! ## What a cancellation does -/

theorem cancelled_cancel (b : Bench π) (n : Nat) :
    n ∈ (Clocked.clock (Compiler.cancel b)).cancelled ↔
      b.state.root.lineage.head? = some n ∨ n ∈ (Clocked.clock b).cancelled := by
  show n ∈ ((Clocked.clock b).cancel b.state.root).cancelled ↔ _
  rw [(Clock.cancel_spec _ _).2, or_comm]

theorem fresh_cancel (b : Bench π) :
    (Clocked.clock (Compiler.cancel b)).fresh = (Clocked.clock b).fresh + 1 := by
  show ((Clocked.clock b).cancel b.state.root).fresh + 1 = _
  rw [(Clock.cancel_spec _ _).1]

theorem Licensed.cancel (licensed : b.Licensed own) (may : own (Clocked.clock b).fresh) :
    (Compiler.cancel b).Licensed own := by
  have ends : ∀ n ∈ (Clocked.clock (Compiler.cancel b)).cancelled,
      n < (Clocked.clock b).fresh := by
    intro n ended
    rcases (cancelled_cancel b n).1 ended with root | before
    · obtain ⟨r, only, valid⟩ := licensed.root
      rw [only] at root
      cases root
      exact valid.drawn
    · exact licensed.cancelled n before
  have later := fresh_cancel b
  have root : (Compiler.cancel b).state.root.lineage = [(Clocked.clock b).fresh] := by
    show [((Clocked.clock b).cancel b.state.root).fresh] = _
    rw [(Clock.cancel_spec _ _).1]
  exact {
    cancelled := fun n ended => by have := ends n ended; omega
    watched := fun n watched => by have := licensed.watched n watched; omega
    root := ⟨_, root, licensed.draw may (by omega) ends fun _ => id⟩ }

theorem Reaches.cancel (reaches : b.Reaches token) :
    isCancelled token (Compiler.cancel b) = true := by
  rw [isCancelled_iff]
  rcases reaches with ended | ⟨r, root, above⟩
  · obtain ⟨n, above, ended⟩ := isCancelled_iff.1 ended
    exact ⟨n, above, (cancelled_cancel b n).2 (.inr ended)⟩
  · exact ⟨r, above, (cancelled_cancel b r).2 (.inl root)⟩

theorem Reaches.spared (reaches : b.Reaches token) (spares : b.Spares own d) : d.Reaches token := by
  refine reaches.imp (isCancelled_of_kept spares.kept) fun root => ?_
  rwa [spares.root]

/-- A cancellation reaches all tokens that were drawn before it. -/
theorem Licensed.reaches (licensed : b.Licensed own) (settings : CompilerSettings) :
    b.Reaches (b.newToken settings).1 := by
  obtain ⟨r, root, -⟩ := licensed.root
  refine .inr ⟨r, by rw [root]; rfl, ?_⟩
  show r ∈ (Clocked.clock b).fresh :: b.state.root.lineage
  rw [root]
  exact List.mem_cons_of_mem _ (List.mem_singleton_self r)

end Bench

/-! ## Valid permits -/

/-- What an operation works under is valid. -/
def Permit.Valid (own : Nat → Prop) (b : Bench π) : Permit → Prop
  | idle => True
  | under token => ∀ n ∈ token.lineage, b.Valid own n
  | revoked => False

section

variable {own own' : Nat → Prop} {b d : Bench π} {a a' : Permit} {settings : CompilerSettings}

theorem Permit.Valid.spared (valid : a.Valid own b) (spares : b.Spares own d) : a.Valid own d := by
  cases a with
  | idle => trivial
  | under token => exact fun n above => (valid n above).spared spares
  | revoked => exact valid

theorem Permit.Valid.mono (valid : a.Valid own b)
    (may : ∀ n, n < (Clocked.clock b).fresh → own n → own' n) : a.Valid own' b := by
  cases a with
  | idle => trivial
  | under token => exact fun n above => (valid n above).mono (may n (valid n above).drawn)
  | revoked => exact valid

theorem permit_proceeds (path : (permitPlan settings).Path a b a' d) : b.Proceeds d := by
  refine path.keeps (fun _ d => b.Proceeds d) (fun move h => ?_) (.refl b)
  cases move with
  | work proceeds => exact h.trans proceeds
  | draw => exact h.trans (Bench.proceeds_newToken settings)
  | revoke ended => exact h

/-- By itself an operation does not make its own token invalid. -/
theorem permit_valid (path : (permitPlan settings).Path a b a' d) (licensed : b.Licensed own)
    (may : ∀ n, (Clocked.clock b).fresh ≤ n → own n) (valid : a.Valid own b) : a'.Valid own d := by
  refine (path.keeps (fun a d => b.Proceeds d ∧ d.Licensed own ∧ a.Valid own d)
    (fun move h => ?_) ⟨.refl b, licensed, valid⟩).2.2
  obtain ⟨before, licensed, valid⟩ := h
  cases move with
  | work proceeds =>
      exact ⟨before.trans proceeds, licensed.spared proceeds.spares, valid.spared proceeds.spares⟩
  | draw =>
      refine ⟨before.trans (Bench.proceeds_newToken settings), ?_, ?_⟩
      · exact licensed.spared (Bench.proceeds_newToken settings).spares
      · exact licensed.newToken (may _ before.fresh) settings
  | revoke ended =>
      obtain ⟨n, above, ended⟩ := Bench.isCancelled_iff.1 ended
      exact absurd ended (valid n above).lasts

end

/-! ## Sessions -/

namespace Session

/-- A compile waits in a flight, for its turn or for the result of another call. -/
def Waits (c : Compiler π) (key : String) (s : Session π) (j : Nat) : Prop :=
  s.Pends c key j ∧ ∃ call, s.calls[j]? = some call ∧ call.Queues

/-- Others who share the clock cancel no tokens but those that they have drawn themselves, and
what was cancelled stays so. -/
def Fair (foreign : Nat → Prop) (c : Compiler π) (s : Session π) : Event π → Prop
  | .elsewhere _ _ environment =>
    (Clocked.clock s.bench).fresh ≤ environment.clock.fresh ∧
      (∀ n ∈ (Clocked.clock s.bench).cancelled, n ∈ environment.clock.cancelled) ∧
      ∀ n ∈ environment.clock.cancelled, n ∈ (Clocked.clock s.bench).cancelled ∨
        (foreign n ∧ n < environment.clock.fresh)
  | e => ∀ n, s.bench.Draws (step c s e).bench n → ¬foreign n

/-- A cancellation reaches all attempts. What works later is spared. -/
structure Guarded (foreign later : Nat → Prop) (c : Compiler π) (s : Session π)
    (seats : Nat → Seat) : Prop where
  aboard : s.Aboard c seats
  licensed : s.bench.Licensed (¬foreign ·)
  rests : ∀ {j call}, s.calls[j]? = some call → ∃ a : Permit,
    (later j → a.Valid (¬foreign ·) s.bench) ∧
      call.job.Rests (permitPlan c.settings) (fun r a => a.Allows r) a
  reached : ∀ {j b token}, seats j = .flying b token → s.bench.Reaches token

variable {c : Compiler π} {s : Session π} {seats seats' : Nat → Seat} {e : Event π} {f : Flights}
  {foreign later : Nat → Prop} {j : Nat} {b : Berth} {token : Token}

/-- An attempt begins with a token that is drawn for it. -/
theorem Sails.flying (sails : s.Sails c seats e f seats') (now : seats' j = .flying b token) :
    seats j = .flying b token ∨ token = (Bench.newToken c.settings s.bench).1 := by
  cases sails with
  | shed sheds => exact .inl now
  | board coded sheds passage =>
      by_cases own : j = s.calls.length
      · subst own
        rw [Function.update_self] at now
        subst now
        cases passage with
        | takeOff due => exact .inr rfl
      · rw [Function.update_of_ne own] at now
        exact .inl now
  | @go i f seat passage =>
      by_cases own : j = i
      · subst own
        rw [Function.update_self] at now
        subst now
        generalize before : seats j = seat at passage
        cases passage with
        | idle => exact .inl rfl
        | takeOff due => exact .inr rfl
      · rw [Function.update_of_ne own] at now
        exact .inl now

/-- An attempt that does not get its turn goes on as it is. -/
theorem Sails.stays (sails : s.Sails c seats e f seats') (aboard : s.Aboard c seats)
    (now : seats j = .flying b token) (other : e ≠ .turn j) : seats' j = .flying b token := by
  cases sails with
  | shed sheds => exact now
  | board coded sheds passage =>
      rw [Function.update_of_ne, now]
      rintro rfl
      exact nomatch (aboard.free (Nat.le_refl _)).symm.trans now
  | go passage =>
      rw [Function.update_of_ne, now]
      rintro rfl
      exact other rfl

/-- What an event does that does not cancel, and what becomes of the calls: each of them still `has`
what it had under its permit, whether it goes on in this event or not. -/
theorem rests_step (obedient : c.store.Obedient) (has : Nat → Permit → Bench π → Prop)
    (inside : ∀ content own environment, e ≠ .elsewhere content own environment)
    (other : e ≠ .ask .cancel) (idle : ∀ j, has j .idle s.bench)
    (stays : ∀ {j a}, has j a s.bench → s.bench.Proceeds (step c s e).bench →
      has j a (step c s e).bench)
    (goes : ∀ {j a a'}, has j a s.bench →
      (permitPlan c.settings).Path a s.bench a' (step c s e).bench → has j a' (step c s e).bench)
    (rests : ∀ {j call}, s.calls[j]? = some call → ∃ a : Permit,
      has j a s.bench ∧ call.job.Rests (permitPlan c.settings) (fun r a => a.Allows r) a) :
    s.bench.Proceeds (step c s e).bench ∧
      ∀ {j call}, (step c s e).calls[j]? = some call → ∃ a : Permit, has j a (step c s e).bench ∧
        call.job.Rests (permitPlan c.settings) (fun r a => a.Allows r) a := by
  cases e with
  | elsewhere content own environment => exact absurd rfl (inside content own environment)
  | ask command =>
      have differs : command ≠ .cancel := fun same => other (same ▸ rfl)
      obtain ⟨a', path, rests', -⟩ := (work_follows_permit (b := s.bench) obedient differs).advance
      have proceeds : s.bench.Proceeds (step c s (.ask command)).bench := permit_proceeds path
      refine ⟨proceeds, fun {j call} there => ?_⟩
      rcases mem_asked there with ⟨-, there⟩ | ⟨rfl, rfl⟩
      · obtain ⟨a, own, rests⟩ := rests there
        exact ⟨a, stays own proceeds, rests⟩
      · exact ⟨a', goes (idle _) path, rests'⟩
  | turn i =>
      cases moved : s.calls[i]? with
      | none =>
          have same : step c s (.turn i) = s := by simp only [step, moved]
          rw [same] at stays ⊢
          refine ⟨.refl _, fun there => ?_⟩
          obtain ⟨a, own, rests⟩ := rests there
          exact ⟨a, own, rests⟩
      | some call =>
          obtain ⟨a, own, rests'⟩ := rests moved
          obtain ⟨a', path, rests', -⟩ := rests'.turn s.bench
          have after : (step c s (.turn i)).bench =
              ((Task.unpaused call.job).advance s.bench).2 := by
            simp only [step, moved]
          rw [← after] at path
          have proceeds : s.bench.Proceeds (step c s (.turn i)).bench := permit_proceeds path
          refine ⟨proceeds, fun {j call'} there => ?_⟩
          simp only [step, moved] at there
          rcases mem_turned there with ⟨-, there⟩ | ⟨rfl, rfl⟩
          · obtain ⟨a, own, rests⟩ := rests there
            exact ⟨a, stays own proceeds, rests⟩
          · exact ⟨a', goes own path, rests'⟩

/-- A call that goes on may rely on the numbers that are drawn in the event. -/
theorem Guarded.rests_step (obedient : c.store.Obedient) (guarded : s.Guarded foreign later c seats)
    (fair : Fair foreign c s e) (other : e ≠ .ask .cancel) :
    s.bench.Spares (¬foreign ·) (step c s e).bench ∧
      ∀ {j call}, (step c s e).calls[j]? = some call → ∃ a : Permit,
        (later j → a.Valid (¬foreign ·) (step c s e).bench) ∧
          call.job.Rests (permitPlan c.settings) (fun r a => a.Allows r) a := by
  have goes {a a' : Permit} {j : Nat} {d : Bench π} (valid : later j → a.Valid (¬foreign ·) s.bench)
      (path : (permitPlan c.settings).Path a s.bench a' d)
      (fair : ∀ n, s.bench.Draws d n → ¬foreign n) : later j → a'.Valid (¬foreign ·) d := by
    intro spared
    let own (n : Nat) : Prop := ¬foreign n ∨ (Clocked.clock s.bench).fresh ≤ n
    have now : a.Valid own s.bench := (valid spared).mono fun _ _ => .inl
    have licensed : s.bench.Licensed own := guarded.licensed.mono fun _ => .inl
    refine (permit_valid path licensed (fun _ => .inr) now).mono fun n drawn own => ?_
    exact own.elim id fun new => fair n ⟨new, drawn⟩
  have inside (within : ∀ content own environment, e ≠ .elsewhere content own environment)
      (fair : ∀ n, s.bench.Draws (step c s e).bench n → ¬foreign n) :
      s.bench.Spares (¬foreign ·) (step c s e).bench ∧
        ∀ {j call}, (step c s e).calls[j]? = some call → ∃ a : Permit,
          (later j → a.Valid (¬foreign ·) (step c s e).bench) ∧
            call.job.Rests (permitPlan c.settings) (fun r a => a.Allows r) a := by
    obtain ⟨proceeds, rests⟩ := Session.rests_step (e := e) obedient
      (fun j a b => later j → a.Valid (¬foreign ·) b) within other (fun _ _ => trivial)
      (fun valid proceeds spared => (valid spared).spared proceeds.spares)
      (fun valid path => goes valid path fair) guarded.rests
    exact ⟨proceeds.spares, rests⟩
  cases e with
  | elsewhere content own environment =>
      obtain ⟨fresh, kept, ends⟩ := fair
      have spares : s.bench.Spares (¬foreign ·)
          (step c s (.elsewhere content own environment)).bench := {
        root := rfl
        fresh := fresh
        kept := kept
        ends := fun n ended => (ends n ended).imp_right fun strange =>
          .inr (.inr ⟨not_not_intro strange.1, strange.2⟩)
        watches := fun n => .inl }
      refine ⟨spares, fun there => ?_⟩
      obtain ⟨a, valid, rests⟩ := guarded.rests there
      exact ⟨a, fun spared => (valid spared).spared spares, rests⟩
  | ask command => exact inside nofun fair
  | turn i => exact inside nofun fair

theorem Guarded.step (obedient : c.store.Obedient) (lawful : c.store.Lawful)
    (guarded : s.Guarded foreign later c seats) (fair : Fair foreign c s e)
    (other : e ≠ .ask .cancel) :
    ∃ seats', s.Sails c seats e (Session.step c s e).bench.state.flights seats' ∧
      s.bench.Spares (¬foreign ·) (Session.step c s e).bench ∧
      (Session.step c s e).Guarded foreign later c seats' := by
  obtain ⟨seats', sails, aboard⟩ := guarded.aboard.step lawful e
  obtain ⟨spares, rests⟩ := guarded.rests_step obedient fair other
  refine ⟨seats', sails, spares, aboard, guarded.licensed.spared spares, rests, fun now => ?_⟩
  rcases sails.flying now with before | rfl
  · exact (guarded.reached before).spared spares
  · exact (guarded.licensed.reaches c.settings).spared spares

theorem Guarded.run (obedient : c.store.Obedient) (lawful : c.store.Lawful)
    (guarded : s.Guarded foreign later c seats) {events : List (Event π)}
    (fair : Along c (Fair foreign c) s events) (other : .ask .cancel ∉ events) :
    ∃ seats', (Session.run c s events).Guarded foreign later c seats' := by
  induction events generalizing s seats with
  | nil => exact ⟨seats, guarded⟩
  | cons e rest ih =>
      obtain ⟨now, fair⟩ := fair
      obtain ⟨first, other⟩ := not_or.1 (mt List.mem_cons.2 other)
      obtain ⟨seats', -, -, guarded'⟩ := guarded.step obedient lawful now (Ne.symm first)
      exact ih guarded' fair other

theorem Guarded.weaken {fewer : Nat → Prop} (guarded : s.Guarded foreign later c seats)
    (are : ∀ j, fewer j → later j) : s.Guarded foreign fewer c seats where
  aboard := guarded.aboard
  licensed := guarded.licensed
  rests there := by
    obtain ⟨a, valid, rests⟩ := guarded.rests there
    exact ⟨a, fun spared => valid (are _ spared), rests⟩
  reached := guarded.reached

/-- Whatever an attempt waits for is over when its token is cancelled, so it waits for no flight. -/
theorem flying_busy (obedient : c.store.Obedient) {call : Call π}
    (fits : (Seat.flying b token).Fits c call) (reaches : s.bench.Reaches token) :
    ¬call.Queues := by
  rintro ⟨number, caller, next, queues⟩
  obtain ⟨input, given, since, work, -, -, leaves, isOpen, job⟩ := fits
  have heeds : work.Heeds token Compiling.Cancelled :=
    leaves.heeds (Compiler.attempt_heeds obedient)
  obtain ⟨n, above⟩ : ∃ n, n ∈ token.lineage :=
    reaches.elim (fun ended => (Bench.isCancelled_iff.1 ended).imp fun _ => And.left)
      fun ⟨n, _, above⟩ => ⟨n, above⟩
  -- A bench on which the token is cancelled, and no caller is due.
  let d : Bench π := Clocked.setClock { cancelled := [n] } (s.bench.withFlights fun _ => {})
  have ended : isCancelled token d = true :=
    Bench.isCancelled_iff.2 ⟨n, above, List.mem_singleton_self n⟩
  rw [job] at queues
  cases work with
  | done x => exact isOpen x rfl
  | act update rest => exact nomatch queues
  | pause rest => exact nomatch queues
  | wait event rest =>
      have due := (heeds.1 d ended).1
      injection queues with same
      rw [same] at due
      exact nomatch due

/-- A pending compile waits in a flight or is in an attempt. -/
theorem Guarded.berth (obedient : c.store.Obedient) (guarded : s.Guarded foreign later c seats)
    {key : String} (pends : s.Pends c key j) :
    (∃ b, seats j = .queued b) ∧ s.Waits c key j ∨
      ∃ b token, seats j = .flying b token ∧ ¬s.Waits c key j := by
  obtain ⟨b, sits, -⟩ := guarded.aboard.berth pends
  obtain ⟨call, input, there, command, coded, pending⟩ := pends
  have fits := guarded.aboard.fits there
  cases now : seats j with
  | none =>
      rw [now] at sits
      exact nomatch sits
  | queued berth =>
      rw [now] at fits
      obtain ⟨input', given, since, -, -, job⟩ := fits
      exact .inl ⟨⟨berth, rfl⟩, ⟨call, input, there, command, coded, pending⟩, call, there,
        _, _, _, job⟩
  | flying berth token =>
      rw [now] at fits
      refine .inr ⟨berth, token, rfl, ?_⟩
      rintro ⟨-, call', there', queues⟩
      cases there.symm.trans there'
      exact flying_busy obedient fits (guarded.reached now) queues

/-- A compile that waits has no token yet. -/
theorem Guarded.waits (obedient : c.store.Obedient) (guarded : s.Guarded foreign later c seats)
    {key : String} {call : Call π} (waits : s.Waits c key j) (there : s.calls[j]? = some call) :
    call.job.Rests (permitPlan c.settings) (fun r a => a.Allows r) .idle := by
  rcases guarded.berth obedient waits.1 with ⟨⟨b, now⟩, -⟩ | ⟨_, _, -, busy⟩
  · have fits := guarded.aboard.fits there
    rw [now] at fits
    obtain ⟨input, given, since, -, -, job⟩ := fits
    rw [job]
    exact ⟨⟨s.bench, trivial⟩, fun _ => queue_follows obedient⟩
  · exact absurd waits busy

/-- A cancellation ends the tokens of all attempts. It spares the calls that wait in flights, and
those that are made later. -/
theorem Guarded.cancel (obedient : c.store.Obedient) (lawful : c.store.Lawful)
    (guarded : s.Guarded foreign later c seats) (fair : Fair foreign c s (.ask .cancel)) :
    ∃ seats', s.Sails c seats (.ask .cancel)
        (Session.step c s (.ask .cancel)).bench.state.flights seats' ∧
      (∀ token, s.bench.Reaches token →
        isCancelled token (Session.step c s (.ask .cancel)).bench = true) ∧
      (Session.step c s (.ask .cancel)).Guarded foreign
        (fun j => s.calls.length ≤ j ∨ ∃ key, s.Waits c key j) c seats' := by
  obtain ⟨seats', sails, aboard⟩ := guarded.aboard.step lawful (.ask .cancel)
  have ends (token : Token) (reaches : s.bench.Reaches token) :
      isCancelled token (Session.step c s (.ask .cancel)).bench = true := reaches.cancel
  refine ⟨seats', sails, ends, aboard, ?_, fun {j call} there => ?_, fun now => .inl (ends _ ?_)⟩
  · refine guarded.licensed.cancel (fair _ ⟨Nat.le_refl _, ?_⟩)
    exact Nat.lt_of_lt_of_eq (Nat.lt_succ_self _) (Bench.fresh_cancel s.bench).symm
  · rcases mem_asked there with ⟨before, there⟩ | ⟨rfl, rfl⟩
    · by_cases waits : ∃ key, s.Waits c key j
      · obtain ⟨key, waits⟩ := waits
        exact ⟨.idle, fun _ => trivial, guarded.waits obedient waits there⟩
      · obtain ⟨a, -, rests⟩ := guarded.rests there
        refine ⟨a, fun spared => ?_, rests⟩
        exact spared.elim (fun beyond => absurd before (Nat.not_lt.2 beyond))
          fun some => absurd some waits
    · refine ⟨.idle, fun _ => trivial, ?_⟩
      rintro ⟨e, same, -⟩
      exact nomatch same
  · exact (sails.flying now).elim guarded.reached fun drawn =>
      drawn ▸ guarded.licensed.reaches c.settings

/-- Every event keeps what was cancelled, and a cancellation can reach all attempts after it. -/
theorem Guarded.any (obedient : c.store.Obedient) (lawful : c.store.Lawful)
    (guarded : s.Guarded foreign (fun _ => False) c seats) (fair : Fair foreign c s e) :
    ∃ seats', s.Sails c seats e (Session.step c s e).bench.state.flights seats' ∧
      (∀ token, isCancelled token s.bench = true →
        isCancelled token (Session.step c s e).bench = true) ∧
      (Session.step c s e).Guarded foreign (fun _ => False) c seats' := by
  by_cases cancels : e = .ask .cancel
  · subst cancels
    obtain ⟨seats', sails, ends, guarded'⟩ := guarded.cancel obedient lawful fair
    refine ⟨seats', sails, fun token ended => ends token (.inl ended), ?_⟩
    exact guarded'.weaken fun _ => False.elim
  · obtain ⟨seats', sails, spares, guarded'⟩ := guarded.step obedient lawful fair cancels
    exact ⟨seats', sails, fun _ => Bench.isCancelled_of_kept spares.kept, guarded'⟩

theorem Guarded.run_any (obedient : c.store.Obedient) (lawful : c.store.Lawful)
    (guarded : s.Guarded foreign (fun _ => False) c seats) {events : List (Event π)}
    (fair : Along c (Fair foreign c) s events) :
    ∃ seats', (Session.run c s events).Guarded foreign (fun _ => False) c seats' := by
  induction events generalizing s seats with
  | nil => exact ⟨seats, guarded⟩
  | cons e rest ih =>
      obtain ⟨seats', -, -, guarded'⟩ := guarded.any obedient lawful fair.1
      exact ih guarded' fair.2

/-- An attempt whose token was cancelled stays as it is until it gets its turn. -/
theorem Guarded.run_ended (obedient : c.store.Obedient) (lawful : c.store.Lawful)
    (guarded : s.Guarded foreign (fun _ => False) c seats) {events : List (Event π)}
    (fair : Along c (Fair foreign c) s events) (rests : .turn j ∉ events)
    (now : seats j = .flying b token) (ended : isCancelled token s.bench = true) :
    ∃ seats', (Session.run c s events).Aboard c seats' ∧ seats' j = .flying b token ∧
      isCancelled token (Session.run c s events).bench = true := by
  induction events generalizing s seats with
  | nil => exact ⟨seats, guarded.aboard, now, ended⟩
  | cons e rest ih =>
      obtain ⟨first, rests⟩ := not_or.1 (mt List.mem_cons.2 rests)
      obtain ⟨seats', sails, kept, guarded'⟩ := guarded.any obedient lawful fair.1
      exact ih guarded' fair.2 rests (sails.stays guarded.aboard now (Ne.symm first)) (kept _ ended)

/-- An attempt whose token was cancelled fails so in its next turn. -/
theorem Aboard.turn_ended (obedient : c.store.Obedient) (aboard : s.Aboard c seats)
    (now : seats j = .flying b token) (ended : isCancelled token s.bench = true) :
    ∃ e, (Session.step c s (.turn j)).answer? j = some (.error e) ∧ e.isCancelled = true := by
  obtain ⟨call, -, there, -⟩ := aboard.pends (j := j) (b := b) (by rw [now]; rfl)
  have fits := aboard.fits there
  rw [now] at fits
  obtain ⟨input, given, since, work, -, -, leaves, isOpen, job⟩ := fits
  have heeds : work.Heeds token Compiling.Cancelled :=
    leaves.heeds (Compiler.attempt_heeds obedient)
  obtain ⟨_, d, stops, e, rfl, cut⟩ := heeds.turn leaves.atRest isOpen ended
  have goes : Task.unpaused call.job =
      (Task.unpaused work).bind (Compiler.arrive b.key b.number) := by
    rw [job, unpaused_bind _ isOpen]
  obtain ⟨before, -⟩ := List.getElem?_eq_some_iff.1 there
  refine ⟨e, ?_, cut⟩
  rcases fly b (leaves.keeps attempt_keeps_flights).unpaused s.bench with
    ⟨r, d', -, stops', ends⟩ | ⟨rest, d', -, stops', rests, -⟩
  · cases stops.symm.trans stops'
    simp only [answer?, Session.step, there, goes, ends]
    rw [List.getElem?_set_self before]
    rfl
  · cases stops.symm.trans stops'
    exact absurd rfl (rests _)

/-- What is spared does not fail as cancelled. -/
theorem Guarded.spared (guarded : s.Guarded foreign later c seats) (spared : later j)
    {e : CompileError} (failed : s.answer? j = some (.error e)) : e.isCancelled = false := by
  obtain ⟨call, there, answered⟩ := Option.bind_eq_some_iff.1 failed
  obtain ⟨a, valid, rests⟩ := guarded.rests there
  rcases call with ⟨command, job⟩
  cases job with
  | done answer =>
      cases answered
      by_contra cut
      have revoked : a = .revoked := rests ⟨e, rfl, by simpa using cut⟩
      have never : a.Valid (¬foreign ·) s.bench := valid spared
      rw [revoked] at never
      exact never
  | act update next => exact nomatch answered
  | wait event next => exact nomatch answered
  | pause next => exact nomatch answered

/-- A cancellation ends the attempts that are under way, each in its next turn. As long as nobody
cancels again, no call fails as cancelled that was made later, nor any that only waited in a flight
for an attempt of another one. -/
theorem cancel_ends_attempts (obedient : c.store.Obedient) (lawful : c.store.Lawful)
    {site : Site π} {foreign : Nat → Prop} {before after : List (Event π)}
    (numbered : ∀ n ∈ (Clocked.clock site).cancelled, n < (Clocked.clock site).fresh)
    (root : ¬foreign (Clocked.clock site).fresh)
    (fair : Along c (Fair foreign c) (start site) before)
    (fair' : Along c (Fair foreign c) (run c (start site) before) (.ask .cancel :: after)) :
    let s := run c (start site) before
    let u := run c s (.ask .cancel :: after)
    (∀ key j, s.Pends c key j → ¬s.Waits c key j → .turn j ∉ after →
      ∃ e, (step c u (.turn j)).answer? j = some (.error e) ∧ e.isCancelled = true) ∧
    (.ask .cancel ∉ after → isCancelled u.bench.state.root u.bench = false ∧
      ∀ j e, s.calls.length ≤ j ∨ (∃ key, s.Waits c key j) → u.answer? j = some (.error e) →
        e.isCancelled = false) := by
  intro s u
  have start : (start site).Guarded foreign (fun _ => False) c fun _ => .none := {
    aboard := aboard_start site
    licensed := Bench.licensed_start numbered root
    rests := fun there => nomatch there
    reached := nofun }
  obtain ⟨seats, guarded⟩ := start.run_any obedient lawful fair
  obtain ⟨seats', sails, ends, guarded'⟩ := guarded.cancel obedient lawful fair'.1
  refine ⟨fun key j pends busy rests => ?_, fun once => ?_⟩
  · rcases guarded.berth obedient pends with ⟨-, waits⟩ | ⟨b, token, now, -⟩
    · exact absurd waits busy
    · have ended := ends token (guarded.reached now)
      have stays := sails.stays guarded.aboard now nofun
      have guarded'' : (step c s (.ask .cancel)).Guarded foreign (fun _ => False) c seats' :=
        guarded'.weaken fun _ => False.elim
      obtain ⟨_, aboard, still, ended⟩ :=
        guarded''.run_ended obedient lawful fair'.2 rests stays ended
      exact aboard.turn_ended obedient still ended
  · obtain ⟨_, later⟩ := guarded'.run obedient lawful fair'.2 once
    exact ⟨later.licensed.root_lasts, fun j e spared failed => later.spared spared failed⟩

end Session

/-! ## Samples -/

open Sample Session

/-- The time has come at which reads that began after a cancellation are through. -/
def Sample.passLate : Event Unit :=
  .elsewhere shelf.overlay.content () { clock := { now := 200, cancelled := [0], fresh := 9 } }

/-- What a call failed with. -/
def Sample.error? (s : Session Unit) (j : Nat) : Option CompileError :=
  match s.answer? j with
  | some (.error e) => some e
  | _ => none

theorem Sample.failed_of_error {s : Session Unit} {j : Nat}
    (cut : (error? s j).any CompileError.isCancelled = true) :
    ∃ e, s.answer? j = some (.error e) ∧ e.isCancelled = true := by
  unfold error? at cut
  split at cut
  · rename_i e failed
    exact ⟨e, failed, cut⟩
  · exact nomatch cut

/-- Of two compiles of a name, the one that reads is cancelled, and the one that waits is not. -/
theorem reader_cancelled_waiter_spared :
    let s := run slow (start shelf) [ask, ask]
    let u := run slow s [.ask .cancel, .turn 1, ask, passLate]
    (∃ e, (step slow u (.turn 0)).answer? 0 = some (.error e) ∧ e.isCancelled = true) ∧
      s.Waits slow "partials/a.html.compiled" 1 ∧
      ∀ e, u.answer? 1 = some (.error e) → e.isCancelled = false := by
  intro s u
  have waits : s.Waits slow "partials/a.html.compiled" 1 :=
    ⟨⟨_, _, rfl, rfl, rfl, rfl⟩, _, rfl, _, _, _, rfl⟩
  have reads : s.Pends slow "partials/a.html.compiled" 0 := ⟨_, _, rfl, rfl, rfl, rfl⟩
  have busy : ¬s.Waits slow "partials/a.html.compiled" 0 := by
    rintro ⟨-, call, there, queues⟩
    exact busy_of_deadline (s := s) (by decide) call there queues
  have numbered : ∀ n ∈ (Clocked.clock shelf).cancelled, n < (Clocked.clock shelf).fresh := nofun
  have root : ¬(fun _ => False) (Clocked.clock shelf).fresh := id
  have fair : Along slow (Fair (fun _ => False) slow) (start shelf) [ask, ask] :=
    ⟨fun _ _ => id, fun _ _ => id, trivial⟩
  have fair' : Along slow (Fair (fun _ => False) slow) s
      [.ask .cancel, .turn 1, ask, passLate] := by
    refine ⟨fun _ _ => id, fun _ _ => id, fun _ _ => id, ⟨?_, ?_, ?_⟩, trivial⟩
    · decide
    · decide
    · have same : ∀ n ∈ [0],
          n ∈ (Clocked.clock (run slow s [.ask .cancel, .turn 1, ask]).bench).cancelled := by
        decide
      exact fun n ended => .inl (same n ended)
  have cancels := cancel_ends_attempts (c := slow) (Store.delayed_obedient resolver 100)
    (Store.delayed_lawful 100) numbered root fair fair'
  exact ⟨cancels.1 _ 0 reads busy (by simp [ask, passLate]), waits,
    fun e => (cancels.2 (by simp [ask, passLate])).2 1 e (.inr ⟨_, waits⟩)⟩

/-- A compile that waits for another one when that is cancelled returns a renderer: it reads itself,
under a token that is drawn after the cancellation. -/
theorem waiter_outlives_cancellation :
    let s := run slow (start shelf) [ask, ask]
    let u := run slow s [.ask .cancel, .turn 0, .turn 1, passLate, .turn 1]
    s.Pends slow "partials/a.html.compiled" 0 ∧ s.Waits slow "partials/a.html.compiled" 1 ∧
      (∃ e, u.answer? 0 = some (.error e) ∧ e.isCancelled = true) ∧
      ∃ record, u.renderer? 1 = some record := by
  intro s u
  refine ⟨⟨_, _, rfl, rfl, rfl, rfl⟩, ⟨⟨_, _, rfl, rfl, rfl, rfl⟩, _, rfl, _, _, _, rfl⟩, ?_, ?_⟩
  · exact failed_of_error (by decide)
  · have served : (u.renderer? 1).isSome = true := by decide
    exact Option.isSome_iff_exists.1 served

end TemplateCache
