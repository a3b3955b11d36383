import TemplateCache.Proofs.Compiler.Boarding
import TemplateCache.Proofs.Store.Obedience

/-!
# Operations and their tokens

Every operation draws a token that descends from the root of its compiler, and works under it. It
fails as cancelled only if that token was cancelled. An attempt to compile fails so as soon as it
gets a turn after that.
-/

namespace TemplateCache

open Job

variable {π α β : Type}

/-! ## What happens to the clock -/

/-- Cancelling a token adds its own number to those that are cancelled. -/
theorem Clock.cancel_spec (clock : Clock) (token : Token) :
    (clock.cancel token).fresh = clock.fresh ∧ ∀ n, n ∈ (clock.cancel token).cancelled ↔
      n ∈ clock.cancelled ∨ token.lineage.head? = some n := by
  unfold Clock.cancel
  cases token.lineage with
  | nil => simp
  | cons own above => simp [or_comm, eq_comm]

namespace Bench

/-- The number of a token that was drawn meanwhile. -/
def Draws (b d : Bench π) (n : Nat) : Prop :=
  (Clocked.clock b).fresh ≤ n ∧ n < (Clocked.clock d).fresh

/-- The number of the token of a watch. -/
def Watches (b : Bench π) (n : Nat) : Prop :=
  ∃ w ∈ b.state.watchers, w.token.lineage.head? = some n

/-- What was cancelled stays so, and a watch goes on until its token is cancelled. -/
structure Upholds (b d : Bench π) : Prop where
  kept : ∀ n ∈ (Clocked.clock b).cancelled, n ∈ (Clocked.clock d).cancelled
  stays : ∀ w ∈ b.state.watchers, w ∈ d.state.watchers ∨
    ∀ n, w.token.lineage.head? = some n → n ∈ (Clocked.clock d).cancelled
  numbered : ∀ w ∈ d.state.watchers, w ∈ b.state.watchers ∨ w.token.lineage ≠ []

/-- What calls do to tokens, if they do not ask to cancel: they draw new ones and end watches. -/
structure Proceeds (b d : Bench π) : Prop extends Upholds b d where
  root : d.state.root = b.state.root
  fresh : (Clocked.clock b).fresh ≤ (Clocked.clock d).fresh
  ends : ∀ n ∈ (Clocked.clock d).cancelled,
    n ∈ (Clocked.clock b).cancelled ∨ b.Watches n ∨ b.Draws d n
  watches : ∀ n, d.Watches n → b.Watches n ∨ b.Draws d n

variable {b d e : Bench π}

theorem Draws.trans_left {n : Nat} (draws : b.Draws d n) (later : d.Proceeds e) : b.Draws e n :=
  ⟨draws.1, Nat.lt_of_lt_of_le draws.2 later.fresh⟩

theorem Draws.trans_right {n : Nat} (before : b.Proceeds d) (draws : d.Draws e n) : b.Draws e n :=
  ⟨Nat.le_trans before.fresh draws.1, draws.2⟩

theorem upholds_of_watchers (watchers : d.state.watchers = b.state.watchers)
    (kept : ∀ n ∈ (Clocked.clock b).cancelled, n ∈ (Clocked.clock d).cancelled) :
    b.Upholds d where
  kept := kept
  stays w there := by
    rw [watchers]
    exact .inl there
  numbered w there := by
    rw [← watchers]
    exact .inl there

theorem Upholds.trans (h : b.Upholds d) (h' : d.Upholds e) : b.Upholds e where
  kept n ended := h'.kept n (h.kept n ended)
  stays w there := by
    rcases h.stays w there with still | ended
    · exact h'.stays w still
    · exact .inr fun n own => h'.kept n (ended n own)
  numbered w there := by
    rcases h'.numbered w there with before | numbered
    · exact h.numbered w before
    · exact .inr numbered

theorem proceeds_of_clock (clock : Clocked.clock d = Clocked.clock b)
    (root : d.state.root = b.state.root) (watchers : d.state.watchers = b.state.watchers) :
    b.Proceeds d where
  toUpholds := upholds_of_watchers watchers fun n ended => by rwa [clock]
  root := root
  fresh := by rw [clock]
  ends n ended := by
    rw [clock] at ended
    exact .inl ended
  watches n watched := by
    unfold Watches at watched
    rw [watchers] at watched
    exact .inl watched

theorem Proceeds.refl (b : Bench π) : b.Proceeds b := proceeds_of_clock rfl rfl rfl

theorem Proceeds.trans (h : b.Proceeds d) (h' : d.Proceeds e) : b.Proceeds e where
  toUpholds := h.toUpholds.trans h'.toUpholds
  root := h'.root.trans h.root
  fresh := Nat.le_trans h.fresh h'.fresh
  ends n ended := by
    rcases h'.ends n ended with before | watched | drawn
    · rcases h.ends n before with before | watched | drawn
      · exact .inl before
      · exact .inr (.inl watched)
      · exact .inr (.inr (drawn.trans_left h'))
    · exact .inr ((h.watches n watched).imp_right fun drawn => drawn.trans_left h')
    · exact .inr (.inr (drawn.trans_right h))
  watches n watched := by
    rcases h'.watches n watched with before | drawn
    · exact (h.watches n before).imp_right fun drawn => drawn.trans_left h'
    · exact .inr (drawn.trans_right h)

theorem Prepares.proceeds (h : b.Prepares d) : b.Proceeds d :=
  proceeds_of_clock h.clock h.root h.watchers

theorem isCancelled_iff {token : Token} :
    Job.isCancelled token b = true ↔ ∃ n ∈ token.lineage, n ∈ (Clocked.clock b).cancelled := by
  unfold Job.isCancelled Clock.isCancelled
  simp only [List.any_eq_true, List.contains_iff_mem]

/-- What was cancelled stays cancelled. -/
theorem isCancelled_of_kept {token : Token}
    (kept : ∀ n ∈ (Clocked.clock b).cancelled, n ∈ (Clocked.clock d).cancelled)
    (ended : Job.isCancelled token b = true) : Job.isCancelled token d = true := by
  obtain ⟨n, above, ended⟩ := isCancelled_iff.1 ended
  exact isCancelled_iff.2 ⟨n, above, kept n ended⟩

theorem proceeds_newToken (settings : CompilerSettings) :
    b.Proceeds (newToken settings b).2 where
  toUpholds := upholds_of_watchers rfl fun _ => id
  root := rfl
  fresh := Nat.le_succ _
  ends _ := .inl
  watches _ := .inl

theorem proceeds_registerAll {resolver : Resolver} (records : List ContentRecord) :
    b.Proceeds (records.foldl (fun b record => (register resolver record b).2) b) := by
  induction records generalizing b with
  | nil => exact .refl b
  | cons record rest ih => exact (prepares_register record).proceeds.trans ih

/-- Clearing ends the watches and nothing else. -/
theorem proceeds_clearing : b.Proceeds (clearing b) := by
  have fold (watchers : List Watcher) (clock : Clock) :
      let clock' := watchers.foldl (fun clock w => clock.cancel w.token) clock
      clock'.fresh = clock.fresh ∧ ∀ n, n ∈ clock'.cancelled ↔
        n ∈ clock.cancelled ∨ ∃ w ∈ watchers, w.token.lineage.head? = some n := by
    induction watchers generalizing clock with
    | nil => simp
    | cons w rest ih =>
        obtain ⟨fresh, cancelled⟩ := ih (clock.cancel w.token)
        obtain ⟨same, one⟩ := Clock.cancel_spec clock w.token
        refine ⟨fresh.trans same, fun n => (cancelled n).trans ?_⟩
        rw [one]
        simp [or_assoc]
  obtain ⟨fresh, cancelled⟩ := fold b.state.watchers (Clocked.clock b)
  exact {
    root := rfl
    fresh := Nat.le_of_eq fresh.symm
    kept := fun n ended => (cancelled n).2 (.inl ended)
    stays := fun w there => .inr fun n own => (cancelled n).2 (.inr ⟨w, there, own⟩)
    numbered := fun w there => nomatch there
    ends := fun n ended => ((cancelled n).1 ended).imp_right .inl
    watches := fun n ⟨w, there, _⟩ => nomatch there }

end Bench

/-! ## Who fails as cancelled -/

namespace Compiling

/-- An operation failed because it was cancelled. -/
def Cancelled (r : Except CompileError α) : Prop := ∃ e, r = .error e ∧ e.isCancelled = true

/-- Only this makes an operation fail as cancelled. -/
def Blames (blame : Bench π → Prop) (x : Compiling π α) : Prop :=
  ∀ b, x.run.Ensures Bench.Proceeds (fun r d => Cancelled r → blame d) b

/-- It ends at once when it gets a turn after its token was cancelled. -/
def Heeds (token : Token) (x : Compiling π α) : Prop := x.run.Heeds token Cancelled

variable {blame : Bench π → Prop} {token : Token}

theorem cancelled_storeFor {name key : String} {e : StoreError}
    (failed : Cancelled (α := α) (.error (.storeFor name key e))) :
    Job.Cancelled (α := β) (.error e) := by
  obtain ⟨_, ⟨⟩, ended⟩ := failed
  cases e with
  | cancelled operation => exact ⟨_, rfl, operation, rfl⟩
  | _ => exact nomatch ended

theorem cancelled_store {e : StoreError} (failed : Cancelled (α := α) (.error (.store e))) :
    Job.Cancelled (α := β) (.error e) := by
  obtain ⟨_, ⟨⟩, ended⟩ := failed
  cases e with
  | cancelled operation => exact ⟨_, rfl, operation, rfl⟩
  | _ => exact nomatch ended

theorem blames_ofExcept (r : Except CompileError α) (fine : ¬Cancelled r) :
    Blames (π := π) blame (ofExcept r) := fun _ failed => absurd failed fine

theorem blames_pure (v : α) : Blames (π := π) blame (pure v) :=
  blames_ofExcept _ (by rintro ⟨e, ⟨⟩, -⟩)

theorem blames_throw {e : CompileError} (fine : e.isCancelled = false) :
    Blames blame (throw e : Compiling π α) := by
  refine blames_ofExcept (.error e) ?_
  rintro ⟨_, ⟨⟩, ended⟩
  exact nomatch fine.symm.trans ended

theorem blames_naming (r : Except NameError α) : Blames (π := π) blame (naming r) := by
  cases r with
  | ok v => exact blames_pure v
  | error e => exact blames_throw rfl

theorem blames_step {f : Bench π → α × Bench π} (h : ∀ b : Bench π, b.Proceeds (f b).2) :
    Blames blame (step f) := fun b => ⟨h b, blames_pure _ _⟩

theorem blames_gets (f : Bench π → α) : Blames blame (gets f) :=
  fun b => ⟨.refl b, blames_pure _ _⟩

theorem blames_modify {f : Bench π → Bench π} (h : ∀ b : Bench π, b.Proceeds (f b)) :
    Blames blame (modify f) := fun b => ⟨h b, blames_pure _ _⟩

theorem Blames.bind {x : Compiling π α} {f : α → Compiling π β} (h : Blames blame x)
    (hf : ∀ v, Blames blame (f v)) : Blames blame (x >>= f) := by
  intro b
  refine Ensures.bind (f := ExceptT.bindCont f) ((h b).mono id ?_)
  intro r d fine
  cases r with
  | ok v => exact hf v d
  | error e =>
      rintro ⟨_, ⟨⟩, ended⟩
      exact fine ⟨e, rfl, ended⟩

theorem Blames.map {x : Compiling π α} {f : α → β} (h : Blames blame x) :
    Blames blame (f <$> x) := by
  intro b
  refine Ensures.bind ((h b).mono id ?_)
  intro r d fine
  cases r with
  | ok v => exact blames_pure (f v) d
  | error e =>
      rintro ⟨_, ⟨⟩, ended⟩
      exact fine ⟨e, rfl, ended⟩

/-- What the store does on its site. -/
theorem ensures_site {job : Job (Site π) α} {good : α → Site π → Prop} {b : Bench π}
    (h : job.Ensures SameClock good b.site) :
    (job.on Bench.sitePart).Ensures Bench.Proceeds (fun r d => good r d.site) b := by
  have works (b : Bench π) (site : Site π) (same : SameClock (Bench.sitePart.get b) site) :
      b.Proceeds (Bench.sitePart.set site b) := Bench.proceeds_of_clock same rfl rfl
  exact Ensures.on (fun _ _ => rfl) works h

/-- A store says that it was cancelled only if it was, so what follows may rely on that. -/
theorem blames_storing {job : Storing π α} {f : Except StoreError α → Compiling π β}
    (honest : job.Honest token)
    (hf : ∀ r b, (Job.Cancelled r → isCancelled token b = true) →
      (f r).run.Ensures Bench.Proceeds (fun r d => Cancelled r → blame d) b) :
    Blames blame (storing job >>= f) := by
  intro b
  refine Ensures.bind (f := ExceptT.bindCont f) (Ensures.bind ?_)
  refine (ensures_site (honest b.site)).mono id ?_
  intro r d fine
  exact hf r d fine

theorem map_bind_run {γ : Type} (x : Compiling π α) (g : α → Compiling π β) (f : β → γ) :
    (f <$> (x >>= g)).run = (x >>= fun v => f <$> g v).run := by
  show Job.bind (Job.bind x.run _) _ = Job.bind x.run _
  rw [bind_assoc]
  refine congrArg (Job.bind x.run) (funext fun r => ?_)
  cases r with
  | ok v => rfl
  | error e => rfl

/-! ## Who ends at once -/

theorem heeds_pure (v : α) : Heeds (π := π) token (pure v) := trivial

theorem heeds_ofExcept (r : Except CompileError α) : Heeds (π := π) token (ofExcept r) := trivial

theorem heeds_throw (e : CompileError) : Heeds token (throw e : Compiling π α) := trivial

theorem heeds_step (f : Bench π → α × Bench π) : Heeds token (step f) := fun _ => trivial

theorem heeds_gets (f : Bench π → α) : Heeds token (gets f) := fun _ => trivial

theorem heeds_modify (f : Bench π → Bench π) : Heeds token (modify f) := fun _ => trivial

theorem Heeds.bind {x : Compiling π α} {f : α → Compiling π β} (h : Heeds token x)
    (hf : ∀ v, Heeds token (f v)) : Heeds token (x >>= f) := Job.Heeds.bindExcept h hf

/-- What follows an operation of a store ends with it where that says that it was cancelled. -/
theorem heeds_storing {job : Storing π α} {f : Except StoreError α → Compiling π β}
    (heeds : job.Heeds token)
    (stops : ∀ operation b, (f (.error (.cancelled operation))).run.Stops Cancelled b)
    (hf : ∀ r, Heeds token (f r)) : Heeds token (storing job >>= f) := by
  have onSite : (job.run.on Bench.sitePart).Heeds token Job.Cancelled :=
    Job.Heeds.on (fun _ _ => rfl) (fun _ => rfl) heeds
  have lifted : (storing job).run.Heeds token fun r =>
      ∃ operation, r = .ok (.error (.cancelled operation)) := by
    refine Job.Heeds.bind onSite ?_ fun _ => trivial
    rintro _ b ⟨e, rfl, operation, rfl⟩
    exact ⟨operation, rfl⟩
  refine Job.Heeds.bind (f := ExceptT.bindCont f) lifted ?_ fun r => ?_
  · rintro _ b ⟨operation, rfl⟩
    exact stops operation b
  · cases r with
    | ok found => exact hf found
    | error e => trivial

end Compiling

/-! ## Attempts -/

namespace Compiler

open Bench Compiling

variable {c : Compiler π} {address : Address} {codeKey contentKey : String} {since : Nat}
  {token : Token} {given : Option ContentRecord}

theorem load_proceeds (name source : String) (blame : Bench π → Prop) :
    Blames blame (c.load name codeKey source) := by
  refine blames_step fun b => ?_
  cases c.generator.load source c.settings.generator with
  | error e => exact proceeds_of_clock rfl rfl rfl
  | ok renderer => exact proceeds_of_clock rfl rfl rfl

theorem generate_proceeds (content : Content) (blame : Bench π → Prop) :
    Blames blame (c.generate content) := blames_step fun _ => proceeds_of_clock rfl rfl rfl

variable (obedient : c.store.Obedient)

include obedient

theorem findCode_blames :
    Blames (isCancelled token · = true) (c.findCode address codeKey token) := by
  unfold findCode storedCode
  refine Blames.bind ?_ fun found => ?_
  · split
    · refine blames_storing (obedient.readCode address token) fun r b fine => ?_
      split
      · exact blames_pure _ _
      · exact fun _ => fine ⟨_, rfl, _, rfl⟩
      · exact blames_throw rfl _
      · exact blames_pure _ _
    · exact (blames_gets _).bind fun _ => blames_pure _
  · split
    · exact blames_pure _
    · exact blames_pure _
    · exact load_proceeds _ _ _

theorem findContent_blames :
    Blames (isCancelled token · = true) (c.findContent address codeKey contentKey since token) := by
  have delivered (found : Option ContentRecord) :
      Blames (isCancelled token · = true) (c.deliver address contentKey found) := by
    cases found with
    | some record => exact blames_pure _
    | none => exact blames_throw rfl
  unfold findContent
  refine (blames_gets _).bind fun registry => ?_
  split
  · exact blames_pure _
  · refine Blames.bind ?_ fun found => ?_
    · rw [readContent_eq]
      split
      · refine blames_storing (obedient.readContent address token) fun r b fine => ?_
        split
        · exact delivered _ _
        · exact fun failed => fine (cancelled_storeFor failed)
      · exact (blames_gets _).bind fun _ => delivered _
    · refine Blames.bind (blames_modify fun b => ?_) fun _ => blames_pure _
      split
      · exact .refl b
      · exact proceeds_of_clock rfl rfl rfl

theorem compileContent_blames {content : Content} : Blames (isCancelled token · = true)
    (c.compileContent address codeKey contentKey content since token) := by
  unfold compileContent storeCode
  refine (generate_proceeds _ _).bind fun generated => ?_
  split
  · exact blames_throw rfl
  · refine Blames.bind ?_ fun record => ?_
    · split
      · refine blames_storing (obedient.writeCode address _ token) fun r b fine => ?_
        split
        · exact blames_pure _ _
        · exact fun failed => fine (cancelled_storeFor failed)
      · exact blames_pure _
    · refine Blames.bind (blames_modify fun b => ?_) fun _ => blames_pure _
      exact proceeds_of_clock rfl rfl rfl

/-- An attempt fails as cancelled only if its token was cancelled. -/
theorem attempt_blames :
    Blames (isCancelled token · = true) (c.attempt address codeKey given since token) := by
  unfold attempt
  refine (blames_gets _).bind fun cache => Blames.bind ?_ fun found => ?_
  · split
    · exact findCode_blames obedient
    · exact blames_pure _
  · unfold conclude
    split
    · refine Blames.bind (blames_modify fun b => ?_) fun _ => blames_pure _
      exact proceeds_of_clock rfl rfl rfl
    · unfold compileRecord
      refine (blames_naming _).bind fun contentKey => ?_
      dsimp only
      split
      · exact (blames_pure _).bind fun _ => compileContent_blames obedient
      · exact (findContent_blames obedient).bind fun _ => compileContent_blames obedient

theorem findCode_heeds : Compiling.Heeds token (c.findCode address codeKey token) := by
  unfold findCode storedCode
  refine Compiling.Heeds.bind ?_ fun found => ?_
  · split
    · refine heeds_storing (obedient.heedsReadCode address token) (fun _ b => ?_) fun r => ?_
      · exact ⟨_, rfl, rfl⟩
      · split
        · exact heeds_pure _
        · exact heeds_throw _
        · exact heeds_throw _
        · exact heeds_pure _
    · exact (heeds_gets _).bind fun _ => heeds_pure _
  · split
    · exact heeds_pure _
    · exact heeds_pure _
    · exact heeds_step _

theorem findContent_heeds :
    Compiling.Heeds token (c.findContent address codeKey contentKey since token) := by
  have delivered (found : Option ContentRecord) :
      Compiling.Heeds token (c.deliver address contentKey found) := by
    cases found with
    | some record => exact heeds_pure _
    | none => exact heeds_throw _
  unfold findContent
  refine (heeds_gets _).bind fun registry => ?_
  split
  · exact heeds_pure _
  · refine Compiling.Heeds.bind ?_ fun found => (heeds_modify _).bind fun _ => heeds_pure _
    rw [readContent_eq]
    split
    · refine heeds_storing (obedient.heedsReadContent address token) (fun _ b => ?_) fun r => ?_
      · exact ⟨_, rfl, rfl⟩
      · split
        · exact delivered _
        · exact heeds_throw _
    · exact (heeds_gets _).bind fun _ => delivered _

theorem compileContent_heeds {content : Content} : Compiling.Heeds token
    (c.compileContent address codeKey contentKey content since token) := by
  unfold compileContent storeCode
  refine Compiling.Heeds.bind (heeds_step _) fun generated => ?_
  split
  · exact heeds_throw _
  · refine Compiling.Heeds.bind ?_ fun record => (heeds_modify _).bind fun _ => heeds_pure _
    split
    · refine heeds_storing (obedient.heedsWriteCode address _ token) (fun _ b => ?_) fun r => ?_
      · exact ⟨_, rfl, rfl⟩
      · split
        · exact heeds_pure _
        · exact heeds_throw _
    · exact heeds_pure _

/-- An attempt ends at once when it gets a turn after its token was cancelled. -/
theorem attempt_heeds :
    Compiling.Heeds token (c.attempt address codeKey given since token) := by
  unfold attempt
  refine (heeds_gets _).bind fun cache => Compiling.Heeds.bind ?_ fun found => ?_
  · split
    · exact findCode_heeds obedient
    · exact heeds_pure _
  · unfold conclude
    split
    · exact (heeds_modify _).bind fun _ => heeds_pure _
    · unfold compileRecord
      refine (heeds_ofExcept _).bind fun contentKey => ?_
      dsimp only
      split
      · exact (heeds_pure _).bind fun _ => compileContent_heeds obedient
      · exact (findContent_heeds obedient).bind fun _ => compileContent_heeds obedient

end Compiler

/-! ## Permits -/

/-- Under what an operation works. -/
inductive Permit where
  /-- It has not drawn its token yet. -/
  | idle
  | under (token : Token)
  /-- Its token was cancelled. -/
  | revoked

namespace Permit

/-- What an operation does by itself, whatever others do meanwhile. -/
inductive Move (settings : CompilerSettings) : Permit → Bench π → Permit → Bench π → Prop where
  | work {a : Permit} {b d : Bench π} (proceeds : b.Proceeds d) : Move settings a b a d
  | draw {b : Bench π} :
      Move settings .idle b (.under (b.newToken settings).1) (b.newToken settings).2
  | revoke {token : Token} {b : Bench π} (ended : isCancelled token b = true) :
      Move settings (.under token) b .revoked b

/-- It says that it was cancelled only if it was. -/
def Allows (r : Except CompileError α) (a : Permit) : Prop := Compiling.Cancelled r → a = .revoked

end Permit

/-- Operations under the tokens that they draw. -/
def permitPlan (settings : CompilerSettings) : Plan (Bench π) Permit :=
  ⟨Permit.Move settings, fun _ _ => True⟩

section

open Bench Compiling Compiler

variable {settings : CompilerSettings} {a : Permit} {b : Bench π}

theorem follows_proceeding {job : Job (Bench π) α} {good : α → Bench π → Prop}
    {ok : α → Permit → Bench π → Prop} (h : job.Ensures Proceeds good b)
    (ends : ∀ r d, good r d → ∃ z, (permitPlan settings).Path a d z d ∧ ok r z d) :
    job.Follows (permitPlan settings) ok a b := by
  induction job generalizing b with
  | done r => exact ends r b h
  | act update next ih => exact ⟨a, .single (.work h.1), ih b h.2⟩
  | wait event next ih => exact ⟨a, .refl, fun _ _ => trivial, fun t _ => ih (h t)⟩
  | pause next ih => exact ⟨a, .refl, trivial, fun t => ih (h t)⟩

/-- An operation that is honest about its token works under it. -/
theorem Compiling.Blames.follows {token : Token} {x : Compiling π α}
    (h : Blames (isCancelled token · = true) x) :
    x.run.Follows (permitPlan settings) (fun r a _ => a.Allows r) (.under token) b := by
  refine follows_proceeding (h b) fun r d fine => ?_
  by_cases failed : Cancelled r
  · exact ⟨.revoked, .single (.revoke (fine failed)), fun _ => rfl⟩
  · exact ⟨.under token, .refl, fun cut => absurd cut failed⟩

/-- One that never says that it was cancelled needs no token. -/
theorem Compiling.Blames.follows_any {x : Compiling π α} (h : Blames (fun _ => False) x) :
    x.run.Follows (permitPlan settings) (fun r z _ => z = a ∧ ¬Cancelled r) a b :=
  follows_proceeding (h b) fun _ _ fine => ⟨a, .refl, rfl, fine⟩

/-- Something that is never cancelled, and what comes after it. -/
theorem Compiling.Blames.follows_bind {x : Compiling π β} {f : β → Compiling π α}
    (h : Blames (fun _ => False) x) (hf : ∀ v d,
      (f v).run.Follows (permitPlan settings) (fun r a _ => a.Allows r) a d) :
    (x >>= f).run.Follows (permitPlan settings) (fun r a _ => a.Allows r) a b := by
  refine Compiling.follows_bind (h.follows_any.mono ?_)
  rintro (e | v) z d ⟨rfl, fine⟩
  · exact fun failed => absurd (failed.imp fun _ ⟨same, ended⟩ => ⟨by cases same; rfl, ended⟩) fine
  · exact hf v d

/-- An operation draws its token, and is honest about it. -/
theorem follows_draw {f : Token → Compiling π α}
    (h : ∀ token, Blames (isCancelled token · = true) (f token)) :
    (Compiling.step (Bench.newToken settings) >>= f).run.Follows (permitPlan settings)
      (fun r a _ => a.Allows r) .idle b :=
  Compiling.follows_bind (follows_step (.single .draw) (h _).follows)

/-! ## Calls -/

variable {c : Compiler π}

theorem register_blames (name : String) (content : Content) (blame : Bench π → Prop) :
    Blames blame (c.register name content) :=
  (blames_naming _).bind fun _ => blames_step fun _ => (prepares_register _).proceeds

/-- A watch takes a token of its own. -/
theorem proceeds_watch (root : Path) (seen : Nat) :
    b.Proceeds (Clocked.setClock ((Clocked.clock b).newToken settings.timeout).2
      (b.onState fun s => { s with watchers :=
        s.watchers ++ [⟨root, ((Clocked.clock b).newToken settings.timeout).1, seen, {}⟩] })) where
  root := rfl
  fresh := Nat.le_succ _
  kept _ := id
  stays w there := .inl (List.mem_append_left _ there)
  numbered w there := by
    rcases List.mem_append.1 there with before | new
    · exact .inl before
    · rw [List.mem_singleton.1 new]
      exact .inr nofun
  ends _ := .inl
  watches n := by
    rintro ⟨w, there, own⟩
    rcases List.mem_append.1 there with before | new
    · exact .inl ⟨w, before, own⟩
    · rw [List.mem_singleton.1 new] at own
      cases own
      exact .inr ⟨Nat.le_refl _, Nat.lt_succ_self _⟩

theorem watch_blames (blame : Bench π → Prop) : Blames blame c.watch := by
  unfold Compiler.watch
  split
  · exact blames_throw rfl
  · refine (blames_gets _).bind fun b => ?_
    dsimp only
    split
    · exact blames_pure _
    · split
      · exact fun d => blames_throw (e := .watch) rfl d
      · exact Blames.bind (blames_modify fun b => proceeds_watch _ _) fun _ => blames_pure _

theorem apply_proceeds (change : PathChange) : b.Proceeds (c.apply change b) := by
  cases change with
  | updated record => exact (prepares_register record).proceeds
  | removed name => exact prepares_eraseName.proceeds

variable (obedient : c.store.Obedient)

include obedient

/-- A settled path says nothing of what the store answers. -/
theorem settlePath_blames (path : Path) (token : Token) (blame : Bench π → Prop) :
    Blames blame (c.settlePath path token) := by
  have found : Blames blame (c.eventAt path token) := by
    unfold Compiler.eventAt
    split
    · exact blames_pure _
    · rename_i name _
      refine (blames_gets _).bind fun isDir => ?_
      split
      · exact blames_pure _
      · refine blames_storing (obedient.readSource path token) fun r d _ => ?_
        split
        · exact blames_pure _ _
        · refine blames_storing (obedient.unregister name token) (fun _ _ _ => ?_) d
          exact blames_pure _ _
  refine (blames_gets _).bind fun cancelled => ?_
  split
  · exact blames_pure _
  · refine found.bind fun event => ?_
    split
    · exact blames_pure _
    · refine blames_modify fun b => ?_
      split
      · exact .refl b
      · exact apply_proceeds _

theorem unregister_follows (name : String) :
    (c.unregister name).run.Follows (permitPlan c.settings) (fun r a _ => a.Allows r) .idle b := by
  refine (blames_naming _).follows_bind fun key d => ?_
  refine (blames_modify fun _ => prepares_eraseName.proceeds).follows_bind fun _ d => ?_
  refine follows_draw fun token => ?_
  refine blames_storing (obedient.unregister name token) fun r d fine => ?_
  split
  · exact blames_pure _ _
  · exact fun failed => fine (cancelled_storeFor failed)

theorem scan_follows :
    c.scan.run.Follows (permitPlan c.settings) (fun r a _ => a.Allows r) .idle b := by
  refine follows_draw fun token b => ?_
  refine Ensures.bind (f := ExceptT.bindCont _) (Ensures.bind ?_)
  refine (ensures_site (obedient.scan token b.site)).mono id ?_
  intro discovery d fine
  refine ⟨proceeds_registerAll _, fun failed => ?_⟩
  refine isCancelled_of_kept (proceeds_registerAll _).kept (fine ?_)
  cases outcome : discovery.outcome with
  | ok number =>
      rw [outcome] at failed
      obtain ⟨_, same, -⟩ := failed
      exact nomatch same
  | error e =>
      rw [outcome] at failed
      exact cancelled_store failed

theorem clear_follows (all : Bool) :
    (c.clear all).run.Follows (permitPlan c.settings) (fun r a _ => a.Allows r) .idle b := by
  refine (blames_modify fun _ => proceeds_clearing).follows_bind fun _ d => ?_
  refine follows_draw fun token => blames_storing (obedient.clear all token) fun r d fine => ?_
  split
  · exact blames_pure _ _
  · exact fun failed => fine (cancelled_store failed)

theorem compileAnew_follows {address : Address} {codeKey : String} {given : Option ContentRecord}
    {since : Nat} : (c.compileAnew address codeKey given since).run.Follows
      (permitPlan c.settings) (fun r a _ => a.Allows r) .idle b := by
  rw [compileAnew_job]
  exact ⟨_, .single .draw, (attempt_blames obedient).follows⟩

/-- A caller has no token as long as it waits in a flight. -/
theorem queue_follows {address : Address} {codeKey : String} {given : Option ContentRecord}
    {since number caller : Nat} :
    (queue number caller (depart codeKey number
      (c.compileAnew address codeKey given since).run)).Follows
      (permitPlan c.settings) (fun r a _ => a.Allows r) .idle b := by
  have noted (d : Bench π) (f : Flights → Flights) : d.Proceeds (d.withFlights f) :=
    proceeds_of_clock rfl rfl rfl
  refine ⟨.idle, .refl, fun _ _ => trivial, fun d _ => ⟨.idle, .single (.work (.refl d)), ?_⟩⟩
  dsimp only [id]
  split
  · exact ⟨.idle, .single (.work (noted _ _)), .idle, .refl, nofun⟩
  · refine Follows.bind ((compileAnew_follows obedient).mono ?_)
    intro r a d allows
    refine ⟨a, .single (.work (noted _ _)), a, .single (.work (noted _ _)), a, .refl, ?_⟩
    rintro ⟨e, same, ended⟩
    cases r with
    | ok record => exact nomatch same
    | error e' =>
        cases same
        exact allows ⟨e, rfl, ended⟩

theorem compile_follows_permit (input : CompileInput) :
    (Command.work c (.compile input)).run.Follows (permitPlan c.settings)
      (fun r a _ => a.Allows r) .idle b := by
  have registers : Blames (fun _ => False) (c.registerGiven input) := by
    unfold registerGiven
    split
    · exact blames_pure _
    · refine (blames_naming _).bind fun key => Blames.map (blames_step fun _ => ?_)
      exact (prepares_register _).proceeds
  dsimp only [Command.work]
  unfold compile
  rw [map_bind_run]
  refine (blames_naming _).follows_bind fun codeKey d => ?_
  rw [map_bind_run]
  refine registers.follows_bind fun given d => ?_
  rw [map_bind_run]
  refine (blames_gets _).follows_bind fun since d => ?_
  rw [map_bind_run]
  refine (blames_gets _).follows_bind fun cache d => ?_
  cases (if c.settings.caching then cache.get? codeKey else none) with
  | some record => exact ⟨.idle, .refl, nofun⟩
  | none =>
      dsimp only
      rw [share_job]
      exact ⟨.idle, .single (.work (proceeds_of_clock rfl rfl rfl)), queue_follows obedient⟩

/-- Every call but a cancellation works under the token that it draws. -/
theorem work_follows_permit {command : Command} (other : command ≠ .cancel) :
    (command.work c).run.Follows (permitPlan c.settings) (fun r a _ => a.Allows r) .idle b := by
  have mapped {α : Type} {x : Compiling π α} {f : α → Answer}
      (h : x.run.Follows (permitPlan c.settings) (fun r a _ => a.Allows r) .idle b) :
      (f <$> x).run.Follows (permitPlan c.settings) (fun r a _ => a.Allows r) .idle b := by
    refine Compiling.follows_map (h.mono ?_)
    rintro r a d allows ⟨e, same, ended⟩
    cases r with
    | ok v => exact nomatch same
    | error e' =>
        cases same
        exact allows ⟨e, rfl, ended⟩
  have calm {α : Type} {x : Compiling π α} (h : Blames (fun _ => False) x) :
      x.run.Follows (permitPlan c.settings) (fun r a _ => a.Allows r) .idle b :=
    h.follows_any.mono fun ⟨_, fine⟩ failed => absurd failed fine
  cases command with
  | compile input => exact compile_follows_permit obedient input
  | register name content => exact mapped (calm (register_blames name content _))
  | unregister name => exact mapped (unregister_follows obedient name)
  | scan => exact mapped (scan_follows obedient)
  | clear all => exact mapped (clear_follows obedient all)
  | cancel => exact absurd rfl other
  | watch => exact mapped (calm (watch_blames _))
  | settle path token => exact mapped (calm (settlePath_blames obedient path token _))

end
end TemplateCache
