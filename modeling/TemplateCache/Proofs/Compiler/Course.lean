import TemplateCache.Proofs.Compiler.Stage

/-!
# A compile keeps to its stages

One lemma for each function of a compile says from which stage to which it leads. The last one,
`compile_follows`, is all that later proofs use of the code of a compile.
-/

namespace TemplateCache

variable {π φ α β : Type}

namespace Compiling

variable {p : Job.Plan (Bench π) φ} {ok : Except CompileError α → φ → Bench π → Prop}
  {a z : φ} {b : Bench π}

theorem follows_bind {x : Compiling π β} {f : β → Compiling π α}
    (h : x.run.Follows p (fun r a b =>
      match r with
      | .ok v => (f v).run.Follows p ok a b
      | .error e => ok (.error e) a b) a b) :
    (x >>= f).run.Follows p ok a b := by
  refine Job.Follows.bind (f := ExceptT.bindCont f) (h.mono ?_)
  intro r a b hr
  cases r with
  | ok v => exact hr
  | error e => exact ⟨a, .refl, hr⟩

theorem follows_pure {v : α} (h : ok (.ok v) a b) :
    (pure v : Compiling π α).run.Follows p ok a b := ⟨a, .refl, h⟩

theorem follows_throw {e : CompileError} (h : ok (.error e) a b) :
    (throw e : Compiling π α).run.Follows p ok a b := ⟨a, .refl, h⟩

theorem follows_lift {job : Job (Bench π) α}
    (h : job.Follows p (fun v a b => ok (.ok v) a b) a b) :
    (ExceptT.lift job : Compiling π α).run.Follows p ok a b := by
  refine Job.Follows.bind (f := fun v => Job.done (.ok v : Except CompileError α)) (h.mono ?_)
  intro v a b hv
  exact ⟨a, .refl, hv⟩

theorem follows_step {f : Bench π → α × Bench π} (path : p.Path a b z (f b).2)
    (h : ok (.ok (f b).1) z (f b).2) : (step f).run.Follows p ok a b :=
  follows_lift ⟨z, path, z, .refl, h⟩

theorem follows_gets {f : Bench π → α} (h : ok (.ok (f b)) a b) :
    (gets f).run.Follows p ok a b :=
  follows_lift ⟨a, .refl, a, .refl, h⟩

theorem follows_modify {ok : Except CompileError Unit → φ → Bench π → Prop}
    {f : Bench π → Bench π} (path : p.Path a b z (f b)) (h : ok (.ok ()) z (f b)) :
    (modify f).run.Follows p ok a b :=
  follows_lift ⟨z, path, z, .refl, h⟩

theorem follows_ofExcept {r : Except CompileError α} (h : ok r a b) :
    (ofExcept r).run.Follows p ok a b := ⟨a, .refl, h⟩

/-- An operation of the store that may take its time. -/
theorem follows_storing {job : Storing π β}
    {ok : Except CompileError (Except StoreError β) → φ → Bench π → Prop}
    {change : Site π → Site π → Prop} {good : Except StoreError β → Site π → Prop}
    (ensures : job.run.Ensures change good b.site) (rest : ∀ b, p.rests a b)
    (works : ∀ (b : Bench π) site, change b.site site → p.Path a b a (b.withSite site))
    (ends : ∀ r (b : Bench π), good r b.site → ok (.ok r) a b) :
    (storing job).run.Follows p ok a b :=
  follows_lift (ensures.follows (fun _ _ => rfl) rest works ends)

theorem follows_storing_atOnce {job : Storing π β} {r : Except StoreError β}
    {ok : Except CompileError (Except StoreError β) → φ → Bench π → Prop}
    (atOnce : job.run.AtOnce r b.site) (ends : ok (.ok r) a b) :
    (storing job).run.Follows p ok a b :=
  follows_lift (atOnce.follows (fun _ => rfl) ends)

end Compiling

namespace Compiler

open Compiling Job.Plan

variable {c : Compiler π} {input : CompileInput} {codeKey : String} {t : Ticket} {b : Bench π}

/-- The stage to which an attempt goes on as it takes its token. -/
def opening (c : Compiler π) (codeKey : String) (t : Ticket) (b : Bench π) : Stage :=
  if t.asksForCode c codeKey b then
    match b.site.overlay.code.get? codeKey with
    | some record => .made t record
    | none => if c.settings.policy.mayRead then .fetching t else .seeking t
  else .seeking t

theorem opening_path : (compilePlan c input codeKey).Path (.called t) b (c.opening codeKey t b)
    (Bench.newToken c.settings b).2 := by
  refine .single ?_
  unfold opening
  split
  · rename_i asks
    split
    · rename_i kept
      exact .take asks kept
    · rename_i missing
      split
      · rename_i mayRead
        exact .fetch asks mayRead missing
      · rename_i mayNotRead
        exact .seek fun _ => ⟨by simpa using mayNotRead, missing⟩
  · rename_i bare
    exact .seek fun asks => absurd asks bare

/-- Where an attempt stands after a search for stored code. -/
def Searched (t : Ticket) (r : Except CompileError (Option CodeRecord)) (a : Stage) : Prop :=
  match r with
  | .ok (some record) => a = .made t record
  | .ok none => a = .seeking t
  | .error e => a = .ended t (.error e)

/-- Where an attempt stands after a call of the store for code. -/
def Fetched (t : Ticket) (r : Except CompileError (Option StoredCode)) (a : Stage) : Prop :=
  match r with
  | .ok (some (.live record)) => a = .made t record
  | .ok (some (.text _ _ _)) => a = .fetching t
  | .ok none => a = .seeking t
  | .error e => a = .ended t (.error e)

/-- Content that comes with a compile is registered first. -/
theorem registerGiven_follows :
    (c.registerGiven input).run.Follows (compilePlan c input codeKey)
      (fun r a _ =>
        match r with
        | .ok given => a = .registered given
        | .error e => a = .finished (.error e)) .asked b := by
  unfold registerGiven
  split
  · rename_i bare
    exact ⟨_, .single (.bare bare), rfl⟩
  · rename_i content full
    refine follows_bind ?_
    cases key : input.address.key c.store.resolver .content with
    | error e => exact ⟨_, .single (.unplaced full), rfl⟩
    | ok contentKey =>
        refine follows_ofExcept ?_
        refine follows_bind (follows_step (.single (.give full key)) ?_)
        exact follows_pure rfl

theorem load_follows {source : String} :
    (c.load input.address.name codeKey source).run.Follows (compilePlan c input codeKey)
      (fun r a _ => Searched t r a) (.fetching t) b := by
  unfold Compiler.load
  cases hl : c.generator.load source c.settings.generator with
  | error e =>
      refine follows_step (z := .seeking t) ?_ ?_
      · simp only
        exact .single .unreadable
      · rfl
  | ok renderer =>
      refine follows_step (z := .made t ⟨codeKey, input.address.name, renderer⟩) ?_ ?_
      · simp only
        exact .single (.load hl)
      · rfl

section

variable (lawful : c.store.Lawful)
  (hk : input.address.key c.store.resolver .code = .ok codeKey)

include lawful hk in
theorem storedCode_follows {token : Token} (asks : t.asksForCode c codeKey b = true) :
    (c.storedCode input.address codeKey token).run.Follows (compilePlan c input codeKey)
      (fun r a _ => Fetched t r a) (c.opening codeKey t b)
      (Bench.newToken c.settings b).2 := by
  have same : (Bench.newToken c.settings b).2.site.overlay = b.site.overlay := rfl
  unfold storedCode opening
  rw [if_pos asks]
  split
  · rename_i mayRead
    refine follows_bind ?_
    cases found : b.site.overlay.code.get? codeKey with
    | some record =>
        refine follows_storing_atOnce (lawful.readCode_kept token hk ?_) (follows_pure rfl)
        rw [same, found]
    | none =>
        refine follows_storing (lawful.readCode token hk ?_) (fun _ => trivial)
          (fun b site h => .single (.fetchOn h)) ?_
        · rw [same, found]
        intro r b' good
        rcases r with e | _ | record | ⟨key, name, source⟩
        · cases e with
          | cancelled operation => exact ⟨_, .single .fetchFails, rfl⟩
          | timedOut operation after => exact ⟨_, .single .fetchFails, rfl⟩
          | _ => exact ⟨_, .single .fetchNothing, rfl⟩
        · exact ⟨_, .single .fetchNothing, rfl⟩
        · exact absurd rfl (good record)
        · exact follows_pure rfl
  · rename_i mayNotRead
    refine follows_bind (follows_gets ?_)
    refine follows_pure ?_
    rw [same]
    cases found : b.site.overlay.code.get? codeKey with
    | some record => rfl
    | none => rfl

include lawful hk in
theorem findCode_follows {token : Token} (asks : t.asksForCode c codeKey b = true) :
    (c.findCode input.address codeKey token).run.Follows (compilePlan c input codeKey)
      (fun r a _ => Searched t r a) (c.opening codeKey t b)
      (Bench.newToken c.settings b).2 := by
  refine follows_bind ((storedCode_follows lawful hk asks).mono ?_)
  intro r a b' fetched
  rcases r with e | _ | record | ⟨key, name, source⟩
  · exact fetched
  · exact follows_pure fetched
  · exact follows_pure fetched
  · cases fetched
    exact load_follows

/-- Where an attempt stands after a search for content. -/
def Sought (t : Ticket) (r : Except CompileError ContentRecord) (a : Stage) : Prop :=
  match r with
  | .ok record => a = .generating t record.content
  | .error e => a = .ended t (.error e)

include lawful in
theorem readContent_follows {contentKey : String} {token : Token} :
    (c.readContent input.address contentKey token).run.Follows (compilePlan c input codeKey)
      (fun r a _ =>
        match r with
        | .ok _ => a = .reading t
        | .error e => a = .ended t (.error e)) (.reading t) b := by
  unfold readContent
  dsimp only
  split
  · refine follows_bind ?_
    refine follows_storing (lawful.readContent _ _ _) (fun _ => trivial)
      (fun b site h => .single (.readOn h)) ?_
    intro r b' _
    rcases r with e | _ | record
    · exact ⟨_, .single .readFails, rfl⟩
    · exact ⟨_, .single .readFails, rfl⟩
    · exact follows_pure rfl
  · refine follows_bind (follows_gets ?_)
    refine follows_bind (follows_pure ?_)
    cases b.site.overlay.content.get? contentKey with
    | some record => exact follows_pure rfl
    | none => exact ⟨_, .single .readFails, rfl⟩

include lawful in
theorem findContent_follows {contentKey : String} {token : Token} (bare : t.given = none)
    (key : input.address.key c.store.resolver .content = .ok contentKey) :
    (c.findContent input.address codeKey contentKey t.since token).run.Follows
      (compilePlan c input codeKey) (fun r a _ => Sought t r a) (.seeking t) b := by
  unfold findContent
  refine follows_bind (follows_gets ?_)
  simp only
  split
  · rename_i record serves
    exact ⟨_, .single (.serve bare key serves), rfl⟩
  · rename_i unknown
    refine .after (.single (.read bare key unknown)) ?_
    refine follows_bind ((readContent_follows lawful).mono ?_)
    intro r a b' ends
    cases r with
    | error e => exact ends
    | ok found =>
        cases ends
        refine follows_bind (follows_modify (z := .generating t found.content) ?_ ?_)
        · exact .single .found
        · exact follows_pure rfl

include lawful hk in
/-- Generated code is kept, or is made as it is where the policy does not ask for more. -/
theorem storeCode_follows {renderer : Renderer} {token : Token} :
    (c.storeCode input.address codeKey renderer token).run.Follows (compilePlan c input codeKey)
      (fun r a _ =>
        match r with
        | .ok record => a = .made t record
        | .error e => a = .ended t (.error e))
      (if c.settings.policy.mayWrite then .writing t renderer
        else .made t ⟨codeKey, input.address.name, renderer⟩) b := by
  unfold storeCode
  split
  · refine follows_bind ?_
    refine follows_storing (lawful.writeCode token _ hk) (fun _ => trivial)
      (fun b site h => .single (.writeOn h)) ?_
    intro r b' good
    cases r with
    | error e => exact ⟨_, .single .writeFails, rfl⟩
    | ok record =>
        obtain ⟨rfl, kept⟩ := good record rfl
        exact ⟨_, .single (.written kept), rfl⟩
  · exact follows_pure rfl

include lawful hk in
theorem compileContent_follows {content : Content} {contentKey : String} {token : Token} :
    (c.compileContent input.address codeKey contentKey content t.since token).run.Follows
      (compilePlan c input codeKey) (fun r a _ => a = .ended t r) (.generating t content) b := by
  unfold compileContent
  refine follows_bind ?_
  cases generates : c.generator.generate content c.settings.generator with
  | error e =>
      refine follows_step
        (z := Stage.ended t (.error (.generate input.address.name contentKey e)))
        (.single .refuse) ?_
      simp only [generates]
      exact follows_throw rfl
  | ok renderer =>
      refine follows_step (z := if c.settings.policy.mayWrite then .writing t renderer
        else .made t ⟨codeKey, input.address.name, renderer⟩) (.single ?_) ?_
      · split
        · rename_i mayWrite
          exact .keep mayWrite generates
        · rename_i mayNotWrite
          exact .generate (by simpa using mayNotWrite) generates
      · simp only [generates]
        refine follows_bind ((storeCode_follows lawful hk).mono ?_)
        intro r a b' ends
        cases r with
        | error e => exact ends
        | ok record =>
            cases ends
            exact follows_bind (follows_modify (.single .publish) (follows_pure rfl))

include lawful hk in
theorem compileRecord_follows {token : Token} :
    (c.compileRecord input.address codeKey t.given t.since token).run.Follows
      (compilePlan c input codeKey) (fun r a _ => a = .ended t r) (.seeking t) b := by
  unfold compileRecord
  refine follows_bind ?_
  cases key : input.address.key c.store.resolver .content with
  | error e => exact ⟨_, .single .seekFails, rfl⟩
  | ok contentKey =>
      refine follows_ofExcept ?_
      dsimp only [Except.mapError]
      split
      · rename_i record given
        refine .after (.single (.given given)) ?_
        exact follows_bind (follows_pure (compileContent_follows lawful hk))
      · rename_i bare
        refine follows_bind ((findContent_follows lawful bare key).mono ?_)
        intro r a b' sought
        cases r with
        | error e => exact sought
        | ok record =>
            cases sought
            exact compileContent_follows lawful hk

include lawful hk in
/-- An attempt, from when it is called to when it has ended. -/
theorem compileAnew_follows :
    (c.compileAnew input.address codeKey t.given t.since).run.Follows (compilePlan c input codeKey)
      (fun r a _ => a = .ended t r) (.called t) b := by
  unfold compileAnew
  refine follows_bind (follows_step opening_path ?_)
  refine follows_bind (follows_gets ?_)
  dsimp only
  split
  · rename_i asks
    refine follows_bind ((findCode_follows (b := b) lawful hk asks).mono ?_)
    intro r a b' searched
    rcases r with e | _ | record
    · exact searched
    · cases searched
      exact compileRecord_follows lawful hk
    · cases searched
      have caching : c.settings.caching = true := by
        simp only [Bool.and_eq_true] at asks
        exact asks.1.1
      refine follows_bind (follows_modify (z := .ended t (.ok record)) ?_ (follows_pure rfl))
      have published : Move c input codeKey (.made t record) b' (.ended t (.ok record))
        (c.publish codeKey t.since record b') := .publish
      rw [Compiler.publish, caching] at published
      exact .single published
  · rename_i bare
    have start : c.opening codeKey t b = .seeking t := if_neg bare
    rw [start]
    exact follows_bind (follows_pure (compileRecord_follows lawful hk))

theorem leave_follows {result : Except CompileError CodeRecord} :
    (do
      Compiling.modify (·.onState fun s => { s with flights := s.flights.leave codeKey t.number })
      Compiling.ofExcept result : Compiling π CodeRecord).run.Follows (compilePlan c input codeKey)
      (fun r a _ => a = .finished r) (.leaving t result) b :=
  follows_bind (follows_modify (.single .leave) (follows_ofExcept rfl))

include lawful hk in
/-- A caller that has boarded waits until there is a result or it is its turn. -/
theorem share_follows {given : Option ContentRecord}
    (missed : c.settings.caching = true → b.state.cache.get? codeKey = none) :
    (share codeKey (c.compileAnew input.address codeKey given b.state.cache.epoch)).run.Follows
      (compilePlan c input codeKey) (fun r a _ => a = .finished r) (.registered given) b := by
  unfold share
  refine follows_bind (follows_step (.single (.board missed)) ?_)
  refine follows_bind (follows_lift ?_)
  refine ⟨_, .refl, fun b' early => ?_, fun b' passed => ⟨_, .refl, ?_⟩⟩
  · simp only [Wait.isOver, Option.any_none, Bool.false_or] at early
    exact early
  refine follows_bind (follows_gets ?_)
  have due : b'.state.flights.isDue (b.state.flights.join codeKey).1.1
      (b.state.flights.join codeKey).1.2 = true := by
    simp only [Wait.isOver, Option.any_none, Bool.false_or] at passed
    exact passed
  have numbers : (b.state.flights.board codeKey).1 = (b.state.flights.join codeKey).1.1 := rfl
  rw [numbers]
  generalize ticket : Ticket.mk (b.state.flights.join codeKey).1.1
    (b.state.flights.join codeKey).1.2 b.state.cache.epoch given = t
  subst ticket
  dsimp only
  split
  · rename_i record landed
    refine .after (.single (.share landed)) ?_
    exact follows_bind (follows_pure leave_follows)
  · rename_i flying
    refine .after (.single (.turn flying ?_)) ?_
    · simpa [Flights.isDue, flying] using due
    · refine follows_bind (follows_lift ((compileAnew_follows lawful hk).mono ?_))
      intro r a b' ends
      cases ends
      cases r with
      | ok record =>
          refine follows_bind (follows_modify (.single .land) ?_)
          exact follows_bind (follows_pure leave_follows)
      | error e =>
          refine follows_bind (follows_modify (.single .handOver) ?_)
          exact follows_bind (follows_pure leave_follows)

include lawful hk in
/-- A compile goes through its stages from the first to the last. -/
theorem compile_follows :
    (c.compile input).run.Follows (compilePlan c input codeKey)
      (fun r a _ => a = .finished r) .asked b := by
  unfold compile
  refine follows_bind (follows_ofExcept ?_)
  rw [hk]
  refine follows_bind ((registerGiven_follows).mono ?_)
  intro r a b' ends
  cases r with
  | error e => exact ends
  | ok given =>
      cases ends
      refine follows_bind (follows_gets ?_)
      refine follows_bind (follows_gets ?_)
      dsimp only
      split
      · rename_i record cached
        split at cached
        · rename_i caching
          exact ⟨_, .single (.hit caching cached), rfl⟩
        · exact nomatch cached
      · rename_i missed
        refine share_follows lawful hk ?_
        intro caching
        simpa [caching] using missed

end
end Compiler
end TemplateCache
