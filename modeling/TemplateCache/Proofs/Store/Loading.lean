import TemplateCache.Proofs.Job.Amid
import TemplateCache.Proofs.Store.Scan

/-!
# Loading one source file among others

A load reads its file between other work. While the file and the token of the load stay as they are,
it finds the text of the file, unless it fails. It cannot fail without a timeout where the directory
of the file is known in the output tree. Nothing else is asked of what happens meanwhile.
-/

namespace TemplateCache.Store

open Job

/-- What a text of a source file is registered as. -/
def sourceRecord (path : Path) (name key text : String) : ContentRecord :=
  .make name key (.ofSource text path.extension?) .discovered path.extension? none

namespace Files

/-! ## What a load relies on -/

/-- A step that takes no time and forgets no directory of the output tree. -/
structure Advances (s u : Site Output) : Prop where
  clock : u.environment.clock = s.environment.clock
  dir : ∀ out, s.own.dir = some out → u.own.dir = some out
  made : ∀ p ∈ s.own.made, p ∈ u.own.made

theorem Advances.refl (s : Site Output) : Advances s s := ⟨rfl, fun _ => id, fun _ => id⟩

theorem Advances.of_own {s u : Site Output} (clock : u.environment.clock = s.environment.clock)
    (own : u.own = s.own) : Advances s u := by
  refine ⟨clock, fun out known => ?_, fun p there => ?_⟩
  · rw [own]
    exact known
  · rw [own]
    exact there

theorem Advances.trans {s u v : Site Output} (h : Advances s u) (h' : Advances u v) :
    Advances s v :=
  ⟨h'.clock.trans h.clock, fun out known => h'.dir out (h.dir out known),
    fun p there => h'.made p (h.made p there)⟩

/-- The directory of a source file is known in the output tree, if it needs one there. -/
def Ready (s : Sources) (path : Path) (u : Site Output) : Prop :=
  ∀ above, (s.relative? path).bind Path.parent? = some above → above.text ≠ "" →
    ∃ out, u.own.dir = some out ∧ Knows u (out.join above)

theorem Ready.advances {s : Sources} {path : Path} {u v : Site Output} (ready : Ready s path u)
    (advances : Advances u v) : Ready s path v := by
  intro above nearest full
  obtain ⟨out, dir, known⟩ := ready above nearest full
  obtain ⟨p, there, same⟩ := List.any_eq_true.1 known
  exact ⟨out, advances.dir out dir, List.any_eq_true.2 ⟨p, advances.made p there, same⟩⟩

/-- What others leave as it is: the file, the token and, if a load is to be `sure`, the directories
that it needs. -/
structure Rely (s : Sources) (t : FileTree) (path : Path) (token : Token) (sure : Prop)
    (u : Site Output) : Prop where
  file : u.environment.files.status path = t.status path
  live : isCancelled token u = false
  ready : sure → Ready s path u

/-- What a load comes to: a text, which is that of the file if the file is `known`, or nothing. It
misses a text that is there only if it was not `sure` to succeed. -/
inductive Loaded {α : Type} (known sure : Prop) (make : String → α)
    (there : Except FileErrorKind String) : Except StoreError (Option α) → Prop where
  | read (text : String) (same : known → there = .ok text) :
    Loaded known sure make there (.ok (some (make text)))
  | missed {r : Except StoreError (Option α)} (nothing : ∀ v, r ≠ .ok (some v))
    (lost : known → sure → ∀ text, there ≠ .ok text) : Loaded known sure make there r

section

variable {α : Type} {known sure : Prop} {make : String → α} {there : Except FileErrorKind String}

theorem Loaded.none (lost : known → sure → ∀ text, there ≠ .ok text) :
    Loaded known sure make there (.ok none) := by
  apply Loaded.missed
  · intro v same
    cases same
  · exact lost

theorem Loaded.failed {e : StoreError} (lost : known → sure → ∀ text, there ≠ .ok text) :
    Loaded known sure make there (.error e) := by
  apply Loaded.missed
  · intro v same
    cases same
  · exact lost

end

/-! ## The steps of a load -/

section

variable {α : Type} {inv : Site Output → Prop} {site : Site Output}

theorem amid_output {ok : Except StoreError Output → Site Output → Prop}
    (h : ok (.ok site.own) site) : output.run.Amid Advances inv ok site := ⟨.refl site, h⟩

theorem amid_access {f : FileTree → α × FileTree} {ok : Except StoreError α → Site Output → Prop}
    (h : ok (.ok (f site.environment.files).1) { site with
      environment := { site.environment with files := (f site.environment.files).2 } }) :
    (access f).run.Amid Advances inv ok site := amid_lift ⟨.of_own rfl rfl, h⟩

theorem amid_naming {r : Except NameError α} {ok : Except StoreError α → Site Output → Prop}
    (h : ok (r.mapError .naming) site) :
    (Storing.naming r : Filing α).run.Amid Advances inv ok site := h

theorem amid_transfer {f : FileTree → α × FileTree} {ok : Except StoreError α → Site Output → Prop}
    (h : ∀ u, inv u → ok (.ok (f site.environment.files).1) u) :
    (transfer f).run.Amid Advances inv ok site := by
  apply Amid.bindExcept
  apply amid_access
  apply Amid.bindExcept
  apply amid_lift
  exact h

theorem amid_outputRoot (settings : FileStoreSettings) :
    (outputRoot settings).run.Amid Advances inv
      (fun r u => ∀ out, site.own.dir = some out → r = .ok out ∧ u = site) site := by
  apply Amid.bindExcept
  apply amid_output
  dsimp only
  split
  · rename_i dir there
    intro out known
    cases there.symm.trans known
    exact ⟨rfl, rfl⟩
  · rename_i missing
    apply Amid.bindExcept
    apply amid_access
    cases site.environment.files.makeTempDir settings.tempParent settings.tempPrefix with
    | error kind =>
        intro out known
        cases missing.symm.trans known
    | ok found =>
        apply Amid.bindExcept
        refine ⟨⟨rfl, fun out known => ?_, fun p there => List.mem_append_left _ there⟩, ?_⟩
        · cases missing.symm.trans known
        · intro out known
          cases missing.symm.trans known

theorem amid_provideDir (dir : Path) :
    (provideDir dir).run.Amid Advances inv (fun r _ => Knows site dir → r = .ok ()) site := by
  apply Amid.bindExcept
  apply amid_output
  dsimp only
  split
  · intro _
    rfl
  · rename_i unknown
    apply Amid.bindExcept
    apply amid_transfer
    intro u _
    dsimp only
    split
    · intro known
      exact absurd known unknown
    · refine ⟨⟨rfl, fun _ => id, fun p there => List.mem_append_left _ there⟩, ?_⟩
      intro known
      exact absurd known unknown

end

variable {s : Sources} {t : FileTree} {path : Path} {token : Token} {name key : String}
  {known sure : Prop} {site : Site Output}

/-- What is read at a path by looking first whether it is a file. -/
theorem amid_load (target : String) (holds : known → Rely s t path token sure site) :
    (do
      match ← transfer fun t => (t.status path, t) with
      | .ok (.file _) => readText path target
      | .ok _ => return none
      | .error .notFound => return none
      | .error kind => throw (fileError target kind) : Filing (Option String)).run.Amid Advances
      (fun u => known → Rely s t path token sure u)
      (fun r u => (known → Rely s t path token sure u) ∧
        Loaded known sure id (t.readText path) r) site := by
  have unread (there : ∀ bytes, site.environment.files.status path ≠ .ok (.file bytes)) :
      known → sure → ∀ text, t.readText path ≠ .ok text := by
    intro is _ text read
    rw [(holds is).file] at there
    unfold FileTree.readText FileTree.read at read
    rcases found : t.status path with kind | (bytes | _ | target)
    · rw [found] at read
      cases read
    · exact there bytes found
    · rw [found] at read
      cases read
    · rw [found] at read
      cases read
  apply Amid.bindExcept
  apply amid_transfer
  intro u stays
  dsimp only
  split
  · apply Amid.bindExcept
    apply amid_transfer
    intro v stays'
    have same (is : known) : u.environment.files.readText path = t.readText path := by
      unfold FileTree.readText FileTree.read
      rw [(stays is).file]
    dsimp only
    cases read : u.environment.files.readText path with
    | ok text =>
        refine ⟨stays', .read text fun is => ?_⟩
        rw [← same is, read]
    | error kind =>
        have lost (is : known) (_ : sure) (text : String) : t.readText path ≠ .ok text := by
          rw [← same is, read]
          exact nofun
        cases kind <;> exact ⟨stays', .missed (by intro v same; cases same) lost⟩
  · rename_i other found
    refine ⟨stays, .none (unread fun bytes there => ?_)⟩
    exact other bytes (Except.ok.inj (found.symm.trans there))
  · rename_i found
    refine ⟨stays, .none (unread fun bytes there => ?_)⟩
    exact nomatch found.symm.trans there
  · rename_i found
    refine ⟨stays, .failed (unread fun bytes there => ?_)⟩
    exact nomatch found.symm.trans there

/-- A load that gets its turns among others finds the text of the file, or it fails. -/
theorem amid_readSource (named : s.nameOf path = some name) (keyed : s.keyOf name path = .ok key)
    (unlimited : sure → token.timeout = none) (holds : known → Rely s t path token sure site) :
    (readSource s path token).run.Amid Advances (fun u => known → Rely s t path token sure u)
      (fun r _ => Loaded known sure (sourceRecord path name key) (t.readText path) r) site := by
  have spared (u : Site Output) (stays : known → Rely s t path token sure u)
      (cancelled : isCancelled token u = true) :
      known → sure → ∀ text, t.readText path ≠ .ok text := by
    intro is _
    rw [(stays is).live] at cancelled
    cases cancelled
  unfold readSource
  rw [named]
  apply Amid.bindExcept
  apply Amid.within .refl ((amid_load path.text holds).mono _)
  · intro cancelled
    exact .failed (spared site holds cancelled)
  · intro u stays cancelled
    exact .failed (spared u stays cancelled)
  · intro limited u
    apply Loaded.failed
    intro _ certain
    exact absurd (unlimited certain) limited
  rintro r u ⟨stays, loaded⟩
  cases loaded with
  | missed nothing lost =>
      rcases r with e | (_ | source)
      · exact .failed lost
      · exact .none lost
      · exact absurd rfl (nothing source)
  | read text same =>
      dsimp only [id]
      -- The record is made of the text, whatever becomes of the file from here on.
      have makes (v : Site Output) : (do
          let key ← Storing.naming (s.keyOf name path)
          let extension := path.extension?
          some <$> Storing.keepContent
            (.make name key (.ofSource text extension) .discovered extension none) :
            Filing (Option ContentRecord)).run.Amid Advances
          (fun u => known → Rely s t path token sure u)
          (fun r _ => Loaded known sure (sourceRecord path name key) (t.readText path) r) v := by
        rw [keyed]
        exact ⟨.of_own rfl rfl, .read text same⟩
      split
      · exact makes u
      · rename_i above nearest
        split
        · exact makes u
        · rename_i full
          have ready (is : known) (certain : sure) :
              ∃ out, u.own.dir = some out ∧ Knows u (out.join above) :=
            (stays is).ready certain above nearest (by simpa using full)
          apply Amid.bindExcept
          apply (amid_outputRoot s.settings).mono
          rintro (e | root) v provided
          · apply Loaded.failed
            intro is certain
            obtain ⟨out, dir, -⟩ := ready is certain
            cases (provided out dir).1
          · apply Amid.bindExcept
            apply (amid_provideDir (root.join above)).mono
            rintro (e | _) w made
            · apply Loaded.failed
              intro is certain
              obtain ⟨out, dir, there⟩ := ready is certain
              obtain ⟨⟨⟩, rfl⟩ := provided out dir
              cases made there
            · exact makes w

/-- A removal takes its turns among others too. What it comes to does not matter to a watch. -/
theorem amid_unregister (name : String) (token : Token) {inv : Site Output → Prop} :
    ((Store.files s).unregister name token).run.Amid Advances inv (fun _ _ => True) site := by
  have removes (paths : List Path) (u : Site Output) :
      (removeAll (fun t p => t.attempt (t.removeFile p)) paths).run.Amid Advances inv
        (fun _ _ => True) u := by
    refine Amid.bindExcept (amid_access ?_)
    dsimp only
    split
    · trivial
    · refine Amid.bindExcept (amid_lift ?_)
      intro v _
      trivial
  refine Amid.bindExcept ⟨.refl site, ?_⟩
  refine Amid.bindExcept ⟨.of_own rfl rfl, ?_⟩
  refine Amid.bindExcept (amid_naming ?_)
  split
  · refine Amid.bindExcept (amid_naming ?_)
    split
    · refine Amid.bindExcept (amid_output ?_)
      dsimp only
      split
      · trivial
      · apply Amid.within .refl (removes _ _)
        · intro _
          trivial
        · intro _ _ _
          trivial
        · intro _ _
          trivial
    · trivial
  · trivial

end Files
end TemplateCache.Store
