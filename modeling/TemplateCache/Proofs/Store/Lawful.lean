import TemplateCache.Proofs.Store.Quiet
import TemplateCache.Store.Memory

/-!
# Every store is lawful

What is proved of all lawful stores holds of stores in memory, delayed ones, and those over a
key-value engine, files and a network.
-/

namespace TemplateCache

variable {π α β : Type}

namespace Storing

open Job

variable {change : Site π → Site π → Prop} {good : Except StoreError β → Site π → Prop}
  {s : Site π}

theorem ensures_bind {x : Storing π α} {f : α → Storing π β}
    (h : x.run.Ensures change (fun r t =>
      match r with
      | .ok v => (f v).run.Ensures change good t
      | .error e => good (.error e) t) s) : (x >>= f).run.Ensures change good s := by
  refine Ensures.bind (f := ExceptT.bindCont f) (h.mono id ?_)
  intro r t hr
  cases r with
  | ok v => exact hr
  | error e => exact hr

theorem ensures_pure {v : β} (h : good (.ok v) s) :
    (pure v : Storing π β).run.Ensures change good s := h

theorem ensures_naming {r : Except NameError β} {v : β} (named : r = .ok v) (h : good (.ok v) s) :
    (naming r : Storing π β).run.Ensures change good s := by
  subst named
  exact h

theorem ensures_overlay {good : Except StoreError Overlay → Site π → Prop}
    (same : change s s) (h : good (.ok s.overlay) s) :
    (overlay : Storing π Overlay).run.Ensures change good s := ⟨same, h⟩

/-- What the overlay has is found at once, in all stores in the same way. -/
theorem atOnce_lookup {named : Except NameError α} {v : α} {f : α → Overlay → Storing π β}
    {r : Except StoreError β} (resolved : named = .ok v) (h : (f v s.overlay).run.AtOnce r s) :
    (do let key ← naming named
        let found ← overlay
        f key found : Storing π β).run.AtOnce r s := by
  subst resolved
  exact ⟨rfl, h⟩

/-- Dropping a name, as the first step of removing it. -/
theorem loses_eraseName (name : String) :
    (changeOverlay (·.eraseName name) : Storing π Unit).run.Keeps Site.LosesCode := by
  refine fun s => ⟨?_, trivial⟩
  intro key record found
  replace found : (s.overlay.code.filter fun _ r => r.name != name).get? key = some record := found
  rw [KeyMap.get?_filter, Option.filter_eq_some_iff] at found
  exact found.1

theorem Quiet.losesCode {job : Storing π α} (h : job.Quiet) : job.run.Keeps Site.LosesCode :=
  h.mono Site.SameCode.losesCode

/-- Still steps may come before code is written. -/
theorem Still.before_write {x : Storing π α} {f : α → Storing π CodeRecord} {record : CodeRecord}
    {key : String} {written : CodeRecord → Site π → Prop} (h : x.Still)
    (hf : ∀ v t, (f v).run.Ensures
      (fun s t => Site.SameCode s t ∨ t.overlay.code = s.overlay.code.insert key record)
      (fun r t => ∀ kept, r = .ok kept → written kept t) t) :
    (x >>= f).run.Ensures
      (fun s t => Site.SameCode s t ∨ t.overlay.code = s.overlay.code.insert key record)
      (fun r t => ∀ kept, r = .ok kept → written kept t) s := by
  refine ensures_bind ((h s).mono (fun same => .inl same.sameCode) ?_)
  rintro (e | v) t -
  · exact fun kept => nofun
  · exact hf v t

/-- Keeping a renderer, as the last step of writing code. -/
theorem ensures_keepCode {key name : String} {renderer : Renderer} :
    (keepCode ⟨key, name, renderer⟩ : Storing π CodeRecord).run.Ensures
      (fun s t => Site.SameCode s t ∨
        t.overlay.code = s.overlay.code.insert key ⟨key, name, renderer⟩)
      (fun written t => ∀ record, written = .ok record →
        record = ⟨key, name, renderer⟩ ∧ t.overlay.code.get? key = some record) s := by
  refine ⟨.inr rfl, ?_⟩
  rintro record ⟨rfl⟩
  refine ⟨rfl, ?_⟩
  show (KeyMap.insert _ _ _).get? _ = _
  rw [KeyMap.get?_insert, if_pos rfl]

end Storing

namespace Store

open Storing

variable {resolver : Resolver}

theorem memory_lawful : (memory resolver).Lawful where
  readContent address token :=
    (quiet_naming _).bind fun _ => quiet_overlay.bind fun _ => quiet_pure _
  readCode_kept := by
    intro address key record s token named kept
    refine atOnce_lookup named ?_
    rw [kept]
    rfl
  readCode := by
    intro address key s token named missing
    refine ensures_bind (ensures_naming named (ensures_bind (ensures_overlay rfl ?_)))
    refine ensures_pure ?_
    rw [missing]
    exact fun record => nofun
  writeCode := by
    intro address renderer key token s named
    exact ensures_bind (ensures_naming named ensures_keepCode)
  unregister name _ := loses_eraseName name
  clear all token := ⟨_, rfl, fun _ _ => trivial⟩
  scan token := Job.keeps_pure _
  readSource path token := quiet_pure _

theorem delayed_lawful (delay : Nat) : (delayed resolver delay).Lawful :=
  have memory : (memory resolver).Lawful := memory_lawful
  { readContent := fun address token => by
      refine Quiet.bind (.within (quiet_always ?_) _ _) fun _ => memory.readContent address token
      exact fun _ => ⟨rfl, fun _ => trivial⟩
    readCode_kept := memory.readCode_kept
    readCode := memory.readCode
    writeCode := memory.writeCode
    unregister := memory.unregister
    clear := memory.clear
    scan := memory.scan
    readSource := memory.readSource }

/-! ## Key-value engines -/

open KeyValue in
/-- A document of code is text. -/
theorem KeyValue.storedCode_text {key : String} {room : Nat} {t : Json.Tree} {code : StoredCode}
    (h : storedCode key room t = some code) : ∃ name source, code = .text key name source := by
  unfold storedCode at h
  simp only [Option.bind_eq_bind, Option.bind_eq_some_iff] at h
  obtain ⟨read, -, name, -, source, -, made⟩ := h
  cases made
  exact ⟨name, source, rfl⟩

open KeyValue in
theorem KeyValue.ensures_decoded {key : String} {s : Site Written} (bytes : List UInt8) :
    (decoded key (storedCode key) (some bytes)).run.Ensures Site.SameCode
      (fun found _ => ∀ record, found ≠ .ok (some (.live record))) s := by
  unfold decoded
  dsimp only
  split
  · rename_i code read
    unfold Json.Decoder.ofBytes? at read
    simp only [Option.bind_eq_bind, Option.bind_eq_some_iff] at read
    obtain ⟨t, -, read⟩ := read
    obtain ⟨name, source, rfl⟩ := storedCode_text read
    exact fun record => nofun
  · exact fun record => nofun

open KeyValue in
theorem keyValue_lawful (pageSize : Nat) : (keyValue resolver pageSize).Lawful where
  readContent address token := by
    refine (quiet_naming _).bind fun key => quiet_overlay.bind fun o => ?_
    split
    · exact quiet_pure _
    · exact (still_engineDelay.quiet.bind fun _ => quiet_loadContent _).within _ _
  readCode_kept := by
    intro address key record s token named kept
    refine atOnce_lookup named ?_
    simp only [kept]
    rfl
  readCode := by
    intro address key s token named missing
    refine ensures_bind (ensures_naming named (ensures_bind (ensures_overlay rfl ?_)))
    simp only [missing]
    have read := (still_engineDelay.bind fun _ => still_attempt .get .code key key fun e =>
      (e.get? Collection.code.name key, e)).quiet.within token "kv read code"
    refine ensures_bind ((read s).mono id ?_)
    intro r t _
    rcases r with e | _ | bytes
    · exact fun record => nofun
    · exact fun record => nofun
    · exact ensures_decoded bytes
  writeCode := by
    intro address renderer key token s named
    refine ensures_bind (ensures_naming named ?_)
    dsimp only
    split
    · exact ensures_keepCode
    · refine ((still_put _ _ _).within _ _).before_write fun _ t => ?_
      exact (still_remember _ _).before_write fun _ u => ensures_keepCode
  unregister name token := by
    refine .bindExcept quiet_overlay.losesCode fun before => ?_
    refine .bindExcept (loses_eraseName name) fun _ => ?_
    refine .bindExcept (quiet_naming _).losesCode fun _ => ?_
    refine .bindExcept (quiet_naming _).losesCode fun _ => ?_
    exact ((quiet_deleteAll _).within _ _).losesCode
  clear all token := by
    refine ⟨_, rfl, fun s => Quiet.losesCode (π := Written) (α := Unit) ?_⟩
    dsimp only [ExceptT.bindCont]
    split
    · refine (quiet_sweep (fun _ => quiet_delete _ _) _ _ _).bind fun content => ?_
      exact (quiet_sweep (fun _ => quiet_delete _ _) _ _ _).bind fun code => quiet_batch _
    · refine (quiet_gets _).bind fun written => .bind (quiet_modify fun _ => rfl) fun _ => ?_
      exact (quiet_deleteAll _).within _ _
  scan token := KeyValue.scan_keeps _ _
  readSource path token := quiet_pure _

/-! ## Networks -/

open Remote in
theorem remote_lawful (r : Remote) : (remote r).Lawful where
  readContent address token := by
    refine (quiet_naming _).bind fun key => quiet_overlay.bind fun o => ?_
    split
    · exact quiet_pure _
    · generalize r.urlOf key = found
      refine Quiet.bind (quiet_ofExcept _) fun url => .bind (quiet_get r url token) fun reply => ?_
      split
      · exact quiet_pure _
      · exact (quiet_keepContent _).map
  readCode_kept := by
    intro address key record s token named kept
    refine atOnce_lookup named ?_
    simp only [kept]
    rfl
  readCode := by
    intro address key s token named missing
    refine ensures_bind (ensures_naming named (ensures_bind (ensures_overlay rfl ?_)))
    simp only [missing]
    generalize r.urlOf key = found
    refine ensures_bind ((quiet_ofExcept _ s).mono id ?_)
    rintro (e | url) t -
    · exact fun record => nofun
    · refine ensures_bind ((quiet_get _ _ _ t).mono id ?_)
      rintro (e | _ | reply) u -
      · exact fun record => nofun
      · exact fun record => nofun
      · exact fun record => nofun
  writeCode := by
    intro address renderer key token s named
    refine ensures_bind (ensures_naming named ?_)
    dsimp only
    split
    · exact ensures_keepCode
    · generalize r.urlOf key = found
      refine (still_ofExcept _).before_write fun url t => ?_
      exact (still_post _ _ _ _ _).before_write fun _ u => ensures_keepCode
  unregister name _ := loses_eraseName name
  clear all token := ⟨_, rfl, fun _ _ => trivial⟩
  scan token := Job.keeps_pure _
  readSource path token := quiet_pure _

/-! ## Files -/

open Files in
theorem files_lawful (f : Sources) : (files f).Lawful where
  readContent address token := by
    refine (quiet_naming _).bind fun key => quiet_overlay.bind fun o => ?_
    split
    · exact quiet_pure _
    · refine Quiet.within ((still_readText _ _).quiet.bind fun text => ?_) _ _
      split
      · exact quiet_pure _
      · exact (quiet_keepContent _).map
  readCode_kept := by
    intro address key record s token named kept
    refine atOnce_lookup named ?_
    simp only [kept]
    rfl
  readCode := by
    intro address key s token named missing
    refine ensures_bind (ensures_naming named (ensures_bind (ensures_overlay rfl ?_)))
    simp only [missing]
    refine ensures_bind ((still_output.quiet s).mono id ?_)
    rintro (e | o) t -
    · exact fun record => nofun
    · dsimp only
      split
      · exact fun record => nofun
      · rename_i dir _
        refine Job.Ensures.within (fun _ => rfl) (fun e t record => nofun) ?_
        refine ensures_bind (((still_readText _ _).quiet t).mono id ?_)
        rintro (e | _ | text) u -
        · exact fun record => nofun
        · exact fun record => nofun
        · exact fun record => nofun
  writeCode := by
    intro address renderer key token s named
    refine ensures_bind (ensures_naming named ?_)
    dsimp only
    split
    · exact ensures_keepCode
    · refine (still_outputRoot _).before_write fun root t => ?_
      exact ((still_writeText _ _ _).within _ _).before_write fun _ u => ensures_keepCode
  unregister name token := by
    refine .bindExcept quiet_overlay.losesCode fun before => ?_
    refine .bindExcept (loses_eraseName name) fun _ => ?_
    refine .bindExcept (quiet_naming _).losesCode fun _ => ?_
    refine .bindExcept (quiet_naming _).losesCode fun _ => ?_
    refine .bindExcept still_output.quiet.losesCode fun o => ?_
    split
    · exact (quiet_pure _).losesCode
    · exact ((quiet_removeAll _ _).within _ _).losesCode
  clear all token := by
    refine ⟨_, rfl, fun s => Quiet.losesCode (π := Output) (α := Unit) ?_⟩
    dsimp only [ExceptT.bindCont]
    refine still_output.quiet.bind fun o => ?_
    refine (still_changeOutput _).quiet.bind fun _ => Quiet.within ?_ _ _
    split
    · exact (quiet_tempDirs _).bind fun others => quiet_removeAll _ _
    · exact (quiet_pure _).bind fun others => quiet_removeAll _ _
  scan token := Files.scan_keeps _ _
  readSource path token := quiet_readSource _ _ _

end Store
end TemplateCache
