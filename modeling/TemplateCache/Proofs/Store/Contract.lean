import TemplateCache.Proofs.Job.Plan
import TemplateCache.Store.Basic

/-!
# What every store keeps to

The overlay answers first, and only writing code puts a renderer there: the given one, under its
key. Reading and finding content leave the renderers alone; removing and clearing may drop some,
and clearing begins by dropping them all.
-/

namespace TemplateCache

namespace Site

variable {π : Type}

def SameOverlay (s t : Site π) : Prop := t.overlay = s.overlay

def SameCode (s t : Site π) : Prop := t.overlay.code = s.overlay.code

theorem SameOverlay.sameCode {s t : Site π} (h : SameOverlay s t) : SameCode s t :=
  congrArg Overlay.code h

/-- Renderers may be gone, but none is new. -/
def LosesCode (s t : Site π) : Prop :=
  ∀ key record, t.overlay.code.get? key = some record → s.overlay.code.get? key = some record

theorem SameCode.losesCode {s t : Site π} (h : SameCode s t) : LosesCode s t := by
  intro key record found
  rwa [h] at found

theorem LosesCode.trans {s t u : Site π} (h : LosesCode s t) (h' : LosesCode t u) :
    LosesCode s u := fun key record found => h key record (h' key record found)

end Site

/-- The contract of a store. -/
structure Store.Lawful {π : Type} (store : Store π) : Prop where
  readContent : ∀ address token, (store.readContent address token).run.Keeps Site.SameCode
  readCode_kept : ∀ {address : Address} {key record} {s : Site π} (token : Token),
    address.key store.resolver .code = .ok key → s.overlay.code.get? key = some record →
    (store.readCode address token).run.AtOnce (.ok (some (.live record))) s
  /-- Where the overlay has nothing, the medium supplies text at most. -/
  readCode : ∀ {address : Address} {key} {s : Site π} (token : Token),
    address.key store.resolver .code = .ok key → s.overlay.code.get? key = none →
    (store.readCode address token).run.Ensures Site.SameCode
      (fun found _ => ∀ record, found ≠ .ok (some (.live record))) s
  writeCode : ∀ {address : Address} {renderer key} (token : Token) (s : Site π),
    address.key store.resolver .code = .ok key →
    (store.writeCode address renderer token).run.Ensures
      (fun s t => Site.SameCode s t ∨
        t.overlay.code = s.overlay.code.insert key ⟨key, address.name, renderer⟩)
      (fun written t => ∀ record, written = .ok record →
        record = ⟨key, address.name, renderer⟩ ∧ t.overlay.code.get? key = some record) s
  unregister : ∀ name token, (store.unregister name token).run.Keeps Site.LosesCode
  clear : ∀ all token,
    (store.clear all token).run.Begins (fun s => { s with overlay := ∅ }) Site.LosesCode
  scan : ∀ token, (store.scan token).Keeps Site.SameCode
  readSource : ∀ path token, (store.readSource path token).run.Keeps Site.SameCode

theorem Store.Lawful.clear_keeps {π : Type} {store : Store π} (lawful : store.Lawful)
    (all : Bool) (token : Token) : (store.clear all token).run.Keeps Site.LosesCode :=
  (lawful.clear all token).keeps fun _ _ _ => nofun

end TemplateCache
