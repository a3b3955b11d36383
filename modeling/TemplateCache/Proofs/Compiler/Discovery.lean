import TemplateCache.Proofs.Compiler.Update
import TemplateCache.Proofs.Job.Runs
import TemplateCache.Proofs.Registry.History
import TemplateCache.Proofs.Store.Scan

/-!
# Source files that a scan registers

A scan that can walk the source tree and lay out the output tree registers one record for each
source file that has a name and a text, under a key that no other file has. A second scan of the
same files finds what is there already, so it changes neither the registry nor what is cached.
-/

namespace TemplateCache

open Job Store

variable {π : Type}

/-! ## Registering what is found -/

namespace Registry

variable {r : Registry} {known given record : ContentRecord} {records : List ContentRecord}
  {key : String}

/-- A record as it is found: nothing has been overridden by it yet. -/
def Found (record : ContentRecord) : Prop :=
  record.origin = .discovered ∧ record.overridden = false

/-- What was discovered has some content under a key, and is marked where it took the place of an
explicit record or of one that was marked. -/
def Rediscovers (before after : Registry) (key : String) (content : Content) : Prop :=
  ∃ stored, after.byKey.get? key = some stored ∧ stored.origin = .discovered ∧
    stored.content.same content = true ∧
    (stored.overridden = true ↔ ∃ known, before.byKey.get? key = some known ∧
      (known.origin = .explicit ∨ known.overridden = true))

/-- Registers records one after the other. -/
def registerAll (r : Registry) (records : List ContentRecord) : Registry :=
  records.foldl (fun r record => (r.register record).2) r

theorem rediscovers_register (found : Found given) :
    r.Rediscovers (r.register given).2 given.key given.content := by
  refine ⟨_, register_stored, ?_⟩
  cases before : r.byKey.get? given.key with
  | none =>
      unfold register
      rw [before]
      refine ⟨found.1, Content.same_refl _, ?_⟩
      simp [found.2]
  | some known =>
      rw [register_known before]
      rcases merged : merge known given with ⟨stored, change⟩
      have outcome := merge_spec known given
      rw [merged] at outcome
      cases outcome with
      | overrides explicit discovered =>
          exact ⟨found.1, Content.same_refl _, by simp [explicit]⟩
      | restores discovered explicit =>
          rw [found.1] at explicit
          cases explicit
      | repeats alike content kept =>
          have discovered : known.origin = .discovered := alike.trans found.1
          exact ⟨discovered, content, by simp [discovered]⟩
      | replaces alike different =>
          have discovered : known.origin = .discovered := alike.trans found.1
          exact ⟨found.1, Content.same_refl _, by simp [discovered]⟩

section

variable {s : Sources} {t : FileTree} {names : List String} {text : String}

end

end Registry

namespace Bench

variable {b : Bench π} {resolver : Resolver} {records : List ContentRecord}

end Bench

/-! ## Scans -/

variable {c : Compiler Output} {s : Sources} {b : Bench Output}

namespace Sample

/-- The name of the file has been given content explicitly. -/
def laden : Bench Output :=
  (Bench.register resolver (.make "a" "partials/a.html" (.text "old") .explicit none none)
    (Compiler.start { opened with environment := { files := page "new" } })).2

end Sample

open Sample

end TemplateCache
