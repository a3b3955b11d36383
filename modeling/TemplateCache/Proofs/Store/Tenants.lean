import Mathlib.Logic.Function.Basic
import TemplateCache.Proofs.Store.Engine

/-!
# Stores that share an engine

Several stores work in one engine, one operation after the other. Each of them remembers which
documents it put there, and clearing a store deletes these. Nothing tells it that another store has
put a document over one of its own. So what it deletes it has put there itself, and either nobody
has written the document since or another store has.
-/

namespace TemplateCache

open Store.KeyValue

/-! ## Tenants -/

/-- Stores over one engine. -/
structure Tenants (ι : Type) where
  overlay : ι → Overlay := fun _ => ∅
  own : ι → Written := fun _ => []
  environment : Environment := {}

namespace Tenants

variable {ι : Type} [DecidableEq ι] {f : ι → Client} {s t u : Tenants ι} {i j : ι} {op : Operation}
  {r : Except StoreError Unit} {d : Collection × String} {bytes : List UInt8}

/-- The site of one of the stores. -/
def site (s : Tenants ι) (i : ι) : Site Written := ⟨s.overlay i, s.own i, s.environment⟩

/-- What the engine has for a document. -/
def document (s : Tenants ι) (d : Collection × String) : Option (List UInt8) :=
  s.environment.engine.get? d.1.name d.2

/-- Has one store carry out an operation, alone and to its end. -/
def perform (f : ι → Client) (s : Tenants ι) (i : ι) (op : Operation) :
    Option (Except StoreError Unit × Tenants ι) :=
  ((op.job (f i)).finish (s.site i)).map fun (r, t) =>
    (r, { overlay := Function.update s.overlay i t.overlay
          own := Function.update s.own i t.own
          environment := t.environment })

/-- The stores as they are made. -/
def Fresh (s : Tenants ι) : Prop := ∀ i, s.own i = []

/-- An operation that one of the stores has carried out. -/
structure Deed (ι : Type) where
  who : ι
  op : Operation
  result : Except StoreError Unit
  before : Tenants ι
  after : Tenants ι

variable {deeds : List (Deed ι)} {x : Deed ι}

/-- The operation was to put the document, and has succeeded. -/
def Deed.Puts (f : ι → Client) (x : Deed ι) (d : Collection × String) (bytes : List UInt8) : Prop :=
  x.op.document? (f x.who) = some (d, bytes) ∧ x.result = .ok ()

/-- The document was there before the operation, and not after it. -/
def Deed.Takes (x : Deed ι) (d : Collection × String) : Prop :=
  x.before.document d ≠ none ∧ x.after.document d = none

/-- Operations of the stores one after the other. In between, everything may change but the
documents and what the stores keep. -/
inductive Runs (f : ι → Client) (s : Tenants ι) : List (Deed ι) → Tenants ι → Prop where
  | start : Runs f s [] s
  | next {deeds : List (Deed ι)} {t u : Tenants ι} {i : ι} {op : Operation}
      {r : Except StoreError Unit} (ran : Runs f s deeds t)
      (now : t.perform f i op = some (r, u)) : Runs f s (deeds ++ [⟨i, op, r, t, u⟩]) u
  | idle {deeds : List (Deed ι)} {t : Tenants ι} {environment : Environment}
      (ran : Runs f s deeds t)
      (untouched : environment.engine.collections = t.environment.engine.collections) :
      Runs f s deeds { t with environment := environment }

/-- A store has put a document, and since then it has neither been cleared nor taken the document
away. If the document is there, it is as the store put it, or another store has put it since. -/
def Owns (f : ι → Client) (deeds : List (Deed ι)) (t : Tenants ι) (i : ι)
    (d : Collection × String) : Prop :=
  ∃ earlier w later bytes, deeds = earlier ++ w :: later ∧ w.who = i ∧ w.Puts f d bytes ∧
    (∀ x ∈ later, x.who = i → x.op.forgets = false ∧ ¬x.Takes d) ∧
    (t.document d ≠ none → t.document d = some bytes ∨
      ∃ x ∈ later, x.who ≠ i ∧ ∃ other, x.Puts f d other)

theorem perform_ends (f : ι → Client) (s : Tenants ι) (i : ι) (op : Operation) :
    ∃ r t, s.perform f i op = some (r, t) := by
  obtain ⟨r, x, ends⟩ := (op.timed_job (f i)).ends (s.site i)
  unfold perform
  rw [ends]
  exact ⟨_, _, rfl⟩

/-- What an operation does to the documents, and to what its store remembers of them. -/
theorem perform_settles (now : s.perform f i op = some (r, t)) :
    ∃ x, op.Settles (f i) (s.site i) r x ∧ t.own = Function.update s.own i x.own ∧
      ∀ d : Collection × String, t.document d = Store.KeyValue.document d.1 d.2 x := by
  obtain ⟨⟨r', x⟩, ends, same⟩ := Option.map_eq_some_iff.1 now
  cases same
  have runs := Job.runs_alone (fun _ => rfl) (fun _ _ => rfl) ends
  exact ⟨x, Operation.runs_job runs, rfl, fun _ => rfl⟩

omit [DecidableEq ι] in
/-- A store still owns a document after an operation that lets it stay. -/
theorem Owns.next (owned : Owns f deeds t i d)
    (kept : j = i → op.forgets = false ∧ ¬(t.document d ≠ none ∧ u.document d = none))
    (left : u.document d = t.document d ∨ u.document d = none ∨
      j ≠ i ∧ ∃ other, op.document? (f j) = some (d, other) ∧ r = .ok ()) :
    Owns f (deeds ++ [⟨j, op, r, t, u⟩]) u i d := by
  obtain ⟨earlier, w, later, bytes, rfl, own, puts, since, now⟩ := owned
  refine ⟨earlier, w, later ++ [⟨j, op, r, t, u⟩], bytes, by simp, own, puts, ?_, ?_⟩
  · intro x there mine
    rcases List.mem_append.1 there with before | last
    · exact since x before mine
    · cases List.mem_singleton.1 last
      exact kept mine
  · intro there
    rcases left with same | gone | others
    · rw [same] at there ⊢
      rcases now there with own | ⟨x, before, others⟩
      · exact .inl own
      · exact .inr ⟨x, List.mem_append_left _ before, others⟩
    · exact absurd gone there
    · exact .inr ⟨_, List.mem_append_right _ (List.mem_singleton_self _), others⟩

theorem forgets_of_document {c : Client} {e : (Collection × String) × List UInt8}
    (puts : op.document? c = some e) : op.forgets = false := by
  cases op with
  | scan token => rfl
  | call given token =>
      cases given with
      | clear all => cases puts
      | _ => rfl

theorem owns_next (distinct : (t.own i).Nodup) (owned : ∀ d ∈ t.own i, Owns f deeds t i d)
    (now : t.perform f j op = some (r, u)) :
    (u.own i).Nodup ∧ ∀ d ∈ u.own i, Owns f (deeds ++ [⟨j, op, r, t, u⟩]) u i d := by
  obtain ⟨x, settled, own, documents⟩ := perform_settles now
  by_cases other : i = j
  · -- A document that the store still remembers was not among those that it has taken away.
    subst other
    rw [own, Function.update_self]
    rcases settled with ⟨rfl, e, bytes, written, put⟩ | ⟨sheds, forgotten⟩
    · refine ⟨put.nodup distinct, fun d there => ?_⟩
      by_cases new : d = e
      · subst new
        refine ⟨deeds, _, [], bytes, rfl, rfl, ⟨written, rfl⟩, ?_, fun _ => .inl ?_⟩
        · exact fun x there => absurd there List.not_mem_nil
        · exact (documents d).trans put.there
      · have same : u.document d = t.document d := (documents d).trans (put.other d new)
        refine (owned d ((put.own d there).resolve_left new)).next (fun _ => ?_) (.inl same)
        refine ⟨forgets_of_document written, fun ⟨before, after⟩ => before ?_⟩
        exact same.symm.trans after
    · refine ⟨sheds.nodup distinct, fun d there => ?_⟩
      have same : u.document d = t.document d := by
        refine (documents d).trans ((sheds.left d).resolve_right ?_)
        exact fun gone => gone.2.2 distinct there
      refine (owned d (sheds.own d there)).next (fun _ => ⟨?_, ?_⟩) (.inl same)
      · refine Bool.eq_false_iff.2 fun forgets => ?_
        rw [forgotten forgets] at there
        cases there
      · exact fun ⟨before, after⟩ => before (same.symm.trans after)
  · -- Another store may put over the document or take it away, and this one goes on remembering it.
    rw [own, Function.update_of_ne other]
    refine ⟨distinct, fun d there => (owned d there).next (fun same => absurd same.symm other) ?_⟩
    rcases settled with ⟨rfl, e, bytes, written, put⟩ | ⟨sheds, -⟩
    · by_cases overwritten : d = e
      · subst overwritten
        exact .inr (.inr ⟨Ne.symm other, bytes, written, rfl⟩)
      · exact .inl ((documents d).trans (put.other d overwritten))
    · rcases sheds.left d with same | ⟨-, gone, -⟩
      · exact .inl ((documents d).trans same)
      · exact .inr (.inl ((documents d).trans gone))

/-- Each store owns the documents that it remembers, and remembers none of them twice. -/
theorem Runs.owns (fresh : s.Fresh) (ran : s.Runs f deeds t) (i : ι) :
    (t.own i).Nodup ∧ ∀ d ∈ t.own i, Owns f deeds t i d := by
  induction ran with
  | start =>
      rw [fresh i]
      exact ⟨List.nodup_nil, fun d there => absurd there List.not_mem_nil⟩
  | next ran now ih => exact owns_next ih.1 ih.2 now
  | @idle deeds t environment ran untouched ih =>
      refine ⟨ih.1, fun d there => ?_⟩
      have same : document { t with environment := environment } d = t.document d := by
        unfold document Engine.get? Engine.documents
        rw [untouched]
      obtain ⟨earlier, w, later, bytes, split, own, puts, since, now⟩ := ih.2 d there
      rw [← same] at now
      exact ⟨earlier, w, later, bytes, split, own, puts, since, now⟩

end Tenants

/-- Clearing a store comes to an end and deletes only documents that the store has put itself, and
has neither been cleared nor taken away itself since. What it deletes is as the store put it, or
another store has put it since. All other documents are as before. -/
theorem Tenants.clearing_deletes_what_the_store_put {ι : Type} [DecidableEq ι] {f : ι → Client}
    {s t : Tenants ι} {deeds : List (Deed ι)} (fresh : s.Fresh) (ran : s.Runs f deeds t) (i : ι)
    (token : Token) :
    ∃ r u, t.perform f i (.call (.clear false) token) = some (r, u) ∧
      ∀ d, u.document d ≠ t.document d → u.document d = none ∧
        ∃ earlier w later bytes, deeds = earlier ++ w :: later ∧ w.who = i ∧ w.Puts f d bytes ∧
          (∀ x ∈ later, x.who = i → x.op.forgets = false ∧ ¬x.Takes d) ∧
          (t.document d = some bytes ∨ ∃ x ∈ later, x.who ≠ i ∧ ∃ other, x.Puts f d other) := by
  obtain ⟨r, u, now⟩ := perform_ends f t i (.call (.clear false) token)
  refine ⟨r, u, now, fun d changed => ?_⟩
  obtain ⟨x, settled, -, documents⟩ := perform_settles now
  rw [documents d] at changed ⊢
  rcases settled with ⟨-, e, bytes, written, -⟩ | ⟨sheds, -⟩
  · cases written
  · rcases sheds.left d with same | ⟨given, gone, -⟩
    · exact absurd same changed
    · refine ⟨gone, ?_⟩
      have remembered : d ∈ t.own i := given.resolve_left nofun
      obtain ⟨earlier, w, later, bytes, split, own, puts, since, value⟩ :=
        (ran.owns fresh i).2 d remembered
      refine ⟨earlier, w, later, bytes, split, own, puts, since, value ?_⟩
      rw [gone] at changed
      exact changed.symm

namespace Sample

/-- Two stores over one engine. -/
def lodgers (_ : Bool) : Client := ⟨⟨.standard, none⟩, 100⟩

def house : Tenants Bool := {}

def leaveNote (text : String) : Operation :=
  .call (.writeContent { name := "a" } (.text text)) ⟨[0], none⟩

def moveOut : Operation := .call (.clear false) ⟨[1], none⟩

/-- The document of the name `a`. -/
def letter : Collection × String := (.content, "partials/a.html")

end Sample

open Sample

/-- One store writes, the other one writes the same name, and the first one clears. -/
theorem Tenants.overwritten : ∃ s t u r,
    house.perform lodgers false (leaveNote "x") = some (.ok (), s) ∧
      s.perform lodgers true (leaveNote "y") = some (.ok (), t) ∧
      t.perform lodgers false moveOut = some (r, u) ∧
      t.document letter ≠ none ∧ u.document letter = none := by
  have ends : ((house.perform lodgers false (leaveNote "x")).bind fun x =>
      (x.2.perform lodgers true (leaveNote "y")).bind fun y =>
        (y.2.perform lodgers false moveOut).map fun z =>
          (x.1.toOption.isSome && y.1.toOption.isSome) &&
            ((y.2.document letter).isSome && (z.2.document letter).isNone)) = some true := by
    decide
  obtain ⟨⟨r, s⟩, first, ends⟩ := Option.bind_eq_some_iff.1 ends
  obtain ⟨⟨r', t⟩, second, ends⟩ := Option.bind_eq_some_iff.1 ends
  obtain ⟨⟨r'', u⟩, third, fine⟩ := Option.map_eq_some_iff.1 ends
  simp only [Bool.and_eq_true, Option.isNone_iff_eq_none, Option.isSome_iff_ne_none] at fine
  obtain ⟨⟨written, written'⟩, before, after⟩ := fine
  cases r with
  | error e => exact absurd rfl written
  | ok _ =>
      cases r' with
      | error e => exact absurd rfl written'
      | ok _ => exact ⟨s, t, u, r'', first, second, third, before, after⟩

/-- The document that is deleted was written by the store first, and then by the other one. -/
theorem Tenants.overwritten_document_was_put : ∃ deeds t r u,
    house.Fresh ∧ house.Runs lodgers deeds t ∧ t.perform lodgers false moveOut = some (r, u) ∧
      u.document letter ≠ t.document letter ∧
      ∃ earlier w later bytes, deeds = earlier ++ w :: later ∧ w.who = false ∧
        w.Puts lodgers letter bytes ∧
        (∀ x ∈ later, x.who = false → x.op.forgets = false ∧ ¬x.Takes letter) ∧
        (t.document letter = some bytes ∨
          ∃ x ∈ later, x.who ≠ false ∧ ∃ other, x.Puts lodgers letter other) := by
  obtain ⟨s, t, u, r, first, second, third, before, after⟩ := Tenants.overwritten
  have ran : house.Runs lodgers _ t := .next (.next .start first) second
  have fresh : house.Fresh := fun _ => rfl
  have changed : u.document letter ≠ t.document letter := by
    rw [after]
    exact before.symm
  obtain ⟨r', u', now, only⟩ :=
    Tenants.clearing_deletes_what_the_store_put fresh ran false ⟨[1], none⟩
  cases third.symm.trans now
  exact ⟨_, t, r, u, fresh, ran, third, changed, (only letter changed).2⟩

/-- Clearing a store may delete a document that another store has written last. -/
theorem Tenants.overwritten_document_is_deleted :
    ¬∀ (ι : Type) (_ : DecidableEq ι) (f : ι → Client) (s t u : Tenants ι) (deeds : List (Deed ι))
      (i j : ι) (token : Token) (r : Except StoreError Unit) (d : Collection × String)
      (bytes : List UInt8),
      s.Fresh → s.Runs f deeds t →
        (∃ (earlier later : List (Deed ι)) (w : Deed ι), deeds = earlier ++ w :: later ∧
          w.who = j ∧ w.Puts f d bytes ∧ ∀ x ∈ later, ¬x.Takes d ∧ ∀ other, ¬x.Puts f d other) →
        j ≠ i → t.perform f i (.call (.clear false) token) = some (r, u) →
          u.document d = t.document d := by
  intro claim
  obtain ⟨s, t, u, r, first, second, third, before, after⟩ := Tenants.overwritten
  have ran : house.Runs lodgers [⟨false, leaveNote "x", .ok (), house, s⟩,
      ⟨true, leaveNote "y", .ok (), s, t⟩] t := .next (.next .start first) second
  have written : (leaveNote "y").document? (lodgers true) = some (letter, _) := rfl
  have same := claim Bool inferInstance lodgers house t u _ false true ⟨[1], none⟩ r letter _
    (fun _ => rfl) ran
    ⟨[⟨false, leaveNote "x", .ok (), house, s⟩], [], ⟨true, leaveNote "y", .ok (), s, t⟩, rfl, rfl,
      ⟨written, rfl⟩, fun x there => absurd there List.not_mem_nil⟩ (by decide) third
  exact before (same.symm.trans after)

end TemplateCache
