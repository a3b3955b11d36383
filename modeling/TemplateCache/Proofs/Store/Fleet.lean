import TemplateCache.Proofs.Store.Building
import TemplateCache.Proofs.Store.Repetition

/-!
# Stores that share directories

Several stores over files work in one tree, one operation after the other. Each store remembers for
itself which directories are there, and makes none of them again. So what a store remembers is there
until another store clears it away, or until a link on the way is unregistered; a store that clears
its own tree forgets what it knew. A write that finds a directory missing is explained by that, by
the store having nowhere to make its temporary directory, or by what is in the place of its file.
-/

namespace TemplateCache

open Job

namespace Store.Files

variable {s t u : Site Output} {f : Sources} {name : String} {token : Token}

/-! ## Operations that remove -/

/-- Files have been removed, and ways only with links. -/
structure Strips (s t : Site Output) : Prop where
  own : t.own = s.own
  thins : s.environment.files.Thins t.environment.files
  ways : s.environment.files.WaysIn t.environment.files ∨
    s.environment.files.Unlinks t.environment.files

/-- An unregistration removes files, and forgets nothing about directories. -/
theorem strips_unregister (s : Site Output) :
    ((files f).unregister name token).run.Safely (Strips s) (fun _ t => Strips s t) s := by
  have strips {t : Site Output} (h : t.own = s.own ∧
      s.environment.files.Thins t.environment.files ∧
      (s.environment.files.WaysIn t.environment.files ∨
        s.environment.files.Unlinks t.environment.files)) : Strips s t := ⟨h.1, h.2.1, h.2.2⟩
  refine (safely_unregister s (fun files => s.environment.files.Thins files ∧
    (s.environment.files.WaysIn files ∨ s.environment.files.Unlinks files))
      ⟨.refl _, .inl (.refl _)⟩ ?_).mono strips strips
  rintro dir key files left - - removed ⟨thins, ways⟩
  have thins' := (FileTree.removeFile_lacks removed).1
  refine ⟨thins.trans thins', ?_⟩
  rcases ways with ways | unlinks
  · rcases FileTree.removeFile_ways removed with ways' | unlinks
    · exact .inl (ways.trans ways')
    · exact .inr (unlinks.mono thins (.refl _))
  · exact .inr (unlinks.mono (.refl _) thins')

/-- Whoever clears its tree forgets what it knew of it. -/
theorem safely_clear {all : Bool} (s : Site Output) :
    ((files f).clear all token).run.Safely (fun _ => True)
      (fun _ t => t.own = { dir := f.settings.outputDir }) s := by
  refine Safely.bindExcept ⟨trivial, ?_⟩
  refine Safely.bindExcept (safely_look trivial ?_)
  refine Safely.bindExcept (safely_changeOutput trivial ?_)
  dsimp only
  generalize cleared : ({ s with
    overlay := ∅, own := { dir := f.settings.outputDir } } : Site Output) = c
  have own : c.own = { dir := f.settings.outputDir } := by rw [← cleared]
  refine Safely.mono (fun _ => trivial) id (Safely.within own (fun _ _ same _ => same) ?_)
  have removes {t : Site Output} (paths : List Path)
      (same : t.own = { dir := f.settings.outputDir }) :
      (removeAll FileTree.removeDir paths).run.Safely
        (fun t => t.own = { dir := f.settings.outputDir })
        (fun _ t => t.own = { dir := f.settings.outputDir }) t :=
    (safely_removeAll (fun _ => True) paths (fun _ _ _ => id) trivial).mono
      (fun h => h.1.trans same) fun h => h.1.trans same
  split
  · refine Safely.bindExcept (Safely.bindExcept (safely_transfer own ?_))
    dsimp only
    split
    · exact own
    · exact removes _ own
  · exact Safely.bindExcept (removes _ own)

/-! ## All operations -/

/-- What a store over files can be asked to do. -/
inductive Operation where
  | readContent (address : Address) (token : Token)
  | writeContent (address : Address) (content : Content) (token : Token)
  | readCode (address : Address) (token : Token)
  | writeCode (address : Address) (renderer : Renderer) (token : Token)
  | unregister (name : String) (token : Token)
  | clear (all : Bool) (token : Token)
  | scan (token : Token)
  | readSource (path : Path) (token : Token)
  | layOut (token : Token)
  | outputRoot

namespace Operation

variable {op : Operation} {r : Except StoreError Unit} {address : Address} {space : KeySpace}

/-- Does what is asked; all that counts is how it ends. -/
def job (f : Sources) : Operation → Job (Site Output) (Except StoreError Unit)
  | readContent address token =>
    ((fun _ => ()) <$> (files f).readContent address token : Filing Unit).run
  | writeContent address content token =>
    ((fun _ => ()) <$> (files f).writeContent address content token : Filing Unit).run
  | readCode address token =>
    ((fun _ => ()) <$> (files f).readCode address token : Filing Unit).run
  | writeCode address renderer token =>
    ((fun _ => ()) <$> (files f).writeCode address renderer token : Filing Unit).run
  | unregister name token => ((files f).unregister name token).run
  | clear all token => ((files f).clear all token).run
  | scan token => (fun found => found.outcome.map fun _ => ()) <$> Files.scan f token
  | readSource path token => ((fun _ => ()) <$> Files.readSource f path token : Filing Unit).run
  | layOut token => ((fun _ => ()) <$> Files.layOut f token : Filing Unit).run
  | outputRoot => ((fun _ => ()) <$> Files.outputRoot f.settings : Filing Unit).run

/-- The operations that write the artifact of an address in one of the key spaces. -/
inductive Writes : Operation → Address → KeySpace → Prop where
  | content {address : Address} {content : Content} {token : Token} :
      Writes (writeContent address content token) address .content
  | code {address : Address} {renderer : Renderer} {token : Token} :
      Writes (writeCode address renderer token) address .code

def clears : Operation → Bool
  | clear _ _ => true
  | _ => false

def unregisters : Operation → Bool
  | unregister _ _ => true
  | _ => false

/-- What becomes of the directories that were there, and of what is known of them. -/
structure Leaves (op : Operation) (s t : Site Output) : Prop where
  ways : s.environment.files.WaysIn t.environment.files ∨
    op.unregisters = true ∧ s.environment.files.Unlinks t.environment.files
  made : ∀ dir ∈ t.own.made, dir ∈ s.own.made ∨ t.environment.files.HasDir dir

theorem leaves_of_grows (h : Grows s t) : op.Leaves s t := ⟨.inl h.files.waysIn, h.made⟩

theorem leaves_of_writes (h : Files.Writes f address space s t) : op.Leaves s t := by
  rcases h with grown | ⟨key, dir, -, -, grown | ⟨u, bytes, grown, written, own⟩⟩
  · exact leaves_of_grows grown
  · exact leaves_of_grows grown
  · obtain ⟨place, -, under, ended, put⟩ := FileTree.write_ok written
    have ways : u.environment.files.WaysIn t.environment.files := by
      rw [put]
      exact (FileTree.waysIn_put under ended).1
    refine ⟨.inl (grown.files.waysIn.trans ways), fun dir there => ?_⟩
    rw [own] at there
    exact (grown.made dir there).imp_right fun has => has.of_ways ways

/-- An operation clears its own tree, or it leaves directories alone. It comes to an end. -/
theorem safely_job (op : Operation) (f : Sources) (s : Site Output) :
    (op.job f).Safely (fun _ => True) (fun _ t =>
      if op.clears = true then t.own = { dir := f.settings.outputDir } else op.Leaves s t) s := by
  have building {x : Filing Unit} (h : Building x) :
      x.run.Safely (fun _ => True) (fun _ t => op.Leaves s t) s :=
    (h s).mono (fun _ => trivial) leaves_of_grows
  cases op with
  | readContent address token => exact building building_readContent.map
  | readCode address token => exact building building_readCode.map
  | readSource path token => exact building (building_readSource path).map
  | layOut token => exact building building_layOut.map
  | outputRoot => exact building (building_outputRoot _).map
  | writeContent address content token =>
      exact Safely.mapExcept id ((safely_writeContent s content).mono (fun _ => trivial)
        fun both => leaves_of_writes both.1)
  | writeCode address renderer token =>
      exact Safely.mapExcept id ((safely_writeCode s renderer).mono (fun _ => trivial)
        fun both => leaves_of_writes both.1)
  | scan token =>
      exact Safely.bind ((safely_scan s).mono (fun _ => trivial)
        leaves_of_grows)
  | unregister name token =>
      refine (strips_unregister s).mono (fun _ => trivial) fun {_ t} strips => ?_
      exact ⟨strips.ways.imp_right (⟨rfl, ·⟩), fun dir there => .inl (strips.own ▸ there)⟩
  | clear all token => exact (safely_clear s).mono (fun _ => trivial) id

/-- Why a write finds a directory missing. -/
theorem safely_writes (writes : op.Writes address space) (f : Sources) (s : Site Output) :
    (op.job f).Safely (fun _ => True) (fun r t =>
      ∀ e, r = .error e → e.missing = true → Excused f address space s t) s := by
  have failed {α : Type} {r : Except StoreError α} {t : Site Output}
      (excused : ∀ e, r = .error e → e.missing = true → Excused f address space s t) :
      ∀ e, r.map (fun _ => ()) = .error e → e.missing = true → Excused f address space s t := by
    intro e same
    cases r with
    | ok v => cases same
    | error e' =>
        cases same
        exact excused e rfl
  cases writes with
  | content =>
      exact Safely.mapExcept failed ((safely_writeContent s _).mono (fun _ => trivial) (·.2))
  | code => exact Safely.mapExcept failed ((safely_writeCode s _).mono (fun _ => trivial) (·.2))

end Operation
end Store.Files

open Store Store.Files

/-! ## Fleets -/

/-- Stores over files that work in one environment. -/
structure Fleet (ι : Type) where
  overlay : ι → Overlay := fun _ => ∅
  own : ι → Output
  environment : Environment := {}

namespace Fleet

variable {ι : Type} [DecidableEq ι] {f : ι → Sources} {s t u : Fleet ι} {i j : ι} {op : Operation}
  {r : Except StoreError Unit} {events : List (ι × Operation)} {dir : Path}

/-- The site of one of the stores. -/
def site (s : Fleet ι) (i : ι) : Site Output := ⟨s.overlay i, s.own i, s.environment⟩

/-- Has one store carry out an operation, alone and to its end. -/
def perform (f : ι → Sources) (s : Fleet ι) (i : ι) (op : Operation) :
    Option (Except StoreError Unit × Fleet ι) :=
  ((op.job (f i)).finish (s.site i)).map fun (r, t) =>
    (r, { overlay := Function.update s.overlay i t.overlay
          own := Function.update s.own i t.own
          environment := t.environment })

/-- Operations of the stores one after the other. In between, everything may change but the files
and what the stores keep. -/
inductive Runs (f : ι → Sources) : Fleet ι → List (ι × Operation) → Fleet ι → Prop where
  | done {s : Fleet ι} : Runs f s [] s
  | next {s t u : Fleet ι} {i : ι} {op : Operation} {r : Except StoreError Unit}
      {events : List (ι × Operation)} (now : s.perform f i op = some (r, t))
      (later : Runs f t events u) : Runs f s ((i, op) :: events) u
  | idle {s u : Fleet ι} {environment : Environment} {events : List (ι × Operation)}
      (untouched : environment.files = s.environment.files)
      (later : Runs f { s with environment := environment } events u) : Runs f s events u

/-- The stores as they are made. -/
def Fresh (f : ι → Sources) (s : Fleet ι) : Prop :=
  ∀ i, s.own i = { dir := (f i).settings.outputDir }

/-- A store knows of a directory that is not there. -/
def Lacks (s : Fleet ι) (i : ι) (dir : Path) : Prop :=
  dir ∈ (s.own i).made ∧ ¬s.environment.files.HasDir dir

/-- An operation took a directory that one of the stores knew of and has not cleared away itself
since: another store cleared its tree, or a link was unregistered. -/
def Deprived (f : ι → Sources) (s : Fleet ι) (events : List (ι × Operation)) (t : Fleet ι) (i : ι)
    (dir : Path) : Prop :=
  ∃ before j op r after u v, events = before ++ (j, op) :: after ∧
    s.Runs f before u ∧ u.perform f j op = some (r, v) ∧ v.Runs f after t ∧
    dir ∈ (u.own i).made ∧ u.environment.files.HasDir dir ∧ v.Lacks i dir ∧
    (∀ event ∈ after, event.1 = i → event.2.clears = false) ∧
    (op.clears = true ∧ j ≠ i ∨
      op.unregisters = true ∧ u.environment.files.Unlinks v.environment.files)

theorem perform_ends (f : ι → Sources) (s : Fleet ι) (i : ι) (op : Operation) :
    ∃ r t, s.perform f i op = some (r, t) := by
  obtain ⟨r, x, ends, -⟩ := (op.safely_job (f i) (s.site i)).ends
  unfold perform
  rw [ends]
  exact ⟨_, _, rfl⟩

theorem perform_eq (now : s.perform f i op = some (r, t)) :
    ∃ x, (op.job (f i)).finish (s.site i) = some (r, x) ∧ t = {
      overlay := Function.update s.overlay i x.overlay
      own := Function.update s.own i x.own
      environment := x.environment } := by
  obtain ⟨⟨r', x⟩, ends, same⟩ := Option.map_eq_some_iff.1 now
  cases same
  exact ⟨x, ends, rfl⟩

/-- What one operation makes a store lack. -/
theorem lacks_perform (now : s.perform f i op = some (r, t)) (lacks : t.Lacks j dir) :
    (i = j → op.clears = false) ∧ (s.Lacks j dir ∨
      dir ∈ (s.own j).made ∧ s.environment.files.HasDir dir ∧
        (op.clears = true ∧ i ≠ j ∨
          op.unregisters = true ∧ s.environment.files.Unlinks t.environment.files)) := by
  obtain ⟨x, ends, rfl⟩ := perform_eq now
  obtain ⟨known, missing⟩ := lacks
  dsimp only at known missing
  have left := (op.safely_job (f i) (s.site i)).finish ends
  by_cases clears : op.clears = true
  · rw [if_pos clears] at left
    have other : i ≠ j := by
      rintro rfl
      rw [Function.update_self, left] at known
      cases known
    rw [Function.update_of_ne other.symm] at known
    refine ⟨fun same => absurd same other, ?_⟩
    by_cases has : s.environment.files.HasDir dir
    · exact .inr ⟨known, has, .inl ⟨clears, other⟩⟩
    · exact .inl ⟨known, has⟩
  · rw [if_neg clears] at left
    obtain ⟨ways, made⟩ := left
    have before : dir ∈ (s.own j).made := by
      by_cases same : i = j
      · subst same
        rw [Function.update_self] at known
        exact (made dir known).resolve_right missing
      · rw [Function.update_of_ne (Ne.symm same)] at known
        exact known
    refine ⟨fun _ => Bool.eq_false_iff.2 clears, ?_⟩
    by_cases has : s.environment.files.HasDir dir
    · rcases ways with ways | unlinks
      · exact absurd (has.of_ways ways) missing
      · exact .inr ⟨before, has, .inr unlinks⟩
    · exact .inl ⟨before, has⟩

/-- What a store lacks after a run, it lacked from the beginning or was deprived of. -/
theorem Runs.lacks (ran : s.Runs f events t) (lacks : t.Lacks i dir) :
    s.Lacks i dir ∧ (∀ event ∈ events, event.1 = i → event.2.clears = false) ∨
      s.Deprived f events t i dir := by
  induction ran with
  | done => exact .inl ⟨lacks, fun event there => absurd there List.not_mem_nil⟩
  | @next s t u j op r events now later ih =>
      rcases ih lacks with ⟨soon, kept⟩ | ⟨before, rest⟩
      · obtain ⟨own, first | ⟨known, has, why⟩⟩ := lacks_perform now soon
        · exact .inl ⟨first, List.forall_mem_cons.2 ⟨own, kept⟩⟩
        · exact .inr ⟨[], j, op, r, events, s, t, rfl, .done, now, later, known, has, soon, kept,
            why⟩
      · obtain ⟨k, op', r', after, v, w, rfl, first, rest⟩ := rest
        exact .inr ⟨(j, op) :: before, k, op', r', after, v, w, rfl, .next now first, rest⟩
  | @idle s u environment events untouched later ih =>
      rcases ih lacks with ⟨⟨known, missing⟩, kept⟩ | ⟨before, rest⟩
      · refine .inl ⟨⟨known, ?_⟩, kept⟩
        rw [← untouched]
        exact missing
      · obtain ⟨k, op', r', after, v, w, rfl, first, rest⟩ := rest
        exact .inr ⟨before, k, op', r', after, v, w, rfl, .idle untouched first, rest⟩

end Fleet

/-- Stores that share directories come to an end with each write. A store only finds the directory
of a file missing if it was deprived of it, or if it has nowhere to make a temporary directory; else
the key names no file, or what is missing is behind a link in the place of the file. -/
theorem Fleet.directories_missing {ι : Type} [DecidableEq ι] {f : ι → Sources} {s t : Fleet ι}
    {events : List (ι × Operation)} (fresh : s.Fresh f) (ran : s.Runs f events t) (i : ι)
    {op : Operation} {address : Address} {space : KeySpace} (writes : op.Writes address space) :
    ∃ r u, t.perform f i op = some (r, u) ∧ ∀ e, r = .error e → e.missing = true →
      Homeless (f i).settings (t.site i) ∨
      ∃ key dir, address.key (f i).resolver space = .ok key ∧ (u.own i).dir = some dir ∧
        (outputNames key = [] ∨ LinkAt (dir.join (relativePath key)) (u.site i) ∨
          ∃ above known, (dir.join (relativePath key)).parent? = some above ∧
            known.same above = true ∧ t.Lacks i known ∧ s.Deprived f events t i known) := by
  obtain ⟨r, u, now⟩ := perform_ends f t i op
  refine ⟨r, u, now, fun e failed missing => ?_⟩
  obtain ⟨x, ends, rfl⟩ := perform_eq now
  rcases (Operation.safely_writes writes (f i) (t.site i)).finish ends e failed missing with
    homeless | ⟨key, dir, keyed, known, why⟩
  · exact .inl homeless
  · refine .inr ⟨key, dir, keyed, ?_, ?_⟩
    · dsimp only
      rw [Function.update_self]
      exact known
    · rcases why with none | ⟨above, nearest, known, there, same, missing⟩ | link
      · exact .inl none
      · refine .inr (.inr ⟨above, known, nearest, same, ⟨there, missing⟩, ?_⟩)
        rcases ran.lacks (i := i) ⟨there, missing⟩ with ⟨⟨first, -⟩, -⟩ | deprived
        · rw [fresh i] at first
          cases first
        · exact deprived
      · exact .inr (.inl link)

namespace Sample

/-- Two stores with one output directory. -/
def neighbors (_ : Bool) : Sources where
  settings := { sourceDir := ⟨"/in"⟩, outputDir := some ⟨"/out"⟩ }
  resolver := ⟨.standard, none⟩
  canonicalDir := none

def neighborhood : Fleet Bool where
  own := fun _ => { dir := some ⟨"/out"⟩ }

def jot : Operation := .writeContent { name := "a" } (.text "x") ⟨[0], none⟩

def wipeOut : Operation := .clear false ⟨[1], none⟩

end Sample

open Sample

/-- One store writes, the other one clears, and the first one cannot write any more. -/
theorem Fleet.wiped : ∃ t u e,
    neighborhood.Runs neighbors [(false, jot), (true, wipeOut)] t ∧
      t.perform neighbors false jot = some (.error e, u) ∧ e.missing = true := by
  have ends : ((neighborhood.perform neighbors false jot).bind fun x =>
      (x.2.perform neighbors true wipeOut).bind fun y => y.2.perform neighbors false jot).any
        (fun (r, _) => match r with
          | .error e => e.missing
          | .ok _ => false) = true := by
    unfold perform wipeOut jot Operation.job files
    simp only [Store.Sample.few_eq]
    decide +kernel
  obtain ⟨⟨r, u⟩, ends, missing⟩ := (Option.any_eq_true _ _).1 ends
  obtain ⟨⟨_, s⟩, first, ends⟩ := Option.bind_eq_some_iff.1 ends
  obtain ⟨⟨_, t⟩, second, third⟩ := Option.bind_eq_some_iff.1 ends
  cases r with
  | ok _ => cases missing
  | error e => exact ⟨t, u, e, .next first (.next second .done), third, missing⟩

theorem Fleet.directories_do_not_stay :
    ¬∀ (ι : Type) (_ : DecidableEq ι) (f : ι → Sources) (s t u : Fleet ι)
      (events : List (ι × Operation)) (i : ι) (op : Operation) (address : Address)
      (space : KeySpace) (e : StoreError),
      s.Fresh f → s.Runs f events t → op.Writes address space →
        t.perform f i op = some (.error e, u) → e.missing = false := by
  intro claim
  obtain ⟨t, u, e, ran, now, missing⟩ := Fleet.wiped
  have found := claim Bool inferInstance neighbors neighborhood t u _ false jot _ _ e
    (fun _ => rfl) ran .content now
  cases missing.symm.trans found

theorem Fleet.wiped_directory_was_known : ∃ t u e,
    neighborhood.Fresh neighbors ∧ neighborhood.Runs neighbors [(false, jot), (true, wipeOut)] t ∧
      jot.Writes { name := "a" } .content ∧
      t.perform neighbors false jot = some (.error e, u) ∧ e.missing = true ∧
      (Homeless (neighbors false).settings (t.site false) ∨
        ∃ key dir, Address.key { name := "a" } (neighbors false).resolver .content = .ok key ∧
          (u.own false).dir = some dir ∧
          (outputNames key = [] ∨ LinkAt (dir.join (relativePath key)) (u.site false) ∨
            ∃ above known, (dir.join (relativePath key)).parent? = some above ∧
              known.same above = true ∧ t.Lacks false known ∧
              neighborhood.Deprived neighbors [(false, jot), (true, wipeOut)] t false known)) := by
  obtain ⟨t, u, e, ran, now, missing⟩ := Fleet.wiped
  have fresh : neighborhood.Fresh neighbors := fun _ => rfl
  have writes : jot.Writes { name := "a" } .content := .content
  obtain ⟨r, u', now', explained⟩ := Fleet.directories_missing fresh ran false writes
  cases now.symm.trans now'
  exact ⟨t, u, e, fresh, ran, writes, now, missing, explained e rfl missing⟩

end TemplateCache
