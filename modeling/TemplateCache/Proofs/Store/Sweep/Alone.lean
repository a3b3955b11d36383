import TemplateCache.Proofs.Store.Sweep

/-!
# Sweeps without other clients

A store that nobody interferes with visits exactly the keys of a collection, in their order. So
clearing for all leaves exactly the documents whose deletion fails, and a scan finds exactly the
documents that can be read.
-/

namespace TemplateCache.Store.KeyValue

open Job Relation

variable {α : Type} {others : Site Written → Site Written → Prop} {visit : String → Keeping α}
  {s t u v : Site Written} {collection : Collection} {token : Token}

theorem engine_passes (passes : ReflTransGen Passes s t) :
    t.environment.engine = s.environment.engine := by
  induction passes with
  | refl => rfl
  | tail _ last ih =>
      obtain ⟨clock, rfl⟩ := last
      exact ih

/-- The keys of a collection in ascending order. -/
def keys (collection : Collection) (s : Site Written) : List String :=
  (s.environment.engine.documents collection.name).keys

theorem mem_keys {key : String} : key ∈ keys collection s ↔ document collection key s ≠ none := by
  rw [keys, KeyMap.mem_keys, ← Option.ne_none_iff_exists']
  rfl

theorem ascending_keys : (keys collection s).Pairwise (· < ·) :=
  List.pairwise_map.2 (s.environment.engine.documents collection.name).ascending

theorem eq_of_ascending {keys keys' : List String} (ascending : keys.Pairwise (· < ·))
    (ascending' : keys'.Pairwise (· < ·)) (same : ∀ key, key ∈ keys ↔ key ∈ keys') :
    keys = keys' := by
  have distinct {keys : List String} (ascending : keys.Pairwise (· < ·)) : keys.Nodup :=
    ascending.imp fun {a b} below => Std.ne_of_lt below
  refine List.Perm.eq_of_pairwise (fun a b _ _ below above => ?_) ascending ascending'
    ((List.perm_ext_iff_of_nodup (distinct ascending) (distinct ascending')).2 same)
  exact absurd above (String.lt_asymm below)

/-- Where nothing comes and only visits take keys away, a sweep visits all keys. -/
theorem Swept.all_keys {visited : List (String × Except StoreError α)}
    (swept : Swept others visit collection none s visited t)
    (stays : ∀ key, Persists others visit (· ≠ key) fun u => document collection key u ≠ none)
    (lacks : ∀ key, Persists others visit (fun _ => True)
      fun u => document collection key u = none) :
    visited.map (·.1) = keys collection s := by
  refine eq_of_ascending swept.ascending ascending_keys fun key => ?_
  rw [mem_keys]
  constructor
  · intro there missing
    exact swept.sound key missing (lacks key) there
  · intro there
    exact swept.complete key (fun _ => nofun) there (stays key)

/-! ## Deletions -/

/-- What the deletion of a document comes to. -/
def deletion (collection : Collection) (s : Site Written) (key : String) :
    Except StoreError String :=
  match s.environment.engine.fault? .delete collection.name key with
  | some e => .error (.medium backend key (.engine e.message))
  | none => .ok key

/-- Of some documents those are gone whose deletion does not fail, and all else is as before, but
for what the store remembers of them. -/
structure Erases (documents : List (Collection × String)) (s t : Site Written) : Prop where
  faults : t.environment.engine.faults = s.environment.engine.faults
  overlay : t.overlay = s.overlay
  own : ∀ d ∈ t.own, d ∈ s.own
  left : ∀ collection key, document collection key t =
    if (collection, key) ∈ documents ∧ (deletion collection s key).toOption.isSome then none
    else document collection key s

/-- A call that no fault fits changes the engine, and one that a fault fits does not. -/
theorem attempt_fault {call : EngineCall} {name key : String} {e : Engine}
    {f : Engine → α × Engine} :
    e.attempt call name key f =
      match e.fault? call name key with
      | some error => (.error error, e)
      | none => (.ok (f e).1, (f e).2) := rfl

/-- A call that a fault fits fails, and what follows it is not done. -/
theorem runs_call {β : Type} {call : EngineCall} {key target : String} {f : Engine → α × Engine}
    {g : α → Keeping β} {r : Except StoreError β}
    (runs : (attempt call collection key target f >>= g).run.Runs others s r t) :
    (∃ error, s.environment.engine.fault? call collection.name key = some error ∧
      r = .error (.medium backend target (.engine error.message)) ∧ t = s) ∨
    s.environment.engine.fault? call collection.name key = none ∧
      (g (f s.environment.engine).1).run.Runs others { s with
        environment := { s.environment with engine := (f s.environment.engine).2 } } r t := by
  cases fault : s.environment.engine.fault? call collection.name key with
  | some error =>
      rcases runs.of_bindExcept with ⟨_, u, called, -⟩ | ⟨e, called, rfl⟩
      · obtain ⟨answer, -⟩ := runs_attempt called
        rw [attempt_fault, fault] at answer
        cases answer
      · obtain ⟨answer, same⟩ := runs_attempt called
        rw [attempt_fault, fault] at answer same
        cases answer
        exact .inl ⟨error, rfl, rfl, same⟩
  | none =>
      rcases runs.of_bindExcept with ⟨_, u, called, rest⟩ | ⟨e, called, rfl⟩
      · obtain ⟨answer, same⟩ := runs_attempt called
        rw [attempt_fault, fault] at answer same
        cases answer
        rw [same] at rest
        exact .inr ⟨rfl, rest⟩
      · obtain ⟨answer, -⟩ := runs_attempt called
        rw [attempt_fault, fault] at answer
        cases answer

theorem runs_delete {key : String} {r : Except StoreError String}
    (runs : (delete collection key).run.Runs others s r t) :
    r = deletion collection s key ∧ Erases [(collection, key)] s t := by
  rcases runs_call runs with ⟨error, fault, rfl, rfl⟩ | ⟨fault, rest⟩
  · have failed : deletion collection t key =
        .error (.medium backend key (.engine error.message)) := by
      unfold deletion
      rw [fault]
    refine ⟨failed.symm, rfl, rfl, fun _ => id, fun c k => ?_⟩
    rw [if_neg]
    rintro ⟨there, done⟩
    cases List.mem_singleton.1 there
    rw [failed] at done
    cases done
  · have deleted : deletion collection s key = .ok key := by
      unfold deletion
      rw [fault]
    cases rest with
    | act rest =>
        cases rest
        refine ⟨deleted.symm, rfl, rfl, fun _ => List.mem_of_mem_erase, fun c k => ?_⟩
        refine (get?_delete _ _ _ _ _).trans ?_
        by_cases own : (c, k) = (collection, key)
        · cases own
          simp [deleted, Except.toOption]
        · rw [if_neg own, if_neg fun listed => own (List.mem_singleton.1 listed.1)]
          rfl

theorem deletion_congr (faults : t.environment.engine.faults = s.environment.engine.faults)
    (key : String) : deletion collection t key = deletion collection s key := by
  unfold deletion Engine.fault?
  rw [faults]

theorem Erases.trans {documents more : List (Collection × String)} (h : Erases documents s u)
    (h' : Erases more u t) : Erases (documents ++ more) s t where
  faults := h'.faults.trans h.faults
  overlay := h'.overlay.trans h.overlay
  own d listed := h.own d (h'.own d listed)
  left collection key := by
    rw [h'.left, h.left, deletion_congr h.faults]
    by_cases done : (deletion collection s key).toOption.isSome = true
    · by_cases later : (collection, key) ∈ more
      · simp [done, later]
      · simp [done, later]
    · simp [done]

theorem erases_passes (passes : ReflTransGen Passes s t) : Erases [] s t := by
  induction passes with
  | refl => exact ⟨rfl, rfl, fun _ => id, fun _ _ => (if_neg (by simp)).symm⟩
  | tail _ last ih =>
      obtain ⟨clock, rfl⟩ := last
      exact ⟨ih.faults, ih.overlay, ih.own, ih.left⟩

/-- Visits that delete report each deletion, and nothing else changes. -/
theorem Visits.erases {β : Type} (documents : β → Collection × String)
    {visited : List (β × Except StoreError String)}
    (visits : Visits Passes (fun b => delete (documents b).1 (documents b).2) s visited t) :
    Erases ((visited.map (·.1)).map documents) s t ∧ visited.map (·.2) =
      (visited.map (·.1)).map fun b => deletion (documents b).1 s (documents b).2 := by
  induction visits with
  | nil changed => exact ⟨erases_passes changed, rfl⟩
  | @cons s u v t b outcome rest changed runs later ih =>
      obtain ⟨erases, outcomes⟩ := ih
      obtain ⟨rfl, erased⟩ := runs_delete runs
      have passed : Erases [] s u := erases_passes changed
      have before := passed.trans erased
      refine ⟨before.trans erases, ?_⟩
      rw [List.map_cons, List.map_cons, List.map_cons, outcomes, deletion_congr passed.faults]
      congr 1
      exact List.map_congr_left fun b _ => deletion_congr before.faults _

theorem persists_delete (inv : Option (List UInt8) → Prop) {key : String}
    {among : String → Prop} (spared : ∀ k, among k → k ≠ key ∨ inv none) :
    Persists Passes (delete collection) among fun u => inv (document collection key u) where
  other passes start := by
    have same := engine_passes (.single passes)
    unfold document at *
    rwa [same]
  own {k u outcome v} listed runs start := by
    obtain ⟨-, erased⟩ := runs_delete runs
    rw [erased.left]
    split
    · rename_i gone
      rcases spared k listed with other | fine
      · exact absurd (congrArg Prod.snd (List.mem_singleton.1 gone.1)).symm other
      · exact fine
    · exact start

/-- The documents of a collection. -/
abbrev documents (collection : Collection) (s : Site Written) : List (Collection × String) :=
  (keys collection s).map (collection, ·)

/-- A sweep that deletes tries to delete every document of its collection. -/
theorem sweep_erases {pageSize : Nat} (size : 0 < pageSize)
    {outcomes : List (Except StoreError String)}
    (runs : (sweep collection pageSize token (delete collection)).run.Runs Passes s
      (.ok outcomes) t) :
    outcomes = (keys collection s).map (deletion collection s) ∧
      Erases (documents collection s) s t := by
  obtain ⟨visited, rfl, swept⟩ := runs_sweep size runs
  have all : visited.map (·.1) = keys collection s :=
    swept.all_keys (fun key => persists_delete (· ≠ none) fun _ other => .inl other)
      fun key => persists_delete (· = none) fun _ _ => .inr rfl
  obtain ⟨erases, outcomes⟩ := Visits.erases (fun key => (collection, key)) swept.visits
  rw [all] at erases outcomes
  exact ⟨outcomes, erases⟩

theorem Erases.all {c : Collection} {key : String}
    (erases : Erases (documents collection s) s t) :
    document c key t = if c = collection ∧ (deletion collection s key).toOption.isSome then none
      else document c key s := by
  rw [erases.left]
  by_cases own : c = collection
  · subst own
    by_cases there : key ∈ keys c s
    · simp [there]
    · have missing : document c key s = none := by
        by_contra found
        exact there (mem_keys.2 found)
      simp [missing]
  · simp [own, Ne.symm own]

theorem Erases.keys_other {c : Collection} (erases : Erases (documents collection s) s t)
    (other : c ≠ collection) : keys c t = keys c s := by
  refine eq_of_ascending ascending_keys ascending_keys fun key => ?_
  rw [mem_keys, mem_keys, erases.all]
  simp [other]

/-! ## Readings -/

/-- What the reading of a document of content comes to. -/
def reading (s : Site Written) (key : String) : Except StoreError ContentRecord :=
  match s.environment.engine.fault? .get Collection.content.name key with
  | some e => .error (.medium backend key (.engine e.message))
  | none =>
    match (document .content key s).bind (Json.Decoder.ofBytes? (contentRecord key)) with
    | some record => .ok record
    | none => .error (.medium backend key .codec)

/-- Reading leaves the medium as it is. -/
theorem runs_loadContent {key : String} {r : Except StoreError (Option ContentRecord)}
    (runs : (loadContent key).run.Runs others s r t) :
    t.environment = s.environment ∧
      (document .content key s ≠ none → r = (reading s key).map some) := by
  unfold reading
  rcases runs_call runs with ⟨error, fault, rfl, rfl⟩ | ⟨fault, rest⟩
  · rw [fault]
    exact ⟨rfl, fun _ => rfl⟩
  · rw [fault]
    have found : s.environment.engine.get? Collection.content.name key =
        document .content key s := rfl
    rw [found] at rest
    cases there : document .content key s with
    | none =>
        rw [there] at rest
        cases rest
        exact ⟨rfl, fun some => absurd rfl some⟩
    | some bytes =>
        rw [there] at rest
        rw [Option.bind_some]
        simp only [decoded] at rest
        cases read : Json.Decoder.ofBytes? (contentRecord key) bytes with
        | none =>
            rw [read] at rest
            cases rest
            exact ⟨rfl, fun _ => rfl⟩
        | some record =>
            rw [read] at rest
            cases rest with
            | act rest =>
                cases rest
                exact ⟨rfl, fun _ => rfl⟩

/-- The visit of a key in a scan. -/
abbrev readKey (key : String) : Keeping (String × Option ContentRecord) := do
  return (key, ← loadContent key)

theorem runs_readKey {key : String} {r : Except StoreError (String × Option ContentRecord)}
    (runs : (readKey key).run.Runs others s r t) :
    t.environment = s.environment ∧ (document .content key s ≠ none →
      r = (reading s key).map fun record => (key, some record)) := by
  rcases runs.of_bindExcept with ⟨found, u, loaded, rest⟩ | ⟨e, failed, rfl⟩
  · obtain ⟨same, read⟩ := runs_loadContent loaded
    cases rest
    refine ⟨same, fun there => ?_⟩
    have fine := read there
    cases made : reading s key with
    | error e =>
        rw [made] at fine
        cases fine
    | ok record =>
        rw [made] at fine
        cases fine
        rfl
  · obtain ⟨same, read⟩ := runs_loadContent failed
    refine ⟨same, fun there => ?_⟩
    have fine := read there
    cases made : reading s key with
    | error e =>
        rw [made] at fine
        cases fine
        rfl
    | ok record =>
        rw [made] at fine
        cases fine

theorem reading_congr (same : t.environment.engine = s.environment.engine) (key : String) :
    reading t key = reading s key := by
  unfold reading document
  rw [same]

theorem Visits.reads {visited : List (String × Except StoreError (String × Option ContentRecord))}
    (visits : Visits Passes readKey s visited t)
    (there : ∀ key ∈ visited.map (·.1), document .content key s ≠ none) :
    visited.map (·.2) =
      (visited.map (·.1)).map fun key => (reading s key).map fun record => (key, some record) := by
  induction visits with
  | nil changed => rfl
  | @cons s u v t key outcome rest changed runs later ih =>
      have passed := engine_passes changed
      obtain ⟨same, read⟩ := runs_readKey runs
      have engine : v.environment.engine = s.environment.engine := by rw [same, passed]
      have present (key : String) (there : document .content key s ≠ none) :
          document .content key u ≠ none ∧ document .content key v ≠ none := by
        unfold document at *
        rw [engine, passed]
        exact ⟨there, there⟩
      rw [List.map_cons, List.forall_mem_cons] at there
      have rest := ih fun key listed => (present key (there.2 key listed)).2
      rw [List.map_cons, List.map_cons, List.map_cons, rest, read (present key there.1).1,
        reading_congr passed]
      congr 1
      refine List.map_congr_left fun key _ => ?_
      rw [reading_congr engine]

theorem persists_readKey (inv : Option (List UInt8) → Prop) {key : String}
    {among : String → Prop} :
    Persists Passes readKey among fun u => inv (document collection key u) where
  other passes start := by
    have same := engine_passes (.single passes)
    unfold document at *
    rwa [same]
  own listed runs start := by
    obtain ⟨same, -⟩ := runs_readKey runs
    unfold document at *
    rwa [same]

/-- A sweep that reads tries to read every document of content. -/
theorem sweep_reads {pageSize : Nat} (size : 0 < pageSize)
    {outcomes : List (Except StoreError (String × Option ContentRecord))}
    (runs : (sweep .content pageSize token readKey).run.Runs Passes s (.ok outcomes) t) :
    outcomes = (keys .content s).map fun key =>
      (reading s key).map fun record => (key, some record) := by
  obtain ⟨visited, rfl, swept⟩ := runs_sweep size runs
  have all : visited.map (·.1) = keys .content s :=
    swept.all_keys (fun key => persists_readKey (· ≠ none)) fun key => persists_readKey (· = none)
  rw [swept.visits.reads fun key listed => ?_, all]
  rw [all] at listed
  exact mem_keys.1 listed

/-! ## Reports -/

/-- How a batch is reported: a failure has one slot for each operation in the order of the batch. -/
inductive Reports {β : Type} (slots : List (Except StoreError String)) (value : β) :
    Except StoreError β → Prop where
  | ok (fine : ∀ slot ∈ slots, ∃ key, slot = .ok key) : Reports slots value (.ok value)
  | failed {failure : BatchFailure String StoreError} (results : failure.results = slots)
      (some : ∃ e, .error e ∈ slots) : Reports slots value (.error (.batch failure))

theorem reports_collect {β : Type} (slots : List (Except StoreError String)) (value : β) :
    Reports slots value (((Batch.collect slots).mapError .batch).map fun _ => value) := by
  have fails {index : Nat} {e : StoreError} (there : (index, e) ∈ Batch.failuresOf slots) :
      ∃ e, .error e ∈ slots := by
    obtain ⟨⟨outcome, place⟩, listed, same⟩ := List.mem_filterMap.1 there
    cases outcome with
    | ok key => cases same
    | error e => exact ⟨e, List.fst_mem_of_mem_zipIdx listed⟩
  unfold Batch.collect
  cases failures : Batch.failuresOf slots with
  | nil =>
      refine .ok fun slot there => ?_
      cases slot with
      | ok key => exact ⟨key, rfl⟩
      | error e =>
          obtain ⟨index, at_index⟩ := List.mem_iff_getElem?.1 there
          have found : (index, e) ∈ Batch.failuresOf slots :=
            List.mem_filterMap.2 ⟨(.error e, index), List.mem_zipIdx_iff_getElem?.2 at_index, rfl⟩
          rw [failures] at found
          exact absurd found List.not_mem_nil
  | cons first rest =>
      have some := fails (failures ▸ List.mem_cons_self)
      cases rest with
      | nil => exact .failed rfl some
      | cons second rest => exact .failed rfl some

/-! ## Clearing and scanning -/

variable {resolver : Resolver} {pageSize : Nat}

/-- Both sweeps of a store that is cleared for all. -/
theorem runs_sweeps (size : 0 < pageSize) {r : Except StoreError Unit}
    (runs : (do
      let content ← sweep .content pageSize token (delete .content)
      let code ← sweep .code pageSize token (delete .code)
      Storing.batch (content ++ code) : Keeping Unit).run.Runs Passes s r t)
    (listed : ∀ e, r = .error e → ∃ failure, e = .batch failure) :
    Reports ((keys .content s).map (deletion .content s) ++ (keys .code s).map (deletion .code s))
      () r ∧
      ∀ collection key, document collection key t =
        if (deletion collection s key).toOption.isSome then none
        else document collection key s := by
  have unlisted {e : StoreError} (same : r = .error e) (other : ∀ failure, e ≠ .batch failure) :
      False := by
    obtain ⟨failure, batch⟩ := listed e same
    exact other failure batch
  rcases runs.of_bindExcept with ⟨content, u, first, rest⟩ | ⟨e, failed, same⟩
  · obtain ⟨rfl, erased⟩ := sweep_erases size first
    rcases rest.of_bindExcept with ⟨code, v, second, rest⟩ | ⟨e, failed, same⟩
    · obtain ⟨rfl, erased'⟩ := sweep_erases size second
      cases rest
      have code : (keys .code u).map (deletion .code u) =
          (keys .code s).map (deletion .code s) := by
        have same : keys .code u = keys .code s := erased.keys_other (by decide)
        rw [same]
        exact List.map_congr_left fun key _ => deletion_congr erased.faults key
      refine ⟨?_, fun collection key => ?_⟩
      · rw [code]
        exact reports_collect _ ()
      · rw [erased'.all, erased.all, deletion_congr erased.faults]
        cases collection with
        | content => simp
        | code => simp
    · exact (unlisted same (sweep_not_batch failed)).elim
  · exact (unlisted same (sweep_not_batch failed)).elim

theorem runs_clear {r : Except StoreError Unit}
    (runs : ((keyValue resolver pageSize).clear true token).run.Runs Passes s r t)
    (listed : ∀ e, r = .error e → ∃ failure, e = .batch failure) :
    Reports ((keys .content s).map (deletion .content s) ++ (keys .code s).map (deletion .code s))
      () r ∧
      ∀ collection key, document collection key t =
        if (deletion collection s key).toOption.isSome then none
        else document collection key s := by
  have size : 0 < max pageSize 1 := Nat.lt_of_lt_of_le Nat.one_pos (Nat.le_max_right _ _)
  cases runs with
  | act runs => exact runs_sweeps (s := { s with overlay := ∅ }) size runs listed

theorem runs_scan {d : Discovery}
    (runs : ((keyValue resolver pageSize).scan token).Runs Passes s d t)
    (listed : ∀ e, d.outcome = .error e → ∃ failure, e = .batch failure) :
    d.found = (keys .content s).filterMap (fun key => (reading s key).toOption) ∧
      Reports ((keys .content s).map fun key => (reading s key).map fun _ => key) d.found.length
        d.outcome := by
  have size : 0 < max pageSize 1 := Nat.lt_of_lt_of_le Nat.one_pos (Nat.le_max_right _ _)
  obtain ⟨r, u, sweeping, rest⟩ := Runs.of_bind runs
  cases r with
  | error e =>
      cases rest
      obtain ⟨failure, batch⟩ := listed e rfl
      exact absurd batch (sweep_not_batch sweeping failure)
  | ok outcomes =>
      cases rest
      have read : outcomes = (keys .content s).map fun key =>
          (reading s key).map fun record => (key, some record) := sweep_reads size sweeping
      have found : (Batch.valuesOf outcomes).filterMap (·.2) =
          (keys .content s).filterMap fun key => (reading s key).toOption := by
        rw [read, Batch.valuesOf, List.filterMap_map, List.filterMap_filterMap]
        congr 1
        funext key
        cases made : reading s key <;> simp [made, Except.map, Except.toOption]
      have slots : outcomes.map (·.map (·.1)) =
          (keys .content s).map fun key => (reading s key).map fun _ => key := by
        rw [read, List.map_map]
        refine List.map_congr_left fun key _ => ?_
        cases made : reading s key <;> simp [made, Except.map]
      refine ⟨found, ?_⟩
      rw [← slots]
      exact reports_collect _ _

/-! ## Sweeps come to an end -/

theorem timed_delayed {x : Keeping α} (h : x.run.Timed) :
    (do engineDelay; x : Keeping α).run.Timed :=
  Timed.bindExcept (Timed.bindExcept (fun _ => trivial) fun delay =>
    (timed_sleep delay).bind fun _ => trivial) fun _ => h

theorem timed_page (limit : Option Nat) (cursor : Option String) :
    (page collection limit cursor token).run.Timed := by
  refine Timed.bindExcept ?_ fun listed => ?_
  · exact Timed.within (timed_delayed fun _ => trivial)
  · cases limit with
    | none => trivial
    | some n => trivial

theorem timed_together (instant : ∀ key, (visit key).run.Instant) (keys : List String) :
    (together visit keys).run.Timed := by
  have visits : (Storing.always (keys.mapM fun key => (visit key).run) : Keeping _).run.Timed :=
    (Timed.mapM (fun key => (instant key).timed) keys).bind fun _ => trivial
  unfold together
  by_cases empty : keys.isEmpty = true
  · rw [empty]
    exact visits
  · rw [Bool.not_eq_true] at empty
    rw [empty]
    exact timed_delayed visits

theorem timed_sweepFrom (instant : ∀ key, (visit key).run.Instant) (pageSize pages : Nat)
    (cursor : Option String) :
    (sweepFrom collection pageSize token visit pages cursor).run.Timed := by
  induction pages generalizing cursor with
  | zero => exact (timed_page _ _).bindExcept fun _ => timed_together instant _
  | succ pages ih =>
      refine (timed_page _ _).bindExcept fun listed => ?_
      refine (timed_together instant _).bindExcept fun outcomes => ?_
      dsimp only
      split
      · exact (ih _).bindExcept fun _ => trivial
      · trivial

theorem timed_sweep (instant : ∀ key, (visit key).run.Instant) (pageSize : Nat) :
    (sweep collection pageSize token visit).run.Timed :=
  Timed.bindExcept (fun _ => trivial) fun _ => timed_sweepFrom instant _ _ _

theorem timed_clear (resolver : Resolver) (pageSize : Nat) :
    ((keyValue resolver pageSize).clear true token).run.Timed := by
  refine Timed.bindExcept (fun _ => trivial) fun _ => ?_
  refine (timed_sweep (instant_delete _) _).bindExcept fun content => ?_
  exact (timed_sweep (instant_delete _) _).bindExcept fun code => trivial

theorem timed_scan (resolver : Resolver) (pageSize : Nat) :
    ((keyValue resolver pageSize).scan token).Timed := by
  refine (timed_sweep (fun key => ?_) _).bind fun r => ?_
  · exact (instant_loadContent key).bindExcept fun _ => trivial
  · cases r with
    | error e => trivial
    | ok outcomes => trivial

end KeyValue

open KeyValue in
/-- As long as listings succeed, a sweep visits keys in ascending order, none of them twice, and
does not miss any that is there all the time, whatever others do meanwhile. If only so many keys
ever come up, it ends by itself after as many pages as they fill. So, alone, clearing for all leaves
exactly the documents whose deletion fails, and a scan finds one record for each document that can
be read and reports one slot for each key. -/
theorem sweeps_visit_each_key_once (resolver : Resolver) (pageSize : Nat) :
    (∀ {α : Type} (others : Site Written → Site Written → Prop) (visit : String → Keeping α)
        (collection : Collection) (token : Token) (s t : Site Written)
        (outcomes : List (Except StoreError α)),
      (sweep collection (max pageSize 1) token visit).run.Runs others s (.ok outcomes) t →
        ∃ visited, outcomes = visited.map (·.2) ∧
          Swept others visit collection none s visited t) ∧
    (∀ {α : Type} (others : Site Written → Site Written → Prop) (visit : String → Keeping α)
        (collection : Collection) (token : Token) (known : List String) (s : Site Written),
      Persists others visit (fun _ => True) (Within collection known) →
      Within collection known s → ∀ pages, known.length < max pageSize 1 * pages →
        ∀ spare r t,
          (sweepFrom collection (max pageSize 1) token visit (pages + spare) none).run.Runs others
              s r t ↔
            (sweepFrom collection (max pageSize 1) token visit pages none).run.Runs others
              s r t) ∧
    (∀ (token : Token) (s : Site Written), ∃ r t,
      ((keyValue resolver pageSize).clear true token).run.finish s = some (r, t) ∧
        ((∀ e, r = .error e → ∃ failure, e = .batch failure) →
          Reports ((keys .content s).map (deletion .content s) ++
            (keys .code s).map (deletion .code s)) () r ∧
          ∀ collection key, document collection key t =
            if (deletion collection s key).toOption.isSome then none
            else document collection key s)) ∧
    ∀ (token : Token) (s : Site Written), ∃ d t,
      ((keyValue resolver pageSize).scan token).finish s = some (d, t) ∧
        ((∀ e, d.outcome = .error e → ∃ failure, e = .batch failure) →
          d.found = (keys .content s).filterMap (fun key => (reading s key).toOption) ∧
          Reports ((keys .content s).map fun key => (reading s key).map fun _ => key)
            d.found.length d.outcome) := by
  have size : 0 < max pageSize 1 := Nat.lt_of_lt_of_le Nat.one_pos (Nat.le_max_right _ _)
  refine ⟨?_, ?_, fun token s => ?_, fun token s => ?_⟩
  · intro α others visit collection token s t outcomes runs
    exact runs_sweep size runs
  · intro α others visit collection token known s persists within pages enough spare r t
    refine sweepFrom_ends size persists within ?_ spare
    exact Nat.lt_of_le_of_lt List.countP_le_length enough
  · obtain ⟨r, t, ends⟩ := (timed_clear resolver pageSize).ends s
    exact ⟨r, t, ends, runs_clear (Job.runs_alone (fun _ => rfl) (fun _ _ => rfl) ends)⟩
  · obtain ⟨d, t, ends⟩ := (timed_scan resolver pageSize).ends s
    exact ⟨d, t, ends, runs_scan (Job.runs_alone (fun _ => rfl) (fun _ _ => rfl) ends)⟩

open KeyValue in
/-- An engine that refuses to delete one of three documents, and pages of two keys. -/
theorem refused_document_stays :
    let resolver : Resolver := ⟨.standard, none⟩
    let refusal : Fault := ⟨some .delete, none, some "b", .refused "no"⟩
    let engine : Engine :=
      { collections := .ofPairs [("partials", .ofPairs [("a", []), ("b", []), ("c", [])])]
        faults := [refusal] }
    let s : Site Written := { own := [], environment := { engine := engine } }
    ∃ r t, ((keyValue resolver 2).clear true ⟨[0], none⟩).run.finish s = some (r, t) ∧
      (∃ failure, r = .error (.batch failure) ∧ failure.results =
        [.ok "a", .error (.medium "kv" "b" (.engine "no")), .ok "c"]) ∧
      ∀ key, document .content key t ≠ none ↔ key = "b" := by
  intro resolver refusal engine s
  obtain ⟨r, t, ends, left⟩ :=
    (sweeps_visit_each_key_once resolver 2).2.2.1 ⟨[0], none⟩ s
  have listed : (((keyValue resolver 2).clear true ⟨[0], none⟩).run.finish s).all (fun (r, _) =>
      match r with
      | .ok () => true
      | .error (.batch _) => true
      | .error _ => false) = true := by decide
  rw [ends] at listed
  have batch : ∀ e, r = .error e → ∃ failure, e = .batch failure := by
    rintro e rfl
    cases e with
    | batch failure => exact ⟨failure, rfl⟩
    | _ => cases listed
  obtain ⟨reports, documents⟩ := left batch
  have slots : (keys .content s).map (deletion .content s) ++
      (keys .code s).map (deletion .code s) =
      [.ok "a", .error (.medium "kv" "b" (.engine "no")), .ok "c"] := rfl
  rw [slots] at reports
  refine ⟨r, t, ends, ?_, fun key => ?_⟩
  · cases reports with
    | ok fine =>
        obtain ⟨key, same⟩ := fine (.error (.medium "kv" "b" (.engine "no"))) (by simp)
        cases same
    | failed results bad => exact ⟨_, rfl, results⟩
  · rw [documents]
    by_cases own : key = "b"
    · subst own
      have stays : document .content "b" s ≠ none := by decide
      simpa [deletion, Engine.fault?, Fault.fits, s, engine, refusal, Except.toOption] using stays
    · have gone : deletion .content s key = .ok key := by
        simp [deletion, Engine.fault?, Fault.fits, s, engine, refusal, Ne.symm own]
      simp [gone, own, Except.toOption]

end TemplateCache.Store
