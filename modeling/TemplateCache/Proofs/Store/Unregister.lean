import TemplateCache.Proofs.Files.Tree
import TemplateCache.Proofs.Job.Alone
import TemplateCache.Proofs.KeyMap
import TemplateCache.Store.Files
import TemplateCache.Store.KeyValue

/-!
# What stores remove of a name

An unregistration that succeeds has removed from the medium what lies under the two plain keys of
the name and under the keys that the overlay had for the name when it began. All else is as it was.
-/

namespace TemplateCache

open Job

variable {π α : Type}

/-! ## Operations of stores -/

namespace Storing

variable {ok : α → Site π → Prop} {s : Site π} {x : Storing π α}

theorem succeeds_gets {f : Site π → α} (h : ok (f s) s) : Succeeds (gets f) ok s := by
  rintro v ⟨⟩
  exact h

theorem succeeds_modify {f : Site π → Site π} {ok : Unit → Site π → Prop} (h : ok () (f s)) :
    Succeeds (modify f) ok s := fun _ _ => h

theorem succeeds_ofExcept {r : Except StoreError α} (h : ∀ v, r = .ok v → ok v s) :
    Succeeds (ofExcept r) ok s := h

theorem succeeds_naming {r : Except NameError α} (h : ∀ v, r = .ok v → ok v s) :
    Succeeds (naming r) ok s := by
  cases r with
  | ok w =>
      rintro v ⟨⟩
      exact h w rfl
  | error e => exact fun _ => nofun

theorem succeeds_within {token : Token} {operation : String} (h : Succeeds x ok s) :
    Succeeds (within token operation x) ok s :=
  Alone.within (fun _ _ _ => nofun) h

/-- A batch succeeds only where all of its operations did. -/
theorem succeeds_batch {results : List (Except StoreError String)} (ok : Unit → Site π → Prop)
    (h : (∀ e, .error e ∉ results) → ok () s) : Succeeds (batch results) ok s := by
  refine succeeds_ofExcept fun v collected => h fun e failed => ?_
  obtain ⟨index, there⟩ := List.mem_iff_getElem?.1 failed
  have found : (index, e) ∈ Batch.failuresOf results :=
    List.mem_filterMap.2 ⟨(.error e, index), List.mem_zipIdx_iff_getElem?.2 there, rfl⟩
  unfold Batch.collect at collected
  cases failures : Batch.failuresOf results with
  | nil =>
      rw [failures] at found
      exact absurd found List.not_mem_nil
  | cons first rest =>
      rw [failures] at collected
      cases rest with
      | nil => exact nomatch collected
      | cons second rest => exact nomatch collected

end Storing

/-! ## The keys of a name -/

namespace Overlay

variable {o : Overlay} {name key : String}

/-- The content keys of a name: the plain one, and those that the overlay has. -/
def ListsContent (o : Overlay) (resolver : Resolver) (name key : String) : Prop :=
  resolver.resolve name .content none none = .ok key ∨
    ∃ record, o.content.get? key = some record ∧ record.name = name

/-- The code keys of a name: the plain one, and those that the overlay has. -/
def ListsCode (o : Overlay) (resolver : Resolver) (name key : String) : Prop :=
  resolver.resolve name .code none none = .ok key ∨
    ∃ record, o.code.get? key = some record ∧ record.name = name

theorem mem_contentKeys :
    key ∈ o.contentKeys name ↔ ∃ record, o.content.get? key = some record ∧ record.name = name := by
  unfold contentKeys
  rw [KeyMap.mem_keys_filter]
  simp only [beq_iff_eq]

theorem mem_codeKeys :
    key ∈ o.codeKeys name ↔ ∃ record, o.code.get? key = some record ∧ record.name = name := by
  unfold codeKeys
  rw [KeyMap.mem_keys_filter]
  simp only [beq_iff_eq]

variable {resolver : Resolver} {plain : String}

theorem mem_plain_contentKeys (named : resolver.resolve name .content none none = .ok plain) :
    key ∈ plain :: o.contentKeys name ↔ o.ListsContent resolver name key := by
  unfold ListsContent
  rw [List.mem_cons, mem_contentKeys, named, Except.ok.injEq, eq_comm]

theorem mem_plain_codeKeys (named : resolver.resolve name .code none none = .ok plain) :
    key ∈ plain :: o.codeKeys name ↔ o.ListsCode resolver name key := by
  unfold ListsCode
  rw [List.mem_cons, mem_codeKeys, named, Except.ok.injEq, eq_comm]

/-- The keys that an unregistration removes. -/
theorem mem_nameKeys {plainCode : String}
    (content : resolver.resolve name .content none none = .ok plain)
    (code : resolver.resolve name .code none none = .ok plainCode) :
    key ∈ plain :: plainCode :: o.contentKeys name ++ o.codeKeys name ↔
      o.ListsContent resolver name key ∨ o.ListsCode resolver name key := by
  rw [← mem_plain_contentKeys content, ← mem_plain_codeKeys code]
  simp only [List.mem_append, List.mem_cons]
  tauto

end Overlay

/-! ## A key-value engine -/

namespace Store.KeyValue

/-- What the engine has under a key. -/
def document (collection : Collection) (key : String) (s : Site Written) : Option (List UInt8) :=
  s.environment.engine.get? collection.name key

/-- Some documents are gone, and all others are as before. -/
structure Removes (documents : List (Collection × String)) (s t : Site Written) : Prop where
  gone : ∀ {collection key}, (collection, key) ∈ documents → document collection key t = none
  kept : ∀ {collection key}, (collection, key) ∉ documents →
    document collection key t = document collection key s

theorem Removes.append {documents more : List (Collection × String)} {s t u : Site Written}
    (h : Removes documents s t) (h' : Removes more t u) : Removes (documents ++ more) s u where
  gone {collection key} listed := by
    by_cases own : (collection, key) ∈ more
    · exact h'.gone own
    · rw [h'.kept own]
      exact h.gone ((List.mem_append.1 listed).resolve_right own)
  kept {collection key} unlisted := by
    rw [List.mem_append, not_or] at unlisted
    rw [h'.kept unlisted.2]
    exact h.kept unlisted.1

theorem name_injective {a b : Collection} (same : a.name = b.name) : a = b := by
  cases a with
  | content =>
      cases b with
      | content => rfl
      | code => exact absurd same (by decide)
  | code =>
      cases b with
      | content => exact absurd same (by decide)
      | code => rfl

theorem get?_delete (e : Engine) (collection other : Collection) (key k : String) :
    (e.delete collection.name key).get? other.name k =
      if (other, k) = (collection, key) then none else e.get? other.name k := by
  unfold Engine.get? Engine.delete Engine.documents
  dsimp only
  rw [KeyMap.get?_insert]
  by_cases own : other = collection
  · subst own
    rw [if_pos rfl, Option.getD_some, KeyMap.get?_erase]
    simp
  · rw [if_neg fun same => own (name_injective same),
      if_neg fun same => own (congrArg Prod.fst same)]

/-- A call of the engine fails and changes nothing, or is made. -/
theorem alone_attempt {call : EngineCall} {collection : Collection} {key target : String}
    {f : Engine → α × Engine} {s : Site Written} {ok : Except StoreError α → Site Written → Prop}
    (failed : ∀ e, ok (.error e) s)
    (made : ok (.ok (f s.environment.engine).1)
      { s with environment := { s.environment with engine := (f s.environment.engine).2 } }) :
    (attempt call collection key target f).run.Alone ok s := by
  show ok ((s.environment.engine.attempt call collection.name key f).1.mapError _)
    { s with environment := { s.environment with
      engine := (s.environment.engine.attempt call collection.name key f).2 } }
  unfold Engine.attempt
  split
  · exact failed _
  · exact made

theorem alone_delete {collection : Collection} {key : String} {s : Site Written}
    {ok : Except StoreError String → Site Written → Prop} (failed : ∀ e, ok (.error e) s)
    (deleted : ∀ v t, Removes [(collection, key)] s t → ok (.ok v) t) :
    (delete collection key).run.Alone ok s := by
  unfold delete
  refine Alone.bind (f := ExceptT.bindCont _) (alone_attempt failed ?_)
  refine deleted _ _ ⟨fun own => ?_, fun other => ?_⟩
  · exact (get?_delete _ _ _ _ _).trans (if_pos (List.mem_singleton.1 own))
  · exact (get?_delete _ _ _ _ _).trans (if_neg fun own => other (List.mem_singleton.2 own))

/-- Where all deletions succeed, all documents are gone. -/
theorem alone_deletions (documents gone : List (Collection × String))
    (s₀ : Site Written) {s : Site Written} {made : List (Except StoreError String)}
    {ok : List (Except StoreError String) → Site Written → Prop}
    (before : (∀ e, .error e ∉ made) → Removes gone s₀ s)
    (ends : ∀ outcomes t, ((∀ e, .error e ∉ outcomes) → Removes (gone ++ documents) s₀ t) →
      ok outcomes t) :
    (List.mapM.loop (fun (d : Collection × String) => (delete d.1 d.2).run) documents
      made).Alone ok s := by
  induction documents generalizing s gone made with
  | nil =>
      refine ends _ _ fun fine => ?_
      rw [List.append_nil]
      exact before fun e failed => fine e (List.mem_reverse.2 failed)
  | cons d rest ih =>
      refine Alone.bind (alone_delete (fun e => ?_) fun v t removes => ?_)
      · refine ih (gone ++ [d]) (fun fine => absurd List.mem_cons_self (fine e))
          fun outcomes t after => ends outcomes t ?_
        rwa [List.append_assoc] at after
      · refine ih (gone ++ [d]) (fun fine => ?_) fun outcomes t after => ends outcomes t ?_
        · have earlier := before fun e failed => fine e (List.mem_cons_of_mem _ failed)
          exact earlier.append removes
        · rwa [List.append_assoc] at after

/-- Time may pass, which does not concern the documents. -/
theorem succeeds_engineDelay {s : Site Written} {ok : Unit → Site Written → Prop} (now : ok () s)
    (later : ∀ clock, ok () (Clocked.setClock clock s)) : Succeeds engineDelay ok s := by
  refine Succeeds.bind (Storing.succeeds_gets ?_)
  refine succeeds_lift ?_
  exact ⟨now, later⟩

theorem succeeds_deleteAll (documents : List (Collection × String)) {s : Site Written}
    {ok : Unit → Site Written → Prop} (ends : ∀ t, Removes documents s t → ok () t) :
    Succeeds (deleteAll documents) ok s := by
  have deletions {u : Site Written} (same : ∀ collection key,
      document collection key u = document collection key s) :
      Succeeds (Storing.always (documents.mapM fun d => (delete d.1 d.2).run))
        (fun outcomes t => Succeeds (Storing.batch outcomes) ok t) u := by
    refine succeeds_lift (alone_deletions documents [] s (fun _ => ?_) ?_)
    · exact ⟨fun none => absurd none List.not_mem_nil, fun _ => same _ _⟩
    · exact fun outcomes t removed => Storing.succeeds_batch ok fun fine => ends t (removed fine)
  unfold deleteAll together
  refine Succeeds.bind ?_
  dsimp only
  split
  · exact deletions fun _ _ => rfl
  · refine Succeeds.bind (succeeds_engineDelay ?_ fun _ => ?_)
    · exact deletions fun _ _ => rfl
    · exact deletions fun _ _ => rfl

/-- The documents that an unregistration removes. -/
abbrev nameDocuments (o : Overlay) (name contentKey codeKey : String) :
    List (Collection × String) :=
  (keyValue.distinct (contentKey :: o.contentKeys name)).map (Collection.content, ·) ++
    (keyValue.distinct (codeKey :: o.codeKeys name)).map (Collection.code, ·)

/-- The documents of a name: those of its listed keys. -/
def Listed (o : Overlay) (resolver : Resolver) (name : String) : Collection × String → Prop
  | (.content, key) => o.ListsContent resolver name key
  | (.code, key) => o.ListsCode resolver name key

theorem mem_nameDocuments {o : Overlay} {resolver : Resolver} {name contentKey codeKey : String}
    {d : Collection × String} (content : resolver.resolve name .content none none = .ok contentKey)
    (code : resolver.resolve name .code none none = .ok codeKey) :
    d ∈ nameDocuments o name contentKey codeKey ↔ Listed o resolver name d := by
  obtain ⟨collection, key⟩ := d
  cases collection with
  | content =>
      refine Iff.trans ?_ (Overlay.mem_plain_contentKeys content)
      simp only [List.mem_append, List.mem_map, Prod.mk.injEq, true_and, exists_eq_right,
        reduceCtorEq, false_and, exists_false, and_false, or_false]
      exact mem_sorted
  | code =>
      refine Iff.trans ?_ (Overlay.mem_plain_codeKeys code)
      simp only [List.mem_append, List.mem_map, Prod.mk.injEq, true_and, exists_eq_right,
        reduceCtorEq, false_and, exists_false, and_false, false_or]
      exact mem_sorted

/-- An unregistration that succeeds has removed just the documents of the listed keys. -/
theorem succeeds_unregister (resolver : Resolver) (pageSize : Nat) (name : String) (token : Token)
    (s : Site Written) :
    Succeeds ((keyValue resolver pageSize).unregister name token) (fun _ t =>
      ∃ documents, Removes documents s t ∧
        ∀ d, d ∈ documents ↔ Listed s.overlay resolver name d) s := by
  refine Succeeds.bind (Storing.succeeds_gets ?_)
  refine Succeeds.bind (Storing.succeeds_modify ?_)
  refine Succeeds.bind (Storing.succeeds_naming fun contentKey content => ?_)
  refine Succeeds.bind (Storing.succeeds_naming fun codeKey code => ?_)
  refine Storing.succeeds_within (succeeds_deleteAll _ fun t removes => ?_)
  exact ⟨_, ⟨removes.gone, removes.kept⟩, fun d => mem_nameDocuments content code⟩

end Store.KeyValue

/-! ## Files -/

namespace FileTree

/-- Nothing is left at some paths, and what is neither there nor below is as before. -/
structure Loses (paths : List Path) (t u : FileTree) : Prop where
  thins : t.Thins u
  lacks : ∀ p ∈ paths, u.Lacks p
  kept : ∀ place, ¬t.Covers paths place → u.entry? place = t.entry? place

theorem Covers.mono {t : FileTree} {paths more : List Path} {place : Place}
    (covers : t.Covers paths place) (among : ∀ p ∈ paths, p ∈ more) : t.Covers more place := by
  obtain ⟨p, there, found⟩ := covers
  exact ⟨p, among p there, found⟩

theorem Covers.of_thins {t u : FileTree} {paths : List Path} {place : Place}
    (covers : u.Covers paths place) (thins : t.Thins u) : t.Covers paths place := by
  obtain ⟨p, there, here, e, found, below⟩ := covers
  exact ⟨p, there, here, e, (entryAt_of_thins thins found).1, below⟩

theorem loses_nil (t : FileTree) : Loses [] t t :=
  ⟨.refl t, fun _ there => absurd there List.not_mem_nil, fun _ _ => rfl⟩

/-- What is lost first stays lost. -/
theorem Loses.trans {paths more : List Path} {t u v : FileTree} (h : Loses paths t u)
    (h' : Loses more u v) : Loses (paths ++ more) t v where
  thins := h.thins.trans h'.thins
  lacks p there := by
    rcases List.mem_append.1 there with first | second
    · exact (h.lacks p first).thins h'.thins
    · exact h'.lacks p second
  kept place apart := by
    rw [h'.kept place, h.kept place]
    · exact fun covers => apart (covers.mono fun _ => List.mem_append_left _)
    · exact fun covers => apart ((covers.of_thins h.thins).mono fun _ => List.mem_append_right _)

/-- Removing a file succeeds, finds nothing, or fails. -/
theorem loses_removeFile {t : FileTree} {p : Path}
    (fine : (t.attempt (t.removeFile p)).1 = .ok () ∨
      (t.attempt (t.removeFile p)).1 = .error .notFound) :
    Loses [p] t (t.attempt (t.removeFile p)).2 := by
  cases removed : t.removeFile p with
  | ok u =>
      obtain ⟨thins, lacks⟩ := removeFile_lacks removed
      refine ⟨thins, fun q there => ?_, fun place apart => removeFile_keeps removed apart⟩
      rw [List.mem_singleton.1 there]
      exact lacks
  | error kind =>
      rw [removed] at fine
      rcases fine with done | missing
      · exact nomatch done
      · cases missing
        refine ⟨.refl t, fun q there => ?_, fun _ _ => rfl⟩
        rw [List.mem_singleton.1 there]
        exact lacks_of_notFound removed

end FileTree

namespace Store.Files

open FileTree

/-- A way of removing what is at a path. -/
abbrev Remover := FileTree → Path → Except FileErrorKind Unit × FileTree

/-- What is lost when something is removed at some paths one after the other. -/
structure Removing (remove : Remover) (lost : List Path → FileTree → FileTree → Prop) : Prop where
  nothing : ∀ t, lost [] t t
  more : ∀ {paths more t u v}, lost paths t u → lost more u v → lost (paths ++ more) t v
  one : ∀ {t p}, (remove t p).1 = .ok () ∨ (remove t p).1 = .error .notFound →
    lost [p] t (remove t p).2

theorem removing_files : Removing (fun t p => t.attempt (t.removeFile p)) Loses :=
  ⟨loses_nil, Loses.trans, loses_removeFile⟩

/-- Removes what is at one path, and notes how that went. -/
def removeOne (remove : Remover) (results : List (Except StoreError String)) (t : FileTree)
    (p : Path) : List (Except StoreError String) × FileTree :=
  match remove t p with
  | (.ok (), t) => (results ++ [.ok p.text], t)
  | (.error .notFound, t) => (results ++ [.ok p.text], t)
  | (.error kind, t) => (results ++ [.error (fileError p.text kind)], t)

section

variable {remove : Remover} {lost : List Path → FileTree → FileTree → Prop}
  {results : List (Except StoreError String)} {t : FileTree}

theorem Removing.removeOne {p : Path} (h : Removing remove lost)
    (fine : ∀ e, .error e ∉ (Files.removeOne remove results t p).1) :
    lost [p] t (Files.removeOne remove results t p).2 ∧ ∀ e, .error e ∉ results := by
  have removed := h.one (t := t) (p := p)
  unfold Files.removeOne at *
  generalize remove t p = attempted at *
  rcases attempted with ⟨outcome, u⟩
  split at fine
  · rename_i same
    cases same
    exact ⟨removed (.inl rfl), fun e failed => fine e (List.mem_append_left _ failed)⟩
  · rename_i same
    cases same
    exact ⟨removed (.inr rfl), fun e failed => fine e (List.mem_append_left _ failed)⟩
  · exact absurd (List.mem_append_right _ (List.mem_singleton_self _)) (fine _)

theorem Removing.foldl {paths : List Path}
    {f : List (Except StoreError String) × FileTree → Path →
      List (Except StoreError String) × FileTree} (h : Removing remove lost)
    (one : ∀ results t p, f (results, t) p = Files.removeOne remove results t p)
    (fine : ∀ e, .error e ∉ (paths.foldl f (results, t)).1) :
    lost paths t (paths.foldl f (results, t)).2 ∧ ∀ e, .error e ∉ results := by
  induction paths generalizing results t with
  | nil => exact ⟨h.nothing t, fine⟩
  | cons p rest ih =>
      rw [List.foldl_cons, one] at fine ⊢
      obtain ⟨later, kept⟩ := ih fine
      obtain ⟨first, before⟩ := h.removeOne kept
      exact ⟨h.more first later, before⟩

/-- Where all removals succeed, all paths are done with. -/
theorem Removing.succeeds {paths : List Path} {s : Site Output} {ok : Unit → Site Output → Prop}
    (h : Removing remove lost)
    (ends : ∀ u : Site Output, lost paths s.environment.files u.environment.files → ok () u) :
    Succeeds (removeAll remove paths) ok s := by
  unfold removeAll access
  refine Succeeds.bind (succeeds_lift ?_)
  show Succeeds (if paths.isEmpty = true then _ else _) ok _
  split
  · exact Storing.succeeds_batch ok fun fine => ends _ (h.foldl (fun _ _ _ => rfl) fine).1
  · refine Succeeds.bind (succeeds_lift ?_)
    exact Storing.succeeds_batch ok fun fine => ends _ (h.foldl (fun _ _ _ => rfl) fine).1

end

/-- Only paths of listed keys are removed. -/
theorem mem_namePaths {o : Overlay} {resolver : Resolver} {name contentKey codeKey : String}
    {dir p : Path} (content : resolver.resolve name .content none none = .ok contentKey)
    (code : resolver.resolve name .code none none = .ok codeKey)
    (there : p ∈ Path.dedup (Path.sort ((contentKey :: codeKey :: o.contentKeys name ++
      o.codeKeys name).map fun key => dir.join (relativePath key)))) :
    ∃ key, (o.ListsContent resolver name key ∨ o.ListsCode resolver name key) ∧
      dir.join (relativePath key) = p := by
  obtain ⟨key, listed, as⟩ := List.mem_map.1 (Path.mem_sort.1 (Path.mem_of_mem_dedup there))
  exact ⟨key, (Overlay.mem_nameKeys content code).1 listed, as⟩

/-- An unregistration that succeeds has left nothing at the paths of the listed keys, and has
removed nothing else. Of the paths that have the same parts, one stands for all. -/
theorem succeeds_unregister (sources : Sources) (name : String) (token : Token) (s : Site Output)
    {dir : Path} (known : s.own.dir = some dir) :
    Succeeds ((files sources).unregister name token) (fun _ t =>
      (∀ key, s.overlay.ListsContent sources.resolver name key ∨
          s.overlay.ListsCode sources.resolver name key →
        ∃ p, p.same (dir.join (relativePath key)) = true ∧ t.environment.files.Lacks p) ∧
      ∀ place, (∀ key, s.overlay.ListsContent sources.resolver name key ∨
          s.overlay.ListsCode sources.resolver name key →
        ¬s.environment.files.Covers [dir.join (relativePath key)] place) →
        t.environment.files.entry? place = s.environment.files.entry? place) s := by
  refine Succeeds.bind (Storing.succeeds_gets ?_)
  refine Succeeds.bind (Storing.succeeds_modify ?_)
  refine Succeeds.bind (Storing.succeeds_naming fun contentKey content => ?_)
  refine Succeeds.bind (Storing.succeeds_naming fun codeKey code => ?_)
  refine Succeeds.bind (Storing.succeeds_gets ?_)
  dsimp only
  rw [known]
  refine Storing.succeeds_within (removing_files.succeeds fun t loses =>
    ⟨fun key listed => ?_, ?_⟩)
  · have listed' := List.mem_map_of_mem (f := fun key => dir.join (relativePath key))
      ((Overlay.mem_nameKeys content code).2 listed)
    obtain ⟨p, there, same⟩ := Path.exists_mem_dedup _ _ (Path.mem_sort.2 listed')
    exact ⟨p, same, loses.lacks p there⟩
  · intro place apart
    refine loses.kept place ?_
    rintro ⟨p, there, found⟩
    obtain ⟨key, listed, rfl⟩ := mem_namePaths content code there
    exact apart key listed ⟨_, List.mem_singleton_self _, found⟩

end Store.Files
end TemplateCache
