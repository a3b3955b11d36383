import TemplateCache.Proofs.Files.Nested
import TemplateCache.Proofs.Store.Confinement

/-!
# Mirrors that are repeated

A mirror lays out the output tree with the directories of the source tree. When it is repeated it
knows them all, so it makes none and reports the same, unless it has made a directory that belongs
to the source tree itself: then the next mirror finds one more.
-/

namespace TemplateCache

open Job

/-! ## Prompt jobs -/

namespace Job

variable {σ α β ε : Type} [Clocked σ] {s : σ}

theorem Prompt.alone {ok : α → σ → Prop} {job : Job σ α} (h : job.Prompt ok s) :
    job.Alone ok s := by
  induction job generalizing s with
  | done x => exact h
  | act update next ih => exact ih s h.2
  | wait event next => exact h.elim
  | pause next ih => exact ih h

/-- Operations one after the other that leave the state as it is. -/
theorem Prompt.mapM_still {f : α → ExceptT ε (Job σ) β} {g : α → β} {l : List α}
    (each : ∀ x ∈ l, (f x).run.Prompt (fun r t => t = s ∧ r = .ok (g x)) s) :
    (l.mapM f).run.Prompt (fun r t => t = s ∧ r = .ok (l.map g)) s := by
  -- The loop collects the values in `made`, in reverse.
  suffices loop : ∀ (rest : List α) (made : List β), (∀ x ∈ rest, x ∈ l) →
      (List.mapM.loop f rest made).run.Prompt
        (fun r t => t = s ∧ r = .ok (made.reverse ++ rest.map g)) s from loop l [] fun _ => id
  intro rest
  induction rest with
  | nil => exact fun made _ => ⟨rfl, congrArg Except.ok (List.append_nil _).symm⟩
  | cons x rest ih =>
      intro made among
      obtain ⟨here, later⟩ := List.forall_mem_cons.1 among
      refine Prompt.bindExcept ((each x here).mono ?_)
      rintro _ t ⟨rfl, rfl⟩
      refine (ih (g x :: made) later).mono ?_
      rintro r u ⟨same, value⟩
      rw [List.reverse_cons, List.append_assoc] at value
      exact ⟨same, value⟩

end Job

namespace Store.Files

open FileTree

variable {s : Sources} {token : Token} {site t u : Site Output} {layout : Layout}
  {relative dirs : List Path} {out : Path}

/-! ## One mirror -/

/-- What a mirror reports of a source tree. -/
structure Reports (s : Sources) (t : FileTree) (layout : Layout) (u : Site Output) : Prop where
  walks : (Walk.below t s.settings.sourceDir).failures = []
  files : layout.files = Path.sort (Walk.below t s.settings.sourceDir).files
  lays : ∃ out, Lays (Walk.below t s.settings.sourceDir).directories layout.directories out u

theorem prompt_walk_alone (s : Sources) (site : Site Output) :
    (walk s).run.Prompt (fun r u => u = site ∧
      r = .ok (Walk.below site.environment.files s.settings.sourceDir)) site :=
  prompt_transfer ⟨rfl, rfl⟩

/-- A mirror that succeeds has walked the source tree and knows the directories that it reports. -/
theorem succeeds_layOut (s : Sources) (token : Token) (site : Site Output) :
    Succeeds (layOut s token) (fun layout u =>
      site.environment.files.Extends u.environment.files ∧
        Reports s site.environment.files layout u) site := by
  refine Storing.succeeds_within (Succeeds.bind ?_)
  refine (prompt_walk_alone s site).alone.mono ?_
  rintro r u ⟨rfl, rfl⟩ found ⟨⟩
  refine Succeeds.bind ((prompt_provideDirs s _).alone.mono ?_)
  rintro r v ⟨grown, provided⟩ dirs same
  refine Succeeds.bind (Storing.succeeds_batch _ fun fine => ?_)
  refine succeeds_pure ⟨grown, ?_, rfl, provided dirs same⟩
  refine List.eq_nil_iff_forall_not_mem.2 fun failure there => ?_
  exact fine _ (List.mem_map_of_mem there)

theorem prompt_provideDirs_known (lays : Lays relative dirs out u) :
    (provideDirs s relative).run.Prompt (fun r v => v = u ∧ r = .ok dirs) u := by
  refine Prompt.bindExcept ((prompt_outputRoot_known s.settings lays.dir).mono ?_)
  rintro _ v ⟨rfl, rfl⟩
  refine Prompt.bindExcept ((prompt_provideDir_known lays.root).mono ?_)
  rintro _ w ⟨rfl, rfl⟩
  refine Prompt.bindExcept ((Prompt.mapM_still (g := out.join) fun path there => ?_).mono ?_)
  · refine Prompt.bindExcept ((prompt_provideDir_known (lays.known path there)).mono ?_)
    rintro _ x ⟨rfl, rfl⟩
    exact ⟨rfl, rfl⟩
  · rintro _ x ⟨rfl, rfl⟩
    exact ⟨rfl, congrArg Except.ok lays.listed.symm⟩

/-- Where the directories are known, a mirror makes none. -/
theorem prompt_layOut_known (lets : Lets token u)
    (reports : Reports s u.environment.files layout u) :
    (layOut s token).run.Prompt (fun r v => v = u ∧ r = .ok layout) u := by
  obtain ⟨walks, files, out, lays⟩ := reports
  refine Prompt.within lets (Prompt.bindExcept ((prompt_walk_alone s u).mono ?_))
  rintro _ v ⟨rfl, rfl⟩
  refine Prompt.bindExcept ((prompt_provideDirs_known lays).mono ?_)
  rintro _ w ⟨rfl, rfl⟩
  have fine : (Storing.batch (walkErrors (Walk.below w.environment.files s.settings.sourceDir)) :
      Filing Unit).run = .done (.ok ()) := by
    unfold walkErrors
    rw [walks]
    rfl
  refine Prompt.bindExcept ?_
  rw [fine]
  exact ⟨rfl, by rw [← files]⟩

/-! ## Mirrors one after the other -/

/-- A mirror has made a directory that a walk of the source tree enters. -/
def Enlarges (s : Sources) (t u : FileTree) : Prop :=
  ∃ place names, t.entryAt s.settings.sourceDir true = .ok (place, .directory) ∧
    u.Nests place names ∧ ¬t.Nests place names

/-- A mirror that does not make a directory in the source tree finds the same the next time. -/
theorem Reports.again (reports : Reports s t.environment.files layout u)
    (grown : t.environment.files.Extends u.environment.files)
    (none : ¬Enlarges s t.environment.files u.environment.files) :
    Reports s u.environment.files layout u := by
  have same : Walk.below u.environment.files s.settings.sourceDir =
      Walk.below t.environment.files s.settings.sourceDir := by
    refine Walk.below_congr grown (Walk.root_of_failures reports.walks) ?_
    intro place found names nests
    by_contra new
    exact none ⟨place, names, found, nests, new⟩
  obtain ⟨walks, files, lays⟩ := reports
  rw [← same] at walks files lays
  exact ⟨walks, files, lays⟩

/-- A directory that a mirror makes in the source tree is one of those that the next one reports. -/
theorem Reports.more {layout' : Layout} {v : Site Output}
    (reports : Reports s t.environment.files layout u)
    (reports' : Reports s u.environment.files layout' v)
    (dir : ∀ out, u.own.dir = some out → v.own.dir = some out)
    (grown : t.environment.files.Extends u.environment.files)
    (enlarges : Enlarges s t.environment.files u.environment.files) :
    layout'.directories ≠ layout.directories := by
  intro same
  obtain ⟨place, names, found, nests, new⟩ := enlarges
  obtain ⟨out, lays⟩ := reports.lays
  obtain ⟨out', lays'⟩ := reports'.lays
  cases (dir out lays.dir).symm.trans lays'.dir
  have many : names ≠ [] := by
    rintro rfl
    exact new .here
  -- The next walk finds the new directory, which the first one cannot have reported.
  have later : out.join (Path.ofNames names) ∈ layout'.directories := by
    rw [lays'.listed, Path.mem_sort]
    exact List.mem_map_of_mem ((Walk.mem_directories_below_iff
      (entryAt_of_thins grown.thins found).1).2 ⟨names, many, nests, rfl⟩)
  rw [same, lays.listed, Path.mem_sort] at later
  obtain ⟨path, before, joined⟩ := List.mem_map.1 later
  obtain ⟨names', -, nests', rfl⟩ := (Walk.mem_directories_below_iff found).1 before
  have alike : (out.join (Path.ofNames names')).same (out.join (Path.ofNames names)) = true := by
    rw [joined]
    exact Path.same_refl _
  exact new (Path.join_injective nests'.proper nests.proper alike ▸ nests')

/-! ## Output trees that are apart -/

/-- A path that leads within the output directory, or on the way to it, leads below the source
directory. -/
def Meets (s : Sources) (t u : FileTree) (out : Path) : Prop :=
  ∃ place names, t.entryAt s.settings.sourceDir true = .ok (place, .directory) ∧ names ≠ [] ∧
    (u.Inside out (place ++ names) ∨ u.Toward out (place ++ names))

/-- The paths of the directories that a walk finds are made of names. -/
theorem proper_directories {t : FileTree} {root p : Path}
    (there : p ∈ (Walk.below t root).directories) :
    ∃ names, Place.Proper names ∧ p = Path.ofNames names := by
  cases found : t.entryAt root true with
  | error kind =>
      unfold Walk.below at there
      rw [found] at there
      split at there <;> exact absurd there List.not_mem_nil
  | ok reached =>
      obtain ⟨place, e⟩ := reached
      cases e with
      | directory =>
          obtain ⟨names, -, nests, same⟩ := (Walk.mem_directories_below_iff found).1 there
          exact ⟨names, nests.proper, same⟩
      | _ =>
          unfold Walk.below at there
          rw [found] at there
          split at there <;> exact absurd there List.not_mem_nil

theorem staying_provideEach (named : ∀ path ∈ relative, ∃ names, Place.Proper names ∧
    path = Path.ofNames names) : Staying out (do
      provideDir out
      let dirs ← relative.mapM fun path => do
        let dir := out.join path
        provideDir dir
        return dir
      return Path.sort dirs : Filing (List Path)) := by
  refine ⟨fun u => Safely.bindExcept ?_⟩
  refine ((staying_provideDir (.inl (List.prefix_refl _))).safely u).mono id ?_
  rintro (e | _) v stays
  · exact stays
  refine Safely.bindExcept ((Safely.kept stays (Safely.mapMExcept (fun path there w holds => ?_)
    stays)).mono id ?_)
  · obtain ⟨names, proper, rfl⟩ := named path there
    have along := Path.along_of_within (Path.within_join out proper) (List.prefix_refl _)
    refine Safely.bindExcept (((staying_provideDir along).safely w).mono holds.trans ?_)
    rintro (e | _) x - <;> trivial
  · rintro (e | dirs) w ⟨holds, -⟩ <;> exact holds

/-- What a mirror makes is within the output directory, or on the way to it. -/
theorem stays_layOut (s : Sources) (token : Token) (site : Site Output) :
    (layOut s token).run.Safely (Stays (writeDir s.settings site) site)
      (fun _ t => Stays (writeDir s.settings site) site t) site := by
  refine Safely.within (.refl _ site) (fun _ _ stays _ => stays) ?_
  refine Safely.bindExcept (safely_transfer (.refl _ site) ?_)
  refine Safely.bindExcept (Safely.bindExcept ((stays_outputRoot s.settings site).mono id ?_))
  rintro (e | out) u ⟨stays, same⟩
  · exact stays
  cases same out rfl
  refine ((staying_provideEach fun path => proper_directories).safely u).mono stays.trans ?_
  intro r v later
  replace later : Stays _ site v := stays.trans later
  rcases r with e | dirs
  · exact later
  refine Safely.bindExcept ?_
  unfold Storing.batch Storing.ofExcept
  generalize Except.map _ _ = outcome
  cases outcome with
  | error e => exact later
  | ok _ => exact later

/-- Where the output directory and the way to it are apart from the source directory, no directory
is made there. -/
theorem not_enlarges_of_apart (stays : Stays out site t)
    (apart : ¬Meets s site.environment.files t.environment.files out) :
    ¬Enlarges s site.environment.files t.environment.files := by
  rintro ⟨place, names, found, nests, new⟩
  refine new (nests.transfer fun below many named there => ?_)
  have proper : Place.Proper (place ++ below) := fun n among =>
    (List.mem_append.1 among).elim ((entryAt_proper found).1 n) (named n)
  rcases stays.confined _ proper with same | within | ⟨toward, -, -⟩
  · rw [← same, there]
  · exact absurd ⟨place, below, found, many, .inl within⟩ apart
  · exact absurd ⟨place, below, found, many, .inr toward⟩ apart

/-- A mirror that has succeeded is repeated. Unless it has made a directory in the source tree, all
further mirrors report the same and change nothing. If it has made one, the next mirror that
succeeds reports other directories. It makes none there if no path within the output directory or
on the way to it leads below the source directory. -/
theorem repeated_mirrors_change_nothing (s : Sources) (token : Token) (site t : Site Output)
    (layout : Layout) (ends : (layOut s token).run.finish site = some (.ok layout, t)) :
    (¬Enlarges s site.environment.files t.environment.files →
      ∀ tokens : List Token, (∀ token' ∈ tokens, Lets token' t) →
        (tokens.mapM (layOut s)).run.finish t = some (.ok (tokens.map fun _ => layout), t)) ∧
    (Enlarges s site.environment.files t.environment.files →
      ∀ token' layout' t', (layOut s token').run.finish t = some (.ok layout', t') →
        layout'.directories ≠ layout.directories) ∧
    (¬Meets s site.environment.files t.environment.files (writeDir s.settings site) →
      ¬Enlarges s site.environment.files t.environment.files) := by
  obtain ⟨grown, reports⟩ := (succeeds_layOut s token site).finish ends
  refine ⟨fun none tokens lets => ?_, fun enlarges token' layout' t' ends' => ?_, fun apart => ?_⟩
  · have again := reports.again grown none
    obtain ⟨r, u, ends, rfl, rfl⟩ := (Prompt.mapM_still (g := fun _ => layout) fun token' there =>
      prompt_layOut_known (lets token' there) again).ends
    exact ends
  · obtain ⟨-, reports'⟩ := (succeeds_layOut s token' t).finish ends'
    have kept := (building_layOut t).finish ends'
    exact reports.more reports' kept.dir grown enlarges
  · exact not_enlarges_of_apart ((stays_layOut s token site).finish ends) apart

end Store.Files

namespace Store

namespace Sample

/-- The order of paths, in a form that can be evaluated where there is at most one. -/
def arranged : List Path → List Path
  | [] => []
  | [p] => [p]
  | paths => Path.sort paths

theorem sort_eq_arranged (paths : List Path) : Path.sort paths = arranged paths := by
  rcases paths with _ | ⟨p, _ | ⟨q, rest⟩⟩
  · simp [Path.sort, arranged]
  · simp [Path.sort, arranged]
  · rfl

def press (out : String) : Sources :=
  ⟨{ sourceDir := ⟨"/in"⟩, outputDir := some ⟨out⟩ }, ⟨.standard, none⟩, none⟩

/-- A source tree with a directory that has a file. -/
def folio : FileTree where
  entries := .ofPairs [("/in", .directory), ("/in/partials", .directory),
    ("/in/partials/a.html", .file [])]

def printer (out : String) : Site Output where
  own := { dir := some ⟨out⟩ }
  environment := { files := folio }

end Sample

open FileTree Files Store.Sample

theorem lets_of_live {t : Site Output} (live : t.environment.clock.cancelled = []) (n : Nat) :
    Lets ⟨[n], none⟩ t where
  live := by
    show [n].any t.environment.clock.cancelled.contains = false
    simp [live]
  lasts := rfl

/-- The source directory is as it was after the output directory has been made. -/
theorem not_enlarges_folio {u : FileTree} (made : u.entries =
    (folio.entries.insert "/out" .directory).insert "/out/partials" .directory) :
    ¬Enlarges (press "/out") folio u := by
  rintro ⟨place, names, found, nests, new⟩
  have here : folio.entryAt ⟨"/in"⟩ true = .ok (["in"], .directory) := by decide +kernel
  cases here.symm.trans found
  refine new (nests.transfer fun below _ _ there => ?_)
  have other (text : String) (outside : text.toList.take 2 = ['/', 'o']) :
      Place.text (["in"] ++ below) ≠ text := by
    rintro rfl
    cases below with
    | nil => exact absurd outside (by decide)
    | cons name rest => simp [Place.text, String.intercalate_cons_cons] at outside
  replace there : u.entries.get? (Place.text (["in"] ++ below)) = some .directory := there
  rw [made, KeyMap.get?_insert, if_neg (other _ (by decide)), KeyMap.get?_insert,
    if_neg (other _ (by decide))] at there
  exact there

/-- A directory next to the source directory is laid out once. -/
theorem separate_mirror_is_repeated :
    ∃ layout t, (layOut (press "/out") ⟨[0], none⟩).run.finish (printer "/out") =
        some (.ok layout, t) ∧ layout.directories = [⟨"/out/partials"⟩] ∧
      ([⟨[1], none⟩, ⟨[2], none⟩].mapM (layOut (press "/out"))).run.finish t =
        some (.ok [layout, layout], t) := by
  have ends : ((layOut (press "/out") ⟨[0], none⟩).run.finish (printer "/out")).map (fun (r, t) =>
      (r.toOption.map Layout.directories, t.environment.files.entries,
        t.environment.clock.cancelled)) = some (some [⟨"/out/partials"⟩],
          (folio.entries.insert "/out" .directory).insert "/out/partials" .directory, []) := by
    unfold layOut walk provideDirs
    simp only [Walk.below_eq_explore, sort_eq_arranged]
    decide +kernel
  obtain ⟨⟨r, t⟩, ends, same⟩ := Option.map_eq_some_iff.1 ends
  cases r with
  | error e => exact nomatch same
  | ok layout =>
      simp only [Except.toOption, Option.map_some, Prod.mk.injEq, Option.some.injEq] at same
      obtain ⟨directories, made, live⟩ := same
      have repeated := repeated_mirrors_change_nothing (press "/out") ⟨[0], none⟩ _ t layout ends
      refine ⟨layout, t, ends, directories, repeated.1 (not_enlarges_folio made) _ ?_⟩
      simp [lets_of_live live]

/-- An output directory in the source directory is laid out in itself by the next mirror. -/
theorem inner_mirror_grows :
    ¬∀ (s : Sources) (token token' : Token) (site t : Site Output) (layout : Layout),
      site.environment.files.Closed → (layOut s token).run.finish site = some (.ok layout, t) →
        Lets token' t → ∃ t', (layOut s token').run.finish t = some (.ok layout, t') ∧
          ∀ place, t'.environment.files.entry? place = t.environment.files.entry? place := by
  intro all
  have ends : ((layOut (press "/in/out") ⟨[0], none⟩).run.finish (printer "/in/out")).map
      (fun (r, t) => (r.toOption.isSome, t.environment.files.entry? ["in", "out"],
        t.environment.clock.cancelled)) = some (true, some .directory, []) := by
    unfold layOut walk provideDirs
    simp only [Walk.below_eq_explore, sort_eq_arranged]
    decide +kernel
  obtain ⟨⟨r, t⟩, ends, same⟩ := Option.map_eq_some_iff.1 ends
  cases r with
  | error e => exact nomatch same
  | ok layout =>
      simp only [Prod.mk.injEq] at same
      obtain ⟨-, inner, live⟩ := same
      obtain ⟨grown, reports⟩ := (succeeds_layOut _ _ _).finish ends
      obtain ⟨t', again, -⟩ := all (press "/in/out") ⟨[0], none⟩ ⟨[1], none⟩ (printer "/in/out") t
        layout (FileTree.closed_of_entries (by decide +kernel)) ends (lets_of_live live 1)
      obtain ⟨-, reports'⟩ := (succeeds_layOut _ _ _).finish again
      have kept := (building_layOut t).finish again
      refine reports.more reports' kept.dir grown ⟨["in"], ["out"], ?_, ?_, ?_⟩ rfl
      · decide +kernel
      · exact .inside (by decide) (by decide) inner .here
      · intro before
        cases before with
        | inside _ _ there _ => exact absurd there (by decide +kernel)

end Store
end TemplateCache
