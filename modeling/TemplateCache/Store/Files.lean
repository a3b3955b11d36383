import TemplateCache.Digest.Blake3
import TemplateCache.Files.Walk
import TemplateCache.Store.Basic
import TemplateCache.Store.ModuleFormat

/-!
# Stores over files

Content is read from a source tree. Content and code that are written go to an output tree, which
can be laid out with the directories of the source tree. Where no output directory is set, a
temporary one is made when it is first needed.

A key leads to a place by its path part, of which only normal parts count, so that no place is
outside its tree; a query becomes a digest at the end of the file name in the output tree.
-/

namespace TemplateCache

structure FileStoreSettings where
  sourceDir : Path
  /-- Leading path that is taken off source files to form names. -/
  partialPrefix : String := "partials"
  outputDir : Option Path := none
  /-- Where temporary output directories are made. -/
  tempRoot : Option Path := none
  tempPrefix : String := "quill-"
  moduleFormat : ModuleFormat := .plain

namespace FileStoreSettings

open Json in
def decode : Decoder FileStoreSettings := fun room t => do
  let read ← Decoder.fields
    ["source_dir", "partial_prefix", "output_dir", "temp_root", "temp_prefix", "module_format"]
    room t
  let path : Decoder Path := fun room t => (Decoder.string room t).map Path.mk
  return {
    sourceDir := ← read.required "source_dir" path
    partialPrefix := ← read.withDefault "partial_prefix" Decoder.string "partials"
    outputDir := ← read.withDefault "output_dir" (Decoder.optional path) none
    tempRoot := ← read.withDefault "temp_root" (Decoder.optional path) none
    tempPrefix := ← read.withDefault "temp_prefix" Decoder.string "quill-"
    moduleFormat := ← read.withDefault "module_format" ModuleFormat.decode .plain }

/-- The fields in order, as text of a JSON object. -/
def text (c : FileStoreSettings) : String :=
  let path (p : Option Path) : Json.Value := p.elim .null fun p => .string p.text
  Json.Value.recordText [
    ("source_dir", .string c.sourceDir.text),
    ("partial_prefix", .string c.partialPrefix),
    ("output_dir", path c.outputDir),
    ("temp_root", path c.tempRoot),
    ("temp_prefix", .string c.tempPrefix),
    ("module_format", .string c.moduleFormat.name)]

/-- The directory for temporary files of the system, unless another one is set. -/
def tempParent (c : FileStoreSettings) : Path := c.tempRoot.getD ⟨"/tmp"⟩

end FileStoreSettings

/-- What a store remembers of its output tree. -/
structure Output where
  /-- The output directory, once it is known. -/
  dir : Option Path
  /-- Directories that are known to be there. -/
  made : List Path := []
  deriving Inhabited

/-- The directories of an output tree that stand for source directories, and the source files. -/
structure Layout where
  directories : List Path
  files : List Path

namespace Store

/-- The source tree of a store. -/
structure Sources where
  settings : FileStoreSettings
  resolver : Resolver
  /-- The source directory without links, for the paths of changed files. -/
  canonicalDir : Option Path

/-! ## Keys and paths -/

/-- The path that a key has in a tree: its normal parts and a digest of its query. -/
def relativePath (key : String) : Path :=
  let (location, query) := splitQuery key
  let path := Path.ofNames (Path.normalNames ⟨location⟩)
  match query with
  | none => path
  | some query =>
    let digest := String.ofList ((Blake3.hex query.toUTF8.toList).take 12)
    path.withFileName (path.fileName?.getD "" ++ "." ++ digest)

namespace Sources

/-- The source file of a content key. -/
def fileOf (s : Sources) (key : String) : Path :=
  let path : Path := ⟨(splitQuery key).1⟩
  if path.isAbsolute then path else s.settings.sourceDir.join (Path.ofNames path.normalNames)

/-- The path of a source file below the source directory. -/
def relative? (s : Sources) (path : Path) : Option Path :=
  (path.stripPrefix? s.settings.sourceDir).or (s.canonicalDir.bind path.stripPrefix?)

/-- The content key of a source file under a name. -/
def keyOf (s : Sources) (name : String) (path : Path) : Except NameError String :=
  s.resolver.resolveFile name .content (path.extension?.getD "") none

/-- The name of a source file: its relative path without prefix and extension. Hidden files have
none, nor has a file that is not at the place of its own key. -/
def nameOf (s : Sources) (path : Path) : Option String := do
  let relative ← s.relative? path
  guard (relative.parts.all fun part => part.normal?.any fun name => !isHidden name)
  let stripped := (relative.stripPrefix? ⟨s.settings.partialPrefix⟩).getD relative
  let name := "/".intercalate stripped.withoutExtension.normalNames
  guard !name.isEmpty
  let key ← (s.keyOf name path).toOption
  guard ((s.fileOf key).same (s.settings.sourceDir.join (Path.ofNames relative.normalNames)))
  return name

end Sources

/-! ## Access to files -/

namespace Files

def backend : String := "filesystem"

abbrev Filing (α : Type) := Storing Output α

def fileError (target : String) (kind : FileErrorKind) : StoreError :=
  .medium backend target (.io ⟨kind, none⟩)

/-- Works on the files at once. -/
def access {α : Type} (f : FileTree → α × FileTree) : Filing α :=
  Storing.always (Job.modifyGet fun s =>
    let (a, files) := f s.environment.files
    (a, { s with environment := { s.environment with files := files } }))

/-- Works on the files and lets other jobs work before the result is there. -/
def transfer {α : Type} (f : FileTree → α × FileTree) : Filing α := do
  let a ← access f
  Storing.always Job.yield
  return a

def output : Filing Output := Storing.gets (·.own)

def changeOutput (f : Output → Output) : Filing Unit :=
  Storing.modify fun s => { s with own := f s.own }

def remember (dir : Path) : Filing Unit :=
  changeOutput fun o => { o with made := o.made ++ [dir] }

/-- Reads text; what is not there is none. -/
def readText (path : Path) (target : String) : Filing (Option String) := do
  match ← transfer fun t => (t.readText path, t) with
  | .ok text => return some text
  | .error .notFound => return none
  | .error kind => throw (fileError target kind)

/-- The output directory. A temporary one is made if there is none yet. -/
def outputRoot (settings : FileStoreSettings) : Filing Path := do
  match (← output).dir with
  | some dir => return dir
  | none =>
    let parent := settings.tempParent
    let made : Except FileErrorKind Path ← access fun t =>
      match t.makeTempDir parent settings.tempPrefix with
      | .ok (dir, t) => (.ok dir, t)
      | .error kind => (.error kind, t)
    match made with
    | .error kind => throw (fileError parent.text kind)
    | .ok dir =>
      changeOutput fun o => { dir := some dir, made := o.made ++ [dir] }
      return dir

/-- Makes sure of a directory that is not known to be there. -/
def provideDir (dir : Path) : Filing Unit := do
  unless (← output).made.any (·.same dir) do
    match ← transfer fun t => t.makeDirs dir with
    | .error kind => throw (fileError dir.text kind)
    | .ok () => remember dir

/-- Writes text to a file in the output tree. -/
def writeText (path : Path) (target text : String) : Filing Unit := do
  match path.parent? with
  | none => pure ()
  | some dir => provideDir dir
  match ← transfer fun t => t.attempt (t.write path text.toUTF8.toList) with
  | .ok () => return ()
  | .error kind => throw (fileError target kind)

/-- Removes what is at each of some paths. What is not there need not be removed. -/
def removeAll (remove : FileTree → Path → Except FileErrorKind Unit × FileTree)
    (paths : List Path) : Filing Unit := do
  let results ← access fun t =>
    paths.foldl (fun (results, t) path =>
      match remove t path with
      | (.ok (), t) => (results ++ [.ok path.text], t)
      | (.error .notFound, t) => (results ++ [.ok path.text], t)
      | (.error kind, t) => (results ++ [.error (fileError path.text kind)], t)) ([], t)
  unless paths.isEmpty do Storing.always Job.yield
  Storing.batch results

/-! ## The source tree -/

def walk (s : Sources) : Filing Walk := transfer fun t => (Walk.below t s.settings.sourceDir, t)

def walkErrors (w : Walk) : List (Except StoreError String) :=
  w.failures.map fun (path, e) => .error (.medium backend path.text (.io e))

/-- Provides a directory in the output tree for each directory of the source tree. -/
def provideDirs (s : Sources) (relative : List Path) : Filing (List Path) := do
  let output ← outputRoot s.settings
  provideDir output
  let dirs ← relative.mapM fun path => do
    let dir := output.join path
    provideDir dir
    return dir
  return Path.sort dirs

/-- Lays out the output tree like the source tree. Directories that are known to be there are not
made again. -/
def layOut (s : Sources) (token : Token) : Filing Layout :=
  Storing.within token "filesystem mirror" do
    let found ← walk s
    let directories ← provideDirs s found.directories
    Storing.batch (walkErrors found)
    return ⟨directories, Path.sort found.files⟩

def readSource (s : Sources) (path : Path) (token : Token) : Filing (Option ContentRecord) := do
  match s.nameOf path with
  | none => return none
  | some name =>
    let source ← Storing.within token "filesystem load" do
      match ← transfer fun t => (t.status path, t) with
      | .ok (.file _) => readText path path.text
      | .ok _ => return none
      | .error .notFound => return none
      | .error kind => throw (fileError path.text kind)
    match source with
    | none => return none
    | some source =>
      match (s.relative? path).bind Path.parent? with
      | none => pure ()
      | some above =>
        unless above.text.isEmpty do
          provideDir ((← outputRoot s.settings).join above)
      let key ← Storing.naming (s.keyOf name path)
      let extension := path.extension?
      some <$> Storing.keepContent
        (.make name key (.ofSource source extension) .discovered extension none)

def scan (s : Sources) (token : Token) : Job (Site Output) Discovery := do
  let swept : Filing (Walk × List (Except StoreError (Option ContentRecord))) := do
    let found ← Storing.within token "filesystem scan" (walk s)
    let _ ← provideDirs s found.directories
    let loaded ← Storing.within token "filesystem scan"
      (Storing.always (found.files.mapM fun path => (readSource s path token).run))
    return (found, loaded)
  match ← swept.run with
  | .error e => return ⟨[], .error e⟩
  | .ok (walk, loaded) =>
    let found := (Batch.valuesOf loaded).filterMap id
    let keys := loaded.filterMap fun outcome =>
      match outcome with
      | .ok none => none
      | .ok (some record) => some (.ok record.key)
      | .error e => some (.error e)
    return ⟨found,
      ((Batch.collect (walkErrors walk ++ keys)).mapError .batch).map fun _ => found.length⟩

/-- The real directories in the parent of temporary directories that are named like one. -/
def tempDirs (settings : FileStoreSettings) : Filing (List Path) := do
  match ← transfer fun t => (t.list settings.tempParent, t) with
  | .error kind => throw (fileError settings.tempParent.text kind)
  | .ok found =>
    return found.filterMap fun (name, entry) =>
      if settings.tempPrefix.toList.isPrefixOf name.toList && entry == .directory then
        some (settings.tempParent.join ⟨name⟩)
      else none

end Files

/-! ## The store -/

open Files in
def files (s : Sources) : Store Output where
  backend := Files.backend
  resolver := s.resolver
  readContent address token := do
    let key ← Storing.naming (address.key s.resolver .content)
    match (← Storing.overlay).content.get? key with
    | some record => return some record
    | none =>
      let path := s.fileOf key
      Storing.within token "filesystem read" do
        match ← readText path key with
        | none => return none
        | some source =>
          let extension := path.extension?
          some <$> Storing.keepContent
            (.make address.name key (.ofSource source extension) .discovered extension
              address.params)
  writeContent address content token := do
    let key ← Storing.naming (address.key s.resolver .content)
    let path := (← outputRoot s.settings).join (relativePath key)
    Storing.within token "filesystem write" (writeText path key content.asText)
    Storing.keepContent (writtenRecord address key content)
  readCode address token := do
    let key ← Storing.naming (address.key s.resolver .code)
    match (← Storing.overlay).code.get? key with
    | some record => return some (.live record)
    | none =>
      match (← output).dir with
      | none => return none
      | some dir =>
        Storing.within token "filesystem read code" do
          let text ← readText (dir.join (relativePath key)) key
          return text.map fun text => .text key address.name (s.settings.moduleFormat.unwrap text)
  writeCode address renderer token := do
    let key ← Storing.naming (address.key s.resolver .code)
    match renderer.source with
    | none => pure ()
    | some source =>
      let path := (← outputRoot s.settings).join (relativePath key)
      Storing.within token "filesystem write code"
        (writeText path key (s.settings.moduleFormat.wrap source))
    Storing.keepCode ⟨key, address.name, renderer⟩
  unregister name token := do
    let before ← Storing.overlay
    Storing.changeOverlay (·.eraseName name)
    let contentKey ← Storing.naming (s.resolver.resolve name .content none none)
    let codeKey ← Storing.naming (s.resolver.resolve name .code none none)
    match (← output).dir with
    | none => return ()
    | some dir =>
      let keys := contentKey :: codeKey :: before.contentKeys name ++ before.codeKeys name
      let paths := keys.map fun key => dir.join (relativePath key)
      Storing.within token "filesystem unregister"
        (removeAll (fun t p => t.attempt (t.removeFile p)) (Path.dedup (Path.sort paths)))
  clear all token := do
    Storing.changeOverlay fun _ => ∅
    let current := (← output).dir.toList
    changeOutput fun _ => { dir := s.settings.outputDir }
    Storing.within token "filesystem clear" do
      let others ← if all then tempDirs s.settings else pure []
      removeAll FileTree.removeDir (Path.dedup (Path.sort (current ++ others)))
  scan := Files.scan s
  sourceTree := some s.settings.sourceDir
  nameOf := s.nameOf
  readSource := Files.readSource s

end TemplateCache.Store
