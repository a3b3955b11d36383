import TemplateCache.Files.Tree

/-!
# Walks over a tree of files

A walk visits what lies below a directory, each directory in front of what it holds and neighbours
in the order of their names. Names that start with a dot are passed over with all below them. Only
a link at the root is followed; other links count neither as files nor as directories.
-/

namespace TemplateCache

def isHidden (name : String) : Bool := name.toList.head? == some '.'

/-- What a walk found: the relative paths of directories, the paths of files, and failures by
path. -/
structure Walk where
  directories : List Path := []
  files : List Path := []
  failures : List (Path × FileError) := []

namespace Walk

def append (a b : Walk) : Walk :=
  ⟨a.directories ++ b.directories, a.files ++ b.files, a.failures ++ b.failures⟩

instance : Append Walk := ⟨append⟩

/-- A failure at the root ends the walk. -/
def failed (root : Path) (kind : FileErrorKind) : Walk :=
  { failures := [(root, ⟨kind, some root.text⟩)] }

/-- Visits the entries of a directory at some depth; `path` is how the walk came there, and `names`
are the names on the way from the root. -/
def visit (t : FileTree) : (depth : Nat) → Place → (path : Path) → (names : List String) → Walk
  | 0, _, _, _ => {}
  | depth + 1, place, path, names =>
    (t.children place).foldl (fun walk (name, entry) =>
      if isHidden name then walk
      else
        let here := path.join ⟨name⟩
        match entry with
        | .file _ => walk ++ { files := [here] }
        | .directory =>
          let names := names ++ [name]
          walk ++ { directories := [Path.ofNames names] } ++
            visit t depth (place ++ [name]) here names
        | .link _ => walk) {}

/-- The walk below a root. No directory is deeper than the number of entries. -/
def below (t : FileTree) (root : Path) : Walk :=
  match t.entryAt root false with
  | .error kind => failed root kind
  | .ok _ =>
    match t.entryAt root true with
    | .error kind => failed root kind
    | .ok (place, .directory) => visit t (t.entries.size + 1) place root []
    | .ok _ => {}

end Walk
end TemplateCache
