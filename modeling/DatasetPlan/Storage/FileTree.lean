import DatasetPlan.Storage.Disk
import DatasetPlan.Storage.PathName

/-! File trees: a disk as a value. Every operation gives the tree as it is afterwards. -/

namespace DatasetPlan

namespace FileTree

/-- The names that lead from the root to a file or a directory. -/
abbrev Place := List String

inductive Node where
  | directory
  | file (content : ByteArray)

end FileTree

/-- The root needs no entry: it is always a directory. -/
structure FileTree where
  entries : List (FileTree.Place × FileTree.Node)
  /-- The directory in which relative paths begin. -/
  workplace : FileTree.Place

namespace FileTree

def empty : FileTree :=
  ⟨[], []⟩

def node? (t : FileTree) : Place → Option Node
  | [] => some .directory
  | place => t.entries.lookup place

def remove (t : FileTree) (place : Place) : FileTree :=
  { t with entries := t.entries.filter (·.1 ≠ place) }

def put (t : FileTree) (place : Place) (node : Node) : FileTree :=
  { t with entries := (place, node) :: (t.remove place).entries }

def longestName : Nat := 255
def longestPath : Nat := 4095

def checkName (name : String) : Except FileError Unit :=
  if longestName < name.utf8ByteSize then throw .nameTooLong else pure ()

def descend (t : FileTree) (place : Place) (name : String) : Except FileError Place := do
  if name = "." then pure place
  else if name = ".." then pure place.dropLast
  else
    checkName name
    match t.node? (place ++ [name]) with
    | some .directory => pure (place ++ [name])
    | some (.file _) => throw .notDirectory
    | none => throw .notFound

/-- What a path leads to, before it is known whether there is anything. -/
inductive Target where
  | passed (place : Place)
  /-- What has this place, or would have it. After a separator at the end of the path it has to be
  a directory. -/
  | named (place : Place) (asDirectory : Bool)

def names (path : String) : List String :=
  ((Text.pieces PathName.separator path.toList).filter (!·.isEmpty)).map String.ofList

def locate (t : FileTree) (path : String) : Except FileError Target := do
  if path.contains '\x00' then throw .nullCharacter
  if path.isEmpty then throw .notFound
  if longestPath < path.utf8ByteSize then throw .nameTooLong
  let start := if PathName.isAbsolute path then [] else t.workplace
  match (names path).getLast? with
  | none => pure (.passed start)
  | some last =>
      let place ← (names path).dropLast.foldlM t.descend start
      if last = "." ∨ last = ".." then .passed <$> t.descend place last
      else
        checkName last
        pure (.named (place ++ [last]) (PathName.endsInSeparator path))

def nodeAt (t : FileTree) (path : String) : Except FileError Node := do
  match ← t.locate path with
  | .passed _ => pure .directory
  | .named place asDirectory =>
      match t.node? place, asDirectory with
      | none, _ => throw .notFound
      | some (.file _), true => throw .notDirectory
      | some node, _ => pure node

def isPresent (t : FileTree) (path : String) : Bool :=
  (t.nodeAt path).isOk

def isDirectory (t : FileTree) (path : String) : Bool :=
  match t.nodeAt path with
  | .ok .directory => true
  | _ => false

def readText (t : FileTree) (path : String) : Except FileError String := do
  match ← t.nodeAt path with
  | .directory => throw .isDirectory
  | .file content =>
      match String.fromUTF8? content with
      | some text => pure text
      | none => throw .notText

def write (t : FileTree) (path : String) (content : ByteArray) : Except FileError FileTree := do
  match ← t.locate path with
  | .passed _ | .named _ true => throw .isDirectory
  | .named place false =>
      match t.node? place with
      | some .directory => throw .isDirectory
      | _ => pure (t.put place (.file content))

def createDirectory (t : FileTree) (path : String) : Except FileError FileTree := do
  match ← t.locate path with
  | .passed _ => throw .alreadyExists
  | .named place _ =>
      match t.node? place with
      | some _ => throw .alreadyExists
      | none => pure (t.put place .directory)

/-- That the directory is there already is as good as making it. -/
def ensureDirectory (t : FileTree) (path : String) : Except FileError FileTree :=
  match t.createDirectory path with
  | .ok made => pure made
  | .error e => if t.isDirectory path then pure t else throw e

/-- Makes the first of the directories; each one stands in the next one, which is made before it
if it is missing. -/
def createInnermost (t : FileTree) : List String → Except FileError Unit × FileTree
  | [] => (pure (), t)
  | path :: outer =>
      match t.ensureDirectory path with
      | .ok made => (pure (), made)
      | .error .notFound =>
          match t.createInnermost outer with
          | (.error e, made) => (throw e, made)
          | (.ok (), made) =>
              match made.ensureDirectory path with
              | .ok whole => (pure (), whole)
              | .error e => (throw e, made)
      | .error e => (throw e, t)

def createDirectories (t : FileTree) (path : String) : Except FileError Unit × FileTree :=
  t.createInnermost (PathName.upwards path)

/-- Directories are not renamed, nor replaced. -/
def rename (t : FileTree) (source target : String) : Except FileError FileTree := do
  match ← t.locate source, ← t.locate target with
  | .named source sourceAsDirectory, .named target targetAsDirectory =>
      match t.node? source with
      | none => throw .notFound
      | some .directory => throw .isDirectory
      | some (.file content) =>
          if sourceAsDirectory || targetAsDirectory then throw .notDirectory
          match t.node? target with
          | some .directory => throw .isDirectory
          | _ => pure ((t.remove source).put target (.file content))
  | _, _ => throw .busy

def update (change : FileTree → Except FileError FileTree) :
    StateM FileTree (Except FileError Unit) :=
  fun t =>
    match change t with
    | .ok changed => (pure (), changed)
    | .error e => (throw e, t)

def disk : Disk (StateM FileTree) where
  isPresent path t := (t.isPresent path, t)
  readText path t := (t.readText path, t)
  createDirectories path t := t.createDirectories path
  write path text := update (·.write path text.toUTF8)
  rename source target := update (·.rename source target)

end FileTree

end DatasetPlan
