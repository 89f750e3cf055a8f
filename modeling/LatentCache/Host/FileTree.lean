import LatentCache.Text.Utf8

/-!
# File trees

Files and directories under absolute paths, with a working directory from which relative paths
start. Operations fail for the same causes as on a host.
-/

namespace LatentCache

inductive FileError where
  | notFound
  | alreadyExists
  | notDirectory
  | isDirectory
  | nameTooLong
  | nulInName
  | notText
deriving DecidableEq

def FileError.message : FileError → String
  | notFound => "No such file or directory (os error 2)"
  | alreadyExists => "File exists (os error 17)"
  | notDirectory => "Not a directory (os error 20)"
  | isDirectory => "Is a directory (os error 21)"
  | nameTooLong => "File name too long (os error 36)"
  | nulInName => "file name contained an unexpected NUL byte"
  | notText => "stream did not contain valid UTF-8"

/-- The names on the way from the root to a file or directory. -/
abbrev Location := List String

inductive Node where
  | directory
  | file (content : Bytes)
deriving DecidableEq

structure FileTree where
  workingDirectory : Location
  nodes : List (Location × Node)

/-- What a path text says: where it starts, its names, and whether it ends in a slash. -/
structure Path where
  absolute : Bool
  names : List String
  trailingSlash : Bool
deriving DecidableEq

namespace Path

def namesOf (cs : List Char) : List String :=
  ((cs.splitOn '/').filter (!·.isEmpty)).map String.ofList

def ofText (text : String) : Path :=
  { absolute := text.toList.head? == some '/'
    names := namesOf text.toList
    trailingSlash := text.toList.getLast? == some '/' }

/-- The path less its last name; names that stay where they are do not count. -/
def parent (p : Path) : Path :=
  let kept := p.names.zipIdx.filter fun (name, i) => name != "." || (i == 0 && !p.absolute)
  { absolute := p.absolute
    names := (kept.map (·.1)).dropLast
    trailingSlash := p.absolute && kept.length ≤ 1 }

def isEmpty (p : Path) : Bool := !p.absolute && p.names.isEmpty

end Path

namespace FileTree

/-- A tree with an empty working directory, which has no name that an absolute path could spell,
another one for temporary files, and the empty device. -/
def empty : FileTree :=
  { workingDirectory := [""]
    nodes := [([], .directory), ([""], .directory), (["tmp"], .directory),
      (["dev"], .directory), (["dev", "null"], .file [])] }

def node? (t : FileTree) (here : Location) : Option Node := t.nodes.lookup here

def setNode (t : FileTree) (here : Location) (node : Node) : FileTree :=
  { t with nodes := (here, node) :: t.nodes.filter (·.1 != here) }

def enter (t : FileTree) (here : Location) : List String → Except FileError Location
  | [] => .ok here
  | "." :: rest => t.enter here rest
  | ".." :: rest => t.enter here.dropLast rest
  | name :: rest =>
    if 255 < (Utf8.encode name.toList).length then .error .nameTooLong
    else
      match t.node? (here ++ [name]) with
      | none => .error .notFound
      | some (.file _) => .error .notDirectory
      | some .directory => t.enter (here ++ [name]) rest

/-- Where the last name of a path is looked up. -/
structure Target where
  folder : Location
  /-- Missing if the path denotes `folder` itself. -/
  name? : Option String

def Target.location (target : Target) : Location := target.folder ++ target.name?.toList

def target (t : FileTree) (p : Path) : Except FileError Target := do
  if p.isEmpty then throw .notFound
  let start := if p.absolute then [] else t.workingDirectory
  match p.names.getLast? with
  | none => return ⟨start, none⟩
  | some "." => return ⟨← t.enter start p.names, none⟩
  | some ".." => return ⟨← t.enter start p.names, none⟩
  | some name =>
    let folder ← t.enter start p.names.dropLast
    if 255 < (Utf8.encode name.toList).length then throw .nameTooLong
    return ⟨folder, some name⟩

def path? (text : String) : Except FileError Path :=
  if text.toList.contains '\x00' then .error .nulInName
  else if 4096 ≤ (Utf8.encode text.toList).length then .error .nameTooLong
  else .ok (Path.ofText text)

def read (t : FileTree) (text : String) : Except FileError Bytes := do
  let p ← path? text
  let target ← t.target p
  match t.node? target.location with
  | none => throw .notFound
  | some .directory => throw .isDirectory
  | some (.file content) => if p.trailingSlash then throw .notDirectory else return content

def readText (t : FileTree) (text : String) : Except FileError (List Char) := do
  match Utf8.decode? (← t.read text) with
  | none => throw .notText
  | some cs => return cs

def create (t : FileTree) (text : String) : Except FileError FileTree := do
  let p ← path? text
  let target ← t.target p
  if p.trailingSlash then throw .isDirectory
  match t.node? target.location with
  | some .directory => throw .isDirectory
  | _ => return t.setNode target.location (.file [])

def write (t : FileTree) (text : String) (content : Bytes) : Except FileError FileTree := do
  let t ← t.create text
  let target ← t.target (Path.ofText text)
  return t.setNode target.location (.file content)

def isDirectory (t : FileTree) (p : Path) : Bool :=
  match t.target p with
  | .error _ => false
  | .ok target => t.node? target.location == some .directory

def makeDirectory (t : FileTree) (p : Path) : Except FileError FileTree := do
  let target ← t.target p
  match t.node? target.location with
  | some _ => throw .alreadyExists
  | none => return t.setNode target.location .directory

/-- Makes one directory; one that is there already will do. -/
def ensureDirectory (t : FileTree) (p : Path) : Except FileError FileTree :=
  match t.makeDirectory p with
  | .ok t => .ok t
  | .error e => if t.isDirectory p then .ok t else .error e

/-- Work on a tree that may fail half-way; what was done before the failure stays done. -/
abbrev Work (α : Type) := ExceptT FileError (StateM FileTree) α

/-- A single step, which leaves the tree alone where it fails. -/
def step (change : FileTree → Except FileError FileTree) : Work Unit := do
  set (← change (← get))

/-- Makes a directory and those above it, at most `fuel` levels of them. -/
def ensureDirectories : (fuel : Nat) → Path → Work Unit
  | 0, _ => return
  | fuel + 1, p => do
    if p.isEmpty then return
    match (← get).makeDirectory p with
    | .error .notFound => ensureDirectories fuel p.parent
    | _ => pure ()
    step (·.ensureDirectory p)

/-- Makes a directory and those above it that are missing; no directory has the empty name. -/
def makeDirectories (text : String) : Work Unit := do
  if text.isEmpty then return
  let p ← path? text
  ensureDirectories (p.names.length + 1) p

def touch (t : FileTree) (location : Location) : Except FileError FileTree :=
  match t.node? location with
  | some .directory => .error .isDirectory
  | some (.file _) => .ok t
  | none => .ok (t.setNode location (.file []))

def directory (t : FileTree) (text : String) : Except FileError Location := do
  let target ← t.target (← path? text)
  match t.node? target.location with
  | none => throw .notFound
  | some (.file _) => throw .notDirectory
  | some .directory => return target.location

end FileTree

end LatentCache
