import LatentCache.Host.Basic
import LatentCache.Settings.Basic

/-!
# Opening storage

Opening storage as chosen by settings gives a backend, through which the host serves as a medium.
-/

namespace LatentCache

inductive Backend where
  | memory (index : Nat)
  | mapped (path : String) (location : Location)
  | service (client : Client)
deriving DecidableEq

namespace Backend

def kind : Backend → BackendKind
  | memory _ => .memory
  | mapped _ _ => .mapped
  | service client => client.kind

def medium : Backend → Medium Host
  | memory index => Memory.medium.within (·.memory index) fun t h => h.setMemory index t
  | mapped _ location =>
    MappedEnvironment.medium.within (·.environment location) fun env h =>
      h.setEnvironment location env
  | service client => client.medium.within (·.link) fun link h => { h with link := link }

def openMemory (h : Host) : Backend × Host :=
  (memory h.memories.length, { h with memories := h.memories ++ [.empty] })

def environmentInUse : String := "an environment is already opened with different options"

def noRoom : String := "Cannot allocate memory (os error 12)"

def foreignFile : String := "MDB_INVALID: File is not an LMDB file"

/-- The directory of an environment, made with the files in it where they are missing. -/
def prepareDirectory (path : String) : FileTree.Work Location := do
  FileTree.makeDirectories path
  let location ← (← get).directory path
  FileTree.step (·.touch (location ++ ["lock.mdb"]))
  FileTree.step (·.touch (location ++ ["data.mdb"]))
  return location

def obstacle? (location : Location) (mapSize : Nat) (files : FileTree) : Option String :=
  match files.node? (location ++ ["data.mdb"]) with
  | some (.file (_ :: _)) => some foreignFile
  | _ => if MappedEnvironment.greatestMapSize < mapSize then some noRoom else none

def unavailableAt (path reason : String) : StorageError := .unavailable (path ++ ": " ++ reason)

/-- Opens the environment of a directory with a map of full granules. An environment that is open is
shared, if it is asked for with the same map size. -/
def openRounded (path : String) (mapSize : Nat) (h : Host) : Except StorageError Backend × Host :=
  let refuse (reason : String) : Except StorageError Backend := .error (unavailableAt path reason)
  let (prepared, files) := prepareDirectory path h.files
  let h := { h with files := files }
  match prepared with
  | .error e => (refuse e.message, h)
  | .ok location =>
    match h.environments.lookup location, obstacle? location mapSize files with
    | some env, _ =>
      (if env.mapSize = mapSize then .ok (mapped path location) else refuse environmentInUse, h)
    | none, some reason => (refuse reason, h)
    | none, none =>
      (.ok (mapped path location),
        { h with environments := h.environments ++ [(location, .new mapSize)] })

/-- Opens the environment of a directory with a map of the size that rounding gave. Where it gave
none, only the directories are made before the program ends. -/
def openOrEnd (path : String) (h : Host) :
    Except Size.Overflow Nat → Except Size.Overflow (Except StorageError Backend) × Host
  | .ok mapSize => (openRounded path mapSize h).map .ok id
  | .error o =>
    match FileTree.makeDirectories path h.files with
    | (.error e, files) => (.ok (.error (unavailableAt path e.message)), { h with files := files })
    | (.ok (), files) => (.error o, { h with files := files })

def openEnvironment (s : MappedSettings) (h : Host) :
    Except Size.Overflow (Except StorageError Backend) × Host :=
  openOrEnd s.path h (roundMapSize s.mapSize)

/-- What a task of its own answers. Where it ends the program, this is no more than a failure to open
storage; the text leaves out the number of the task. -/
def ofTask : Except Size.Overflow (Except StorageError Backend) → Except StorageError Backend
  | .ok answer => answer
  | .error o => .error (.unavailable ("task panicked with message " ++ Text.quote o.message))

def openMapped (s : MappedSettings) (h : Host) : Except StorageError Backend × Host :=
  (openEnvironment s h).map ofTask id

def openService (client : Client) (url : String) (h : Host) :
    Except StorageError Backend × Host :=
  let (answer, link) := client.connect url h.files h.link
  (answer.map service, { h with link := link })

end Backend

/-- Opens storage as the settings say; there is no other storage to fall back to. -/
def BackendSettings.openIn (s : BackendSettings) (h : Host) :
    Except StorageError Backend × Host :=
  match s with
  | .memory _ =>
    let (backend, h) := Backend.openMemory h
    (.ok backend, h)
  | .mapped s => Backend.openMapped s h
  | .service s => Backend.openService (.plain s.keyPrefix) s.url h
  | .pipelined s => Backend.openService (.pipelined s.keyPrefix) s.url h

end LatentCache
