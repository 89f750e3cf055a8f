import LatentCache.Json.Basic
import LatentCache.Settings.Basic
import LatentCache.Settings.Variable

/-!
# Summaries of settings

The settings in force, flat. A summary can be shown as assignments to environment variables, one a
line, or as JSON.
-/

namespace LatentCache

structure Summary where
  chunkSize : Nat
  backend : BackendKind
  /-- A directory, a URL or `in-process`. -/
  location : String
  mapSize : Option Nat
  keyPrefix : Option String
  codec : CodecKind
  rawType : ElementType
  rawLayers : Nat
  rawHidden : Nat
  logLevel : String
  logFormat : LogFormat
deriving DecidableEq

namespace BackendSettings

def location : BackendSettings → String
  | memory _ => "in-process"
  | mapped s => s.path
  | service s => s.url
  | pipelined s => s.url

def mapSize? : BackendSettings → Option Nat
  | mapped s => some s.mapSize
  | _ => none

def keyPrefix? : BackendSettings → Option String
  | service s => some s.keyPrefix
  | pipelined s => some s.keyPrefix
  | _ => none

end BackendSettings

def Settings.summary (s : Settings) : Summary :=
  { chunkSize := s.chunkSize
    backend := s.backend.kind
    location := s.backend.location
    mapSize := s.backend.mapSize?
    keyPrefix := s.backend.keyPrefix?
    codec := s.codec.kind
    rawType := s.codec.rawType
    rawLayers := s.codec.rawLayers
    rawHidden := s.codec.rawHidden
    logLevel := s.log.level
    logFormat := s.log.format }

namespace Summary

def optional {α : Type} (v : Variable) (text : α → String) : Option α → List (Variable × String)
  | none => []
  | some a => [(v, text a)]

def backendAssignments (s : Summary) : List (Variable × String) :=
  match s.backend with
  | .memory => []
  | .mapped => (.mapPath, s.location) :: optional .mapSize Decimal.text s.mapSize
  | .service => (.serviceUrl, s.location) :: optional .keyPrefix id s.keyPrefix
  | .pipelined => (.serviceUrl, s.location) :: optional .keyPrefix id s.keyPrefix

def rawAssignments (s : Summary) : List (Variable × String) :=
  match s.codec with
  | .selfDescribing => []
  | .raw =>
    [(.rawType, s.rawType.name), (.rawLayers, Decimal.text s.rawLayers),
      (.rawHidden, Decimal.text s.rawHidden)]

def assignments (s : Summary) : List (Variable × String) :=
  [(.chunkSize, Decimal.text s.chunkSize), (.backend, s.backend.name)] ++ s.backendAssignments ++
    [(.codec, s.codec.name)] ++ s.rawAssignments ++
    [(.logLevel, s.logLevel), (.logFormat, s.logFormat.name)]

def line (assignment : Variable × String) : String :=
  assignment.1.name ++ "=" ++ assignment.2

def text (s : Summary) : String := "\n".intercalate (s.assignments.map line)

def toJson (s : Summary) : Json :=
  .object [
    ("chunk_size", .natural s.chunkSize),
    ("backend", .string s.backend.name),
    ("location", .string s.location),
    ("lmdb_map_size", s.mapSize.elim .null .natural),
    ("redis_key_prefix", s.keyPrefix.elim .null .string),
    ("codec", .string s.codec.name),
    ("raw_dtype", .string s.rawType.name),
    ("raw_layers", .natural s.rawLayers),
    ("raw_hidden", .natural s.rawHidden),
    ("log_level", .string s.logLevel),
    ("log_format", .string s.logFormat.name)]

end Summary

end LatentCache
