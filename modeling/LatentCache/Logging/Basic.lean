import LatentCache.Host.FileTree
import LatentCache.Logging.Filter

/-!
# Logging

How events are reported: a format, a filter, and for machine-readable logs an optional file.
-/

namespace LatentCache

inductive LogFormat where
  | json
  | pretty
deriving DecidableEq

inductive LogError where
  | invalidFilter (e : Logging.FilterError)
  | unknownFormat (name : String)
  | fileOpen (e : FileError)
  | alreadyInstalled
deriving DecidableEq

def LogError.message : LogError → String
  | invalidFilter e => "Invalid log filter: " ++ e.message
  | unknownFormat name => "Unknown log format: " ++ name
  | fileOpen e => "Failed to open log file: " ++ e.message
  | alreadyInstalled => "Subscriber already initialized"

namespace LogFormat

def name : LogFormat → String
  | json => "json"
  | pretty => "pretty"

def named? : String → Option LogFormat
  | "json" => some json
  | "pretty" => some pretty
  | _ => none

theorem named?_name (f : LogFormat) : named? f.name = some f := by cases f <;> rfl

def parse (text : String) : Except LogError LogFormat :=
  match named? text.toLower with
  | some f => .ok f
  | none => .error (.unknownFormat text.toLower)

end LogFormat

structure LogSettings where
  format : LogFormat := .json
  level : String := "info"
  outputPath : Option String := none
deriving DecidableEq

/-- Where machine-readable logs go, the file is made anew. -/
def LogSettings.openOutput (s : LogSettings) (files : FileTree) : Except LogError FileTree :=
  match s.format, s.outputPath with
  | .json, some path => (files.create path).mapError LogError.fileOpen
  | _, _ => .ok files

/-- Installs a receiver of events; `installed` says that there is one already. -/
def LogSettings.install (s : LogSettings) (installed : Bool) (files : FileTree) :
    Except LogError Unit × FileTree :=
  match Logging.Directive.list s.level with
  | .error e => (.error (.invalidFilter e), files)
  | .ok _ =>
    match s.openOutput files with
    | .error e => (.error e, files)
    | .ok files => (if installed then .error .alreadyInstalled else .ok (), files)

end LatentCache
