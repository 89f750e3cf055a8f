import LatentCache.Settings.Overlay
import LatentCache.Settings.Summary
import LatentCache.Storage.Backend

/-!
# Commands on settings

A finished command leaves behind an exit code and the lines of its two outputs. Showing and checking
settings opens no storage.
-/

namespace LatentCache.Command

structure Outcome where
  code : Nat
  output : List String
  errors : List String
deriving DecidableEq

namespace Outcome

def success (output : List String) : Outcome := ⟨0, output, []⟩

def failure (code : Nat) (errors : List String) : Outcome := ⟨code, [], errors⟩

def warn (o : Outcome) (warning : String) : Outcome := { o with errors := warning :: o.errors }

end Outcome

def lines (texts : List String) : String := String.join (texts.map (· ++ "\n"))

/-- The exit code for settings that cannot be loaded or cannot work. -/
def configurationError : Nat := 2

def describe (json : Bool) (s : Settings) : String :=
  if json then s.summary.toJson.pretty else s.summary.text

def showSettings (json : Bool) (files : FileTree) (env : Environment) : Outcome :=
  match Settings.load files env with
  | .error e => .failure configurationError ["Error: " ++ e.message]
  | .ok s => .success [describe json s]

def showDefaults : Outcome := .success [describe false {}]

def validate (files : FileTree) (env : Environment) : Outcome :=
  match Settings.load files env with
  | .error e => .failure configurationError ["ERROR: " ++ e.message]
  | .ok s =>
    match s.validate with
    | .error flaw => .failure configurationError ["ERROR: " ++ (SettingsError.invalid flaw).message]
    | .ok () => .success ["Configuration is valid."]

end LatentCache.Command
