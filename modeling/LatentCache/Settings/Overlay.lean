import LatentCache.Settings.Document
import LatentCache.Settings.Variable
import LatentCache.Text.Quoted

/-!
# Overlaying settings with an environment

A number that is not one leaves the setting as it was; a name that is not one is an error. Choosing
another kind of storage starts from the defaults of that kind.
-/

namespace LatentCache

inductive SettingsError where
  | read (path : String) (e : FileError)
  | parse
  | invalidValue (v : Variable) (value reason : String)
  | invalid (flaw : Flaw)
deriving DecidableEq

def SettingsError.message : SettingsError → String
  | read path e => "Failed to read config file " ++ path ++ ": " ++ e.message
  | parse => "Failed to parse config: not a document of settings"
  | invalidValue v value reason =>
    "Invalid value for " ++ v.name ++ ": " ++ Text.quote value ++ " (" ++ reason ++ ")"
  | invalid flaw => "Invalid configuration: " ++ flaw.message

namespace Environment

def trimmed (text : String) : String := String.ofList (Text.trim text.toList)

/-- The number in a variable, or else the present one. -/
def size (env : Environment) (v : Variable) (present : Nat) : Nat :=
  match env v with
  | none => present
  | some text => (Decimal.size? (Text.trim text.toList)).getD present

def text (env : Environment) (v : Variable) (present : String) : String := (env v).getD present

/-- What the name in a variable denotes, or else the present choice. -/
def choice {α ε : Type} (env : Environment) (v : Variable) (parse : String → Except ε α)
    (reason : ε → String) (present : α) : Except SettingsError α :=
  match env v with
  | none => .ok present
  | some text => (parse (trimmed text)).mapError fun e => .invalidValue v text (reason e)

end Environment

namespace Settings

def overlayService (env : Environment) (s : ServiceSettings) : ServiceSettings :=
  { url := env.text .serviceUrl s.url
    keyPrefix := env.text .keyPrefix s.keyPrefix
    connectTimeout := env.size .connectTimeout s.connectTimeout }

/-- The settings of the chosen kind of storage before its own variables are applied. -/
def chosenBackend (present : BackendSettings) (kind : BackendKind) : BackendSettings :=
  if kind = present.kind then present else .default kind

def overlayBackend (env : Environment) : BackendSettings → BackendSettings
  | .memory hint => .memory hint
  | .mapped s =>
    .mapped { path := env.text .mapPath s.path, mapSize := env.size .mapSize s.mapSize }
  | .service s => .service (overlayService env s)
  | .pipelined s => .pipelined (overlayService env s)

def overlay (s : Settings) (env : Environment) : Except SettingsError Settings := do
  let backendKind ← env.choice .backend BackendKind.parse UnknownBackend.message s.backend.kind
  let codecKind ← env.choice .codec CodecKind.parse CodecError.message s.codec.kind
  let rawType ← env.choice .rawType ElementType.parse LatentError.message s.codec.rawType
  let logFormat ← env.choice .logFormat LogFormat.parse LogError.message s.log.format
  return {
    chunkSize := env.size .chunkSize s.chunkSize
    backend := overlayBackend env (chosenBackend s.backend backendKind)
    codec :=
      { kind := codecKind
        rawType := rawType
        rawLayers := env.size .rawLayers s.codec.rawLayers
        rawHidden := env.size .rawHidden s.codec.rawHidden }
    log := { s.log with format := logFormat, level := env.text .logLevel s.log.level } }

/-- The settings of the document that the environment names, if it names one, overridden by the
environment. -/
def load (files : FileTree) (env : Environment) : Except SettingsError Settings := do
  let base ← match env .config with
    | none => .ok {}
    | some path =>
      if (Text.trim path.toList).isEmpty then .ok {}
      else do
        let text ← (files.readText path).mapError (SettingsError.read path)
        match ofDocument? text with
        | none => .error .parse
        | some s => .ok s
  base.overlay env

end Settings

end LatentCache
