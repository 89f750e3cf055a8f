import LatentCache.Settings.Basic
import LatentCache.Toml.Reader

/-!
# Settings from documents

The settings that a TOML document gives. A group of settings is a table, or an array of their
values in the order of the fields; what is missing takes its default, unknown keys are skipped. A
choice is a text, or a table whose only key is that text and holds nothing.
-/

namespace LatentCache

open Toml (Value Entries)

namespace Settings.Document

/-- The values of a group by the names of its fields. A date-time gives none of them. -/
def group? (fields : List String) : Value → Option (String → Option Value)
  | .table _ entries => some (Entries.get? entries)
  | .dateTime _ => some fun _ => none
  | .array items => some fun name => (fields.zip items).lookup name
  | .rows rows => some fun name => (fields.zip (rows.map (Value.table .header))).lookup name
  | _ => none

def size? : Value → Option Nat
  | .integer n => if 0 ≤ n then some n.toNat else none
  | _ => none

def text? : Value → Option String
  | .string s => some s
  | _ => none

def holdsNothing : Value → Bool
  | .table _ [] => true
  | .array [] => true
  | _ => false

def choice? : Value → Option String
  | .string s => some s
  | .table _ [(name, value)] => if holdsNothing value then some name else none
  | _ => none

/-- The value of a field, read in some way, or its default if the field is missing. -/
def orDefault {α : Type} (read : Value → Option α) (default : α) : Option Value → Option α
  | none => some default
  | some value => read value

def codecKind? (v : Value) : Option CodecKind := do
  match ← choice? v with
  | "safetensors" => some .selfDescribing
  | "raw" => some .raw
  | _ => none

def elementType? (v : Value) : Option ElementType := do
  match ← choice? v with
  | "f16" => some .f16
  | "bf16" => some .bf16
  | "f32" => some .f32
  | _ => none

def logFormat? (v : Value) : Option LogFormat := do
  match ← choice? v with
  | "json" => some .json
  | "pretty" => some .pretty
  | _ => none

def codec? (v : Value) : Option CodecSettings := do
  let field ← group? ["kind", "raw_dtype", "raw_layers", "raw_hidden"] v
  let base : CodecSettings := {}
  let kind ← orDefault codecKind? base.kind (field "kind")
  let rawType ← orDefault elementType? base.rawType (field "raw_dtype")
  let rawLayers ← orDefault size? base.rawLayers (field "raw_layers")
  let rawHidden ← orDefault size? base.rawHidden (field "raw_hidden")
  some { kind, rawType, rawLayers, rawHidden }

def log? (v : Value) : Option LogSettings := do
  let field ← group? ["format", "level", "output_path"] v
  let base : LogSettings := {}
  let format ← orDefault logFormat? base.format (field "format")
  let level ← orDefault text? base.level (field "level")
  let outputPath ← orDefault (fun v => (text? v).map some) base.outputPath (field "output_path")
  some { format, level, outputPath }

def mapped? (field : String → Option Value) : Option MappedSettings := do
  let base : MappedSettings := {}
  let path ← orDefault text? base.path (field "path")
  let mapSize ← orDefault size? base.mapSize (field "map_size")
  some { path, mapSize }

def service? (field : String → Option Value) : Option ServiceSettings := do
  let base : ServiceSettings := {}
  let url ← orDefault text? base.url (field "url")
  let keyPrefix ← orDefault text? base.keyPrefix (field "key_prefix")
  let connectTimeout ← orDefault size? base.connectTimeout (field "connect_timeout_secs")
  some { url, keyPrefix, connectTimeout }

def backendFields : BackendKind → List String
  | .memory => ["capacity_hint"]
  | .mapped => ["path", "map_size"]
  | .service => ["url", "key_prefix", "connect_timeout_secs"]
  | .pipelined => ["url", "key_prefix", "connect_timeout_secs"]

def backendKind? : String → Option BackendKind
  | "memory" => some .memory
  | "lmdb" => some .mapped
  | "redis" => some .service
  | "redis-pipelined" => some .pipelined
  | _ => none

def backendOf? (kind : BackendKind) (field : String → Option Value) : Option BackendSettings :=
  match kind with
  | .memory => (orDefault size? 0 (field "capacity_hint")).map BackendSettings.memory
  | .mapped => (mapped? field).map BackendSettings.mapped
  | .service => (service? field).map BackendSettings.service
  | .pipelined => (service? field).map BackendSettings.pipelined

/-- Storage is chosen by its kind, which must be a text; an array must not be longer than the
fields of that kind. -/
def backend? : Value → Option BackendSettings
  | .table _ entries => do
    let kind ← backendKind? (← text? (← Entries.get? entries "kind"))
    backendOf? kind (Entries.get? entries)
  | .array (kind :: items) => do
    let kind ← backendKind? (← text? kind)
    if (backendFields kind).length < items.length then none
    else backendOf? kind fun name => ((backendFields kind).zip items).lookup name
  | _ => none

def settings? (entries : Entries) : Option Settings := do
  let base : Settings := {}
  let chunkSize ← orDefault size? base.chunkSize (entries.get? "chunk_size")
  let backend ← orDefault backend? base.backend (entries.get? "backend")
  let codec ← orDefault codec? base.codec (entries.get? "codec")
  let log ← orDefault log? base.log (entries.get? "log")
  some { chunkSize, backend, codec, log }

end Settings.Document

def Settings.ofDocument? (text : List Char) : Option Settings := do
  Settings.Document.settings? (← Toml.parse? text)

end LatentCache
