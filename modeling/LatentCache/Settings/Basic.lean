import LatentCache.Logging.Basic
import LatentCache.Record.Codec
import LatentCache.Storage.Kind
import LatentCache.Text.Character

/-!
# Settings

What a deployment chooses: the chunk size, the storage, the codec and the log. Each field has a
default. `Settings.validate` refuses settings with which no cache can work.
-/

namespace LatentCache

structure MappedSettings where
  /-- The directory of the environment. -/
  path : String := "cache/latent"
  mapSize : Nat := 160000000
deriving DecidableEq

structure ServiceSettings where
  url : String := "redis://127.0.0.1:6379/"
  /-- Stands before the hexadecimal address in every key. -/
  keyPrefix : String := "latent:"
  connectTimeout : Nat := 5
deriving DecidableEq

inductive BackendSettings where
  | memory (capacityHint : Nat)
  | mapped (s : MappedSettings)
  | service (s : ServiceSettings)
  | pipelined (s : ServiceSettings)
deriving DecidableEq

namespace BackendSettings

def kind : BackendSettings → BackendKind
  | memory _ => .memory
  | mapped _ => .mapped
  | service _ => .service
  | pipelined _ => .pipelined

def default : BackendKind → BackendSettings
  | .memory => memory 0
  | .mapped => mapped {}
  | .service => service {}
  | .pipelined => pipelined {}

theorem kind_default (k : BackendKind) : (default k).kind = k := by cases k <;> rfl

end BackendSettings

structure CodecSettings where
  kind : CodecKind := .selfDescribing
  rawType : ElementType := .f16
  rawLayers : Nat := 0
  rawHidden : Nat := 0
deriving DecidableEq

def CodecSettings.build (s : CodecSettings) (chunkSize : Nat) : Except CodecError Codec :=
  match s.kind with
  | .selfDescribing => .ok .selfDescribing
  | .raw =>
    ((RecordLayout.layered s.rawType s.rawLayers chunkSize s.rawHidden).map Codec.raw).mapError
      CodecError.invalidLayout

structure Settings where
  chunkSize : Nat := 256
  backend : BackendSettings := .default .memory
  codec : CodecSettings := {}
  log : LogSettings := {}
deriving DecidableEq

inductive Flaw where
  | zeroChunkSize
  | rawWithoutDimensions
  | zeroMapSize
  | emptyPath
  | emptyUrl
deriving DecidableEq

def Flaw.message : Flaw → String
  | zeroChunkSize => "chunk_size must be positive"
  | rawWithoutDimensions => "raw codec requires raw_layers and raw_hidden"
  | zeroMapSize => "lmdb map_size must be positive"
  | emptyPath => "lmdb path is empty"
  | emptyUrl => "redis url is empty"

def ServiceSettings.validate (s : ServiceSettings) : Except Flaw Unit :=
  if (Text.trim s.url.toList).isEmpty then .error .emptyUrl else .ok ()

def BackendSettings.validate : BackendSettings → Except Flaw Unit
  | memory _ => .ok ()
  | mapped s =>
    if s.mapSize = 0 then .error .zeroMapSize
    else if s.path.isEmpty then .error .emptyPath
    else .ok ()
  | service s => s.validate
  | pipelined s => s.validate

def Settings.validate (s : Settings) : Except Flaw Unit :=
  if s.chunkSize = 0 then .error .zeroChunkSize
  else if s.codec.kind = .raw ∧ (s.codec.rawLayers = 0 ∨ s.codec.rawHidden = 0) then
    .error .rawWithoutDimensions
  else s.backend.validate

end LatentCache
