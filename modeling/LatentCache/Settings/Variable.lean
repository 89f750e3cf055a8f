/-!
# Environment variables

The variables that override settings. An environment gives each of them a text or nothing.
-/

namespace LatentCache

inductive Variable where
  | config
  | chunkSize
  | backend
  | mapPath
  | mapSize
  | serviceUrl
  | keyPrefix
  | connectTimeout
  | codec
  | rawType
  | rawLayers
  | rawHidden
  | logLevel
  | logFormat
deriving DecidableEq

namespace Variable

def all : List Variable :=
  [config, chunkSize, backend, mapPath, mapSize, serviceUrl, keyPrefix,
    connectTimeout, codec, rawType, rawLayers, rawHidden, logLevel, logFormat]

def name : Variable → String
  | config => "GG_LATENT_CONFIG"
  | chunkSize => "GG_LATENT_CHUNK_SIZE"
  | backend => "GG_LATENT_BACKEND"
  | mapPath => "GG_LATENT_LMDB_PATH"
  | mapSize => "GG_LATENT_LMDB_MAP_SIZE"
  | serviceUrl => "GG_LATENT_REDIS_URL"
  | keyPrefix => "GG_LATENT_REDIS_KEY_PREFIX"
  | connectTimeout => "GG_LATENT_REDIS_CONNECT_TIMEOUT"
  | codec => "GG_LATENT_CODEC"
  | rawType => "GG_LATENT_RAW_DTYPE"
  | rawLayers => "GG_LATENT_RAW_LAYERS"
  | rawHidden => "GG_LATENT_RAW_HIDDEN"
  | logLevel => "GG_LATENT_LOG_LEVEL"
  | logFormat => "GG_LATENT_LOG_FORMAT"

def named? (name : String) : Option Variable := all.find? (·.name == name)

theorem named?_name (v : Variable) : named? v.name = some v := by cases v <;> decide

end Variable

abbrev Environment := Variable → Option String

end LatentCache
