import LatentCache.Cache.Stats
import LatentCache.Record.Codec
import LatentCache.Storage.Backend

/-!
# Caches

A cache divides token sequences into chunks and keeps the latent of every chunk as one record. Its
codec can represent records of its chunk size.
-/

namespace LatentCache

inductive CacheError where
  | invalidChunkSize (e : AddressError)
  | invalidOffset (offset length chunkSize : Nat)
  | latentTooShort (needed actual : Nat)
  | codec (e : CodecError)
  | latent (e : LatentError)
  | storage (e : StorageError)
deriving DecidableEq

namespace CacheError

def message : CacheError → String
  | invalidChunkSize e => "Invalid chunk size: " ++ e.message
  | invalidOffset offset length chunkSize =>
    s!"Restored offset {offset} for sequence of {length} tokens is not a multiple of chunk size " ++
      toString chunkSize
  | latentTooShort needed actual =>
    s!"Latent covers {actual} positions, {needed} needed for the new chunks"
  | codec e => "Codec error: " ++ e.message
  | latent e => "Latent error: " ++ e.message
  | storage e => "Storage error: " ++ e.message

def isTransient : CacheError → Bool
  | storage e => e.isTransient
  | _ => false

def isCallerError : CacheError → Bool
  | invalidOffset _ _ _ => true
  | latentTooShort _ _ => true
  | latent _ => true
  | _ => false

end CacheError

structure Cache where
  chunking : Chunking
  codec : Codec
  fits : codec.checkChunkSize chunking.size = .ok ()

namespace Cache

def chunkSize (c : Cache) : Nat := c.chunking.size

theorem chunkSize_pos (c : Cache) : 0 < c.chunkSize := c.chunking.size_pos

def new? (chunkSize : Nat) (codec : Codec) : Except CacheError Cache :=
  match Chunking.new? chunkSize with
  | .error e => .error (.invalidChunkSize e)
  | .ok chunking =>
    match h : codec.checkChunkSize chunking.size with
    | .error e => .error (.codec e)
    | .ok () => .ok ⟨chunking, codec, h⟩

/-- Opens the storage that the settings choose, and a cache with their codec. -/
def ofSettings (s : Settings) (host : Host) : Except CacheError (Cache × Backend) × Host :=
  match s.backend.openIn host with
  | (.error e, host) => (.error (.storage e), host)
  | (.ok backend, host) =>
    match s.codec.build s.chunkSize with
    | .error e => (.error (.codec e), host)
    | .ok codec => ((new? s.chunkSize codec).map fun cache => (cache, backend), host)

end Cache

/-- Why a record that was found cannot continue a prefix. -/
inductive RecordFault where
  | undecodable (e : CodecError)
  | wrongLength (expected actual : Nat)
  | otherRows (expected actual : Shape) (type : ElementType)
deriving DecidableEq

/-- Something that a call noticed and did not fail for. -/
inductive Warning where
  | unusableRecord (chunk : Nat) (fault : RecordFault)
  | transientFailure (reason : String)
deriving DecidableEq

namespace Warning

def message : Warning → String
  | unusableRecord _ (.undecodable _) => "Cached record does not decode; prefix ends here"
  | unusableRecord _ (.wrongLength _ _) =>
    "Cached record spans the wrong number of positions; prefix ends here"
  | unusableRecord _ (.otherRows _ _ _) =>
    "Cached record layout differs from earlier chunks; prefix ends here"
  | transientFailure _ => "Transient cache service failure"

def fields : Warning → List (String × String)
  | unusableRecord chunk fault =>
    ("chunk", toString chunk) ::
      match fault with
      | .undecodable e => [("error", e.message)]
      | .wrongLength expected actual =>
        [("expected", toString expected), ("actual", toString actual)]
      | .otherRows expected actual type =>
        [("expected", dimsText expected.toList), ("actual", dimsText actual.toList),
          ("dtype", type.name)]
  | transientFailure reason => [("error", reason)]

end Warning

/-- All that a call on a cache can change. -/
structure Session (σ : Type) where
  storage : σ
  stats : Stats := {}
  metrics : Metrics := {}
  warnings : List Warning := []

end LatentCache
