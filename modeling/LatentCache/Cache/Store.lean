import LatentCache.Cache.Basic
import LatentCache.Latent.Sequence

/-!
# Storing

A cache cuts the latent of newly computed tokens into chunks and stores one record for each
complete chunk, all in one batch. Positions beyond the last complete chunk are left out.
-/

namespace LatentCache

structure Stored where
  chunksWritten : Nat
  bytesWritten : Nat
deriving DecidableEq

namespace Cache

/-- The record of one chunk; `x` starts with chunk `firstChunk`. -/
def record (c : Cache) (x : Latent) (firstChunk : Nat) (chunk : Nat × ContentAddress) :
    Except CacheError Record := do
  let slice ← (x.narrow ((chunk.1 - firstChunk) * c.chunkSize) c.chunkSize).mapError
    CacheError.latent
  let bytes ← (c.codec.encode slice).mapError CacheError.codec
  return (chunk.2, bytes)

/-- The records of the complete chunks of a sequence from an offset on; `x` covers the tokens from
there. -/
def records (c : Cache) (tokens : List Token) (x : Latent) (offset : Nat) :
    Except CacheError (List Record) :=
  if offset % c.chunkSize ≠ 0 then
    .error (.invalidOffset offset tokens.length c.chunkSize)
  else
    let firstChunk := offset / c.chunkSize
    let total := c.chunking.completeChunks tokens.length
    let needed := (total - firstChunk) * c.chunkSize
    if total ≤ firstChunk then .ok []
    else if x.seqLen < needed then .error (.latentTooShort needed x.seqLen)
    else (c.chunking.prefixAddresses tokens firstChunk).toList.mapM (c.record x firstChunk)

/-- Stores the complete chunks of a sequence from an offset on. Where there are none, nothing is
written or counted. -/
def store {σ : Type} (c : Cache) (m : Medium σ) (tokens : List Token) (x : Latent) (offset : Nat)
    (s : Session σ) : Except CacheError Stored × Session σ :=
  match c.records tokens x offset with
  | .error error => (.error error, s)
  | .ok [] => (.ok ⟨0, 0⟩, s)
  | .ok records =>
    match m.batchPut records s.storage with
    | (.error error, storage) => (.error (.storage error), { s with storage := storage })
    | (.ok (), storage) =>
      let bytes := Record.totalLength records
      (.ok ⟨records.length, bytes⟩,
        { s with
          storage := storage
          stats := s.stats.addStore records.length bytes
          metrics := s.metrics.addStore records.length bytes })

end Cache

end LatentCache
