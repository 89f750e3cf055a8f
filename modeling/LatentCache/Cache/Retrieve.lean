import LatentCache.Cache.Basic
import LatentCache.Latent.Sequence

/-!
# Retrieving

A cache gives the latent of the longest prefix of a token sequence for which it finds usable
records without a gap. A record that is missing or unusable ends the prefix and is no error.
-/

namespace LatentCache

structure Retrieved where
  latent? : Option Latent
  tokensCovered : Nat
deriving DecidableEq

def Retrieved.isHit (r : Retrieved) : Bool := r.latent?.isSome

namespace Cache

/-- The latent of a stored record if it can stand at a chunk; `first?` is that of the first chunk,
which all others must be able to follow. -/
def usable (c : Cache) (first? : Option Latent) (bytes : Bytes) : Except RecordFault Latent :=
  match c.codec.decode bytes with
  | .error fault => .error (.undecodable fault)
  | .ok x =>
    if x.seqLen ≠ c.chunkSize then .error (.wrongLength c.chunkSize x.seqLen)
    else
      match first? with
      | none => .ok x
      | some first =>
        if first.Compatible x then .ok x else .error (.otherRows first.shape x.shape x.type)

/-- Latents of consecutive chunks, whether a chunk was missed after them, and what was noticed. -/
structure Found where
  latents : List Latent
  missed : Bool
  warnings : List Warning

/-- Looks for the records of consecutive chunks up to the first one that is missing or unusable. -/
def find {σ : Type} (c : Cache) (m : Medium σ) (first? : Option Latent) :
    List (Nat × ContentAddress) → σ → Except StorageError Found × σ
  | [], s => (.ok ⟨[], false, []⟩, s)
  | (chunk, key) :: rest, s =>
    match m.get key s with
    | (.error error, s) => (.error error, s)
    | (.ok none, s) => (.ok ⟨[], true, []⟩, s)
    | (.ok (some bytes), s) =>
      match c.usable first? bytes with
      | .error fault => (.ok ⟨[], true, [.unusableRecord chunk fault]⟩, s)
      | .ok x =>
        match find c m (first?.or (some x)) rest s with
        | (.error error, s) => (.error error, s)
        | (.ok found, s) => (.ok { found with latents := x :: found.latents }, s)

def chunks (c : Cache) (tokens : List Token) : List (Nat × ContentAddress) :=
  (c.chunking.prefixAddresses tokens 0).toList

def countRetrieve {σ : Type} (c : Cache) (found : Found) (s : Session σ) : Session σ :=
  let hits := found.latents.length
  let tokens := hits * c.chunkSize
  { s with
    stats := s.stats.addRetrieve hits found.missed tokens
    metrics := s.metrics.addRetrieve hits found.missed tokens
    warnings := s.warnings ++ found.warnings }

/-- The latent of the longest prefix of a sequence that is stored. -/
def retrieve {σ : Type} (c : Cache) (m : Medium σ) (tokens : List Token) (s : Session σ) :
    Except CacheError Retrieved × Session σ :=
  match c.find m none (c.chunks tokens) s.storage with
  | (.error error, storage) => (.error (.storage error), { s with storage := storage })
  | (.ok found, storage) =>
    let s := c.countRetrieve found { s with storage := storage }
    if found.latents.isEmpty then (.ok ⟨none, 0⟩, s)
    else
      match Latent.concat found.latents with
      | .error error => (.error (.latent error), s)
      | .ok x => (.ok ⟨some x, found.latents.length * c.chunkSize⟩, s)

end Cache

end LatentCache
