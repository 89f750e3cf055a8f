import LatentCache.Size

/-!
# Statistics

What a cache counts for itself, and what all caches of a process report together.
-/

namespace LatentCache

structure Stats where
  retrieves : Nat := 0
  chunkHits : Nat := 0
  chunkMisses : Nat := 0
  tokensRestored : Nat := 0
  stores : Nat := 0
  chunksStored : Nat := 0
  bytesStored : Nat := 0
deriving DecidableEq

namespace Stats

/-- The share of hits among the chunks that were looked for. -/
def hitRate (s : Stats) : Float :=
  let total := Size.add s.chunkHits s.chunkMisses
  if total = 0 then 0 else s.chunkHits.toUInt64.toFloat / total.toUInt64.toFloat

def addRetrieve (s : Stats) (hits : Nat) (missed : Bool) (tokens : Nat) : Stats :=
  { s with
    retrieves := s.retrieves + 1
    chunkHits := s.chunkHits + hits
    chunkMisses := s.chunkMisses + missed.toNat
    tokensRestored := s.tokensRestored + tokens }

def addStore (s : Stats) (chunks bytes : Nat) : Stats :=
  { s with
    stores := s.stores + 1
    chunksStored := s.chunksStored + chunks
    bytesStored := s.bytesStored + bytes }

end Stats

inductive Counter where
  | chunkHits
  | chunkMisses
  | chunksStored
  | storeBytes
deriving DecidableEq

namespace Counter

def all : List Counter := [chunkHits, chunkMisses, chunksStored, storeBytes]

def name : Counter → String
  | chunkHits => "gg_latent_chunk_hits_total"
  | chunkMisses => "gg_latent_chunk_misses_total"
  | chunksStored => "gg_latent_chunks_stored_total"
  | storeBytes => "gg_latent_store_bytes_total"

end Counter

def retrieveTokensName : String := "gg_latent_retrieve_tokens"

/-- Sums of the counters that were reported at least once, and the token counts of all
retrievals. -/
structure Metrics where
  counters : Counter → Option Nat := fun _ => none
  retrieveTokens : List Nat := []

namespace Metrics

def add (m : Metrics) (c : Counter) (n : Nat) : Metrics :=
  { m with counters := fun d => if d = c then some ((m.counters c).getD 0 + n) else m.counters d }

def addRetrieve (m : Metrics) (hits : Nat) (missed : Bool) (tokens : Nat) : Metrics :=
  let m := m.add .chunkHits hits
  let m := if missed then m.add .chunkMisses 1 else m
  { m with retrieveTokens := m.retrieveTokens ++ [tokens] }

def addStore (m : Metrics) (chunks bytes : Nat) : Metrics :=
  (m.add .chunksStored chunks).add .storeBytes bytes

end Metrics

end LatentCache
