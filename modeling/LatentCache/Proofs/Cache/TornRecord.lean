import LatentCache.Proofs.Cache.Retrieval
import LatentCache.Proofs.Record.Delimitation

/-!
# Torn records

A record of which only a part was written, or to which something was added, does not decode. A
retrieval that meets it covers the chunks before it and no more.
-/

namespace LatentCache

namespace Cache

theorem leadingCount_of_undecodable {c : Cache} {stored : ContentAddress → Option Bytes}
    {tokens : List Token} {i : Nat} {bytes : Bytes} {e : CodecError}
    (hLt : i < tokens.length / c.chunkSize)
    (hUsable : ∀ j < i, c.UsableAt (c.recordAt stored tokens) j)
    (hStored : stored (chunkAddress c.chunkSize tokens i) = some bytes)
    (hDecode : c.codec.decode bytes = .error e) :
    LeadingCount (c.UsableAt (c.recordAt stored tokens)) (tokens.length / c.chunkSize) i where
  le := hLt.le
  holds := hUsable
  stops _ := by
    rintro ⟨y, hRecord, -⟩
    obtain ⟨found, hFound, hOk⟩ := recordAt_eq_some hRecord
    rw [hStored] at hFound
    cases hFound
    rw [hDecode] at hOk
    cases hOk

end Cache

end LatentCache
