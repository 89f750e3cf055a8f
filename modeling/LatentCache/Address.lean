import LatentCache.Digest.Sha256
import LatentCache.Hex
import LatentCache.Text.Decimal

/-!
# Content addresses

A chunk of a token sequence is addressed by the digest of the whole prefix that ends with it, so
two sequences share the address of a chunk only if they agree up to its end. `Chunking.address`
computes one address from its prefix; `Chunking.prefixAddresses` walks over all chunks of a
sequence and reads every token once.
-/

namespace LatentCache

abbrev Token := UInt32

def Token.bytes (t : Token) : Bytes := Bytes.ofNat 4 t.toNat

/-- The byte stream that stands for a token sequence: four bytes a token, without separators. -/
def tokenBytes (tokens : List Token) : Bytes := tokens.flatMap Token.bytes

structure ContentAddress where
  bytes : Bytes
  length_bytes : bytes.length = 32
deriving DecidableEq

namespace ContentAddress

def ofTokens (tokens : List Token) : ContentAddress :=
  ⟨Sha256.digest (tokenBytes tokens), Sha256.length_digest _⟩

def ofBytes? (bs : Bytes) : Option ContentAddress :=
  if h : bs.length = 32 then some ⟨bs, h⟩ else none

/-- The key of an address on every storage medium that takes text. -/
def toHex (a : ContentAddress) : String := String.ofList (Hex.encode a.bytes)

/-- The number that an address is in hexadecimal notation; it orders addresses as their texts. -/
def toNat (a : ContentAddress) : Nat := Bytes.toNat a.bytes.reverse

theorem toHex_injective {a b : ContentAddress} (h : a.toHex = b.toHex) : a = b := by
  have hChars := congrArg String.toList h
  simp only [toHex, String.toList_ofList] at hChars
  cases a
  cases b
  simpa using Hex.encode_injective hChars

theorem length_toList_toHex (a : ContentAddress) : a.toHex.toList.length = 64 := by
  simp [toHex, a.length_bytes]

end ContentAddress

inductive AddressError where
  | zeroChunkSize
  | emptyPrefix
  | misaligned (length chunkSize : Nat)
deriving DecidableEq

def AddressError.message : AddressError → String
  | zeroChunkSize => "Chunk size must be positive"
  | emptyPrefix => "Cannot address an empty prefix"
  | misaligned length chunkSize =>
    s!"Prefix length {length} is not a multiple of chunk size {chunkSize}"

/-- The division of token sequences into chunks of a fixed positive size. -/
structure Chunking where
  size : Nat
  size_pos : 0 < size
deriving DecidableEq

namespace Chunking

def new? (size : Nat) : Except AddressError Chunking :=
  if h : 0 < size then .ok ⟨size, h⟩ else .error .zeroChunkSize

def completeChunks (c : Chunking) (length : Nat) : Nat := length / c.size

/-- The address of a prefix that consists of complete chunks. -/
def address (c : Chunking) (front : List Token) : Except AddressError ContentAddress :=
  if front.isEmpty then .error .emptyPrefix
  else if front.length % c.size ≠ 0 then .error (.misaligned front.length c.size)
  else .ok (.ofTokens front)

end Chunking

/-- A walk over the complete chunks of a sequence. `hasher` has absorbed the tokens before `rest`,
which are those of the chunks before `next`. -/
structure PrefixAddresses where
  chunkSize : Nat
  rest : List Token
  next : Nat
  total : Nat
  hasher : Sha256.Hasher

namespace PrefixAddresses

def remaining (w : PrefixAddresses) : Nat := w.total - w.next

def advance (w : PrefixAddresses) : PrefixAddresses :=
  { w with
    rest := w.rest.drop w.chunkSize
    next := w.next + 1
    hasher := w.hasher.update (tokenBytes (w.rest.take w.chunkSize)) }

def next? (w : PrefixAddresses) : Option ((Nat × ContentAddress) × PrefixAddresses) :=
  if w.next < w.total then
    some ((w.next, ⟨w.advance.hasher.digest, Sha256.Hasher.length_digest _⟩), w.advance)
  else none

def toList (w : PrefixAddresses) : List (Nat × ContentAddress) :=
  if _more : w.next < w.total then
    (w.next, ⟨w.advance.hasher.digest, Sha256.Hasher.length_digest _⟩) :: w.advance.toList
  else []
termination_by w.total - w.next
decreasing_by
  simp only [advance]
  omega

end PrefixAddresses

/-- The walk over the complete chunks of `tokens` from chunk `fromChunk` on. -/
def Chunking.prefixAddresses (c : Chunking) (tokens : List Token) (fromChunk : Nat) :
    PrefixAddresses :=
  let total := c.completeChunks tokens.length
  let start := min fromChunk total
  { chunkSize := c.size
    rest := tokens.drop (start * c.size)
    next := start
    total := total
    hasher := Sha256.Hasher.empty.update (tokenBytes (tokens.take (start * c.size))) }

end LatentCache
