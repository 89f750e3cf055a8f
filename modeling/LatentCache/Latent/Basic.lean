import LatentCache.Bytes
import LatentCache.Latent.ElementType
import LatentCache.Latent.Shape

/-!
# Latents

A latent is a tensor of per-token state: an element type, a shape and its elements, row by row, as
little-endian bytes. Two latents are equal only if they agree bit by bit.
-/

namespace LatentCache

/-- Why an operation on latents fails. Sizes that do not fit end the program. -/
inductive LatentError where
  | rankTooLow (rank : Nat)
  | elementCount (expected actual : Nat)
  | byteLength (expected actual : Nat)
  | typeMismatch (expected actual : ElementType)
  | outOfRange (start length seqLen : Nat)
  | shapeMismatch (expected actual : Shape)
  | emptyConcat
  | unknownType (name : String)
  | overflow (o : Size.Overflow)
deriving DecidableEq

def LatentError.message : LatentError → String
  | rankTooLow rank => s!"Latent rank {rank} too low: need at least 2 axes"
  | elementCount expected actual =>
    s!"Element count mismatch: shape needs {expected}, got {actual}"
  | byteLength expected actual =>
    s!"Byte length mismatch: shape needs {expected} bytes, got {actual}"
  | typeMismatch expected actual =>
    s!"Element type mismatch: expected {expected.name}, got {actual.name}"
  | outOfRange start length seqLen =>
    s!"Sequence range {start}..{start + length} out of bounds for length {seqLen}"
  | shapeMismatch expected actual =>
    "Shape mismatch: expected " ++ dimsText expected.toList ++ ", got " ++ dimsText actual.toList
  | emptyConcat => "Cannot concatenate zero latents"
  | unknownType name => "Unknown element type: " ++ name
  | overflow o => o.message

def ElementType.parse (text : String) : Except LatentError ElementType :=
  match ElementType.named? text.toLower with
  | some t => .ok t
  | none => .error (.unknownType text.toLower)

structure Latent where
  type : ElementType
  shape : Shape
  data : Bytes
deriving DecidableEq

namespace Latent

def seqLen (x : Latent) : Nat := x.shape.seqLen

def elementCount (x : Latent) : Nat := x.shape.elementCount

def ofBytes (type : ElementType) (dims : List Nat) (data : Bytes) : Except LatentError Latent :=
  match Shape.ofList? dims with
  | none => .error (.rankTooLow dims.length)
  | some shape =>
    let expected := Size.mul shape.elementCount type.width
    if data.length = expected then .ok ⟨type, shape, data⟩
    else .error (.byteLength expected data.length)

def ofElements (type : ElementType) (dims : List Nat) (bits : List Nat) :
    Except LatentError Latent :=
  match Shape.ofList? dims with
  | none => .error (.rankTooLow dims.length)
  | some shape =>
    if bits.length = shape.elementCount then
      .ok ⟨type, shape, bits.flatMap (Bytes.ofNat type.width)⟩
    else .error (.elementCount shape.elementCount bits.length)

def elements (x : Latent) (type : ElementType) : Except LatentError (List Nat) :=
  if x.type = type then .ok ((Bytes.groups type.width x.data).map Bytes.toNat)
  else .error (.typeMismatch type x.type)

end Latent

end LatentCache
