import LatentCache.Latent.Basic

/-!
# Record layouts

The element type and shape that all records of a deployment share. No dimension of a layout is
zero.
-/

namespace LatentCache

inductive LayoutError where
  | noSequenceAxis (dims : List Nat)
  | zeroDimension (dims : List Nat)
deriving DecidableEq

def LayoutError.message : LayoutError → String
  | noSequenceAxis dims => "shape " ++ dimsText dims ++ " has no sequence axis"
  | zeroDimension dims => "shape " ++ dimsText dims ++ " has a zero dimension"

structure RecordLayout where
  type : ElementType
  shape : Shape
  nonzero : 0 ∉ shape.toList
deriving DecidableEq

namespace RecordLayout

def new? (type : ElementType) (dims : List Nat) : Except LayoutError RecordLayout :=
  match Shape.ofList? dims with
  | none => .error (.noSequenceAxis dims)
  | some shape =>
    if h : 0 ∉ shape.toList then .ok ⟨type, shape, h⟩ else .error (.zeroDimension dims)

def layered (type : ElementType) (layers chunkSize hidden : Nat) :
    Except LayoutError RecordLayout :=
  new? type [layers, chunkSize, hidden]

def byteLength (l : RecordLayout) : Nat := Size.mul l.shape.elementCount l.type.width

end RecordLayout

def layoutText (type : ElementType) (shape : Shape) : String :=
  type.name ++ dimsText shape.toList

end LatentCache
