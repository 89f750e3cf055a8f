import LatentCache.Record.Container
import LatentCache.Record.Layout

/-!
# Record codecs

Two exact encodings of latents. A self-describing record is a container with one tensor; a raw
record is nothing but the bytes of the latent, whose type and shape come from a fixed layout.
-/

namespace LatentCache

inductive CodecKind where
  | selfDescribing
  | raw
deriving DecidableEq

namespace CodecKind

def name : CodecKind → String
  | selfDescribing => "safetensors"
  | raw => "raw"

def named? : String → Option CodecKind
  | "safetensors" | "self-describing" => some selfDescribing
  | "raw" | "raw-view" => some raw
  | _ => none

theorem named?_name (k : CodecKind) : named? k.name = some k := by cases k <;> rfl

end CodecKind

inductive CodecError where
  | container (e : Container.Error)
  | unsupportedType (type : Container.CellType)
  | layoutMismatch (layout : RecordLayout) (type : ElementType) (shape : Shape)
  | chunkMismatch (layout : RecordLayout) (chunkSize : Nat)
  | length (expected actual : Nat)
  | invalidLayout (e : LayoutError)
  | unknownCodec (name : String)
  | latent (e : LatentError)
deriving DecidableEq

def CodecError.message : CodecError → String
  | container e => "Container error: " ++ e.name
  | unsupportedType type => "Unsupported element type in record: " ++ type.name
  | layoutMismatch layout type shape =>
    "Latent does not match record layout: expected " ++ layoutText layout.type layout.shape ++
      ", got " ++ layoutText type shape
  | chunkMismatch layout chunkSize =>
    s!"Latent does not match record layout: expected sequence axis of {chunkSize} positions" ++
      ", got " ++ layoutText layout.type layout.shape
  | length expected actual =>
    s!"Record length mismatch: layout needs {expected} bytes, got {actual}"
  | invalidLayout e => "Invalid record layout: " ++ e.message
  | unknownCodec name => "Unknown codec: " ++ name
  | latent e => e.message

def CodecKind.parse (text : String) : Except CodecError CodecKind :=
  match CodecKind.named? text.toLower with
  | some k => .ok k
  | none => .error (.unknownCodec text.toLower)

def ElementType.toCell : ElementType → Container.CellType
  | f16 => .f16
  | bf16 => .bf16
  | f32 => .f32

def ElementType.ofCell? : Container.CellType → Option ElementType
  | .f16 => some f16
  | .bf16 => some bf16
  | .f32 => some f32
  | _ => none

theorem ElementType.ofCell?_toCell (t : ElementType) : ofCell? t.toCell = some t := by
  cases t <;> rfl

inductive Codec where
  | selfDescribing
  | raw (layout : RecordLayout)
deriving DecidableEq

namespace Codec

def tensorName : String := "latent_bytes"

def kind : Codec → CodecKind
  | selfDescribing => .selfDescribing
  | raw _ => .raw

def encode : Codec → Latent → Except CodecError Bytes
  | selfDescribing, x =>
    (Container.write tensorName x.type.toCell x.shape.toList x.data).mapError .container
  | raw layout, x =>
    if x.type = layout.type ∧ x.shape = layout.shape then .ok x.data
    else .error (.layoutMismatch layout x.type x.shape)

def decode : Codec → Bytes → Except CodecError Latent
  | selfDescribing, bs => do
    let (entry, data) ← (Container.readTensor tensorName bs).mapError .container
    match ElementType.ofCell? entry.type with
    | none => throw (.unsupportedType entry.type)
    | some type => (Latent.ofBytes type entry.dims data).mapError .latent
  | raw layout, bs =>
    if bs.length = layout.byteLength then
      (Latent.ofBytes layout.type layout.shape.toList bs).mapError .latent
    else .error (.length layout.byteLength bs.length)

/-- Refuses a chunk size whose records the codec cannot represent. -/
def checkChunkSize : Codec → Nat → Except CodecError Unit
  | selfDescribing, _ => .ok ()
  | raw layout, chunkSize =>
    if layout.shape.seqLen = chunkSize then .ok () else .error (.chunkMismatch layout chunkSize)

end Codec

end LatentCache
