import LatentCache.Json.Reader
import LatentCache.Text.Quoted
import LatentCache.Text.Utf8
import LatentCache.Latent.Shape

/-!
# Tensor containers

A container is a length, a header and data. The length takes eight bytes; the header is a JSON
object that gives every tensor a name, an element type, a shape and a range of the data; the data
follow without gap. `Container.write` produces a container of one tensor, `Container.read` accepts
any container whose ranges tile its data.
-/

namespace LatentCache.Container

inductive CellType where
  | bool
  | u8
  | i8
  | f8e5m2
  | f8e4m3
  | i16
  | u16
  | f16
  | bf16
  | i32
  | u32
  | f32
  | f64
  | i64
  | u64
deriving DecidableEq

namespace CellType

def all : List CellType :=
  [bool, u8, i8, f8e5m2, f8e4m3, i16, u16, f16, bf16, i32, u32, f32, f64, i64, u64]

def name : CellType → String
  | bool => "BOOL"
  | u8 => "U8"
  | i8 => "I8"
  | f8e5m2 => "F8_E5M2"
  | f8e4m3 => "F8_E4M3"
  | i16 => "I16"
  | u16 => "U16"
  | f16 => "F16"
  | bf16 => "BF16"
  | i32 => "I32"
  | u32 => "U32"
  | f32 => "F32"
  | f64 => "F64"
  | i64 => "I64"
  | u64 => "U64"

def width : CellType → Nat
  | bool | u8 | i8 | f8e5m2 | f8e4m3 => 1
  | i16 | u16 | f16 | bf16 => 2
  | i32 | u32 | f32 => 4
  | f64 | i64 | u64 => 8

def named? (text : String) : Option CellType := all.find? (·.name == text)

theorem named?_name (t : CellType) : named? t.name = some t := by cases t <;> decide

end CellType

/-- What a header says about one tensor; its bytes are those of the data from `start` up to
`stop`. -/
structure Entry where
  type : CellType
  dims : List Nat
  start : Nat
  stop : Nat
deriving DecidableEq

inductive Error where
  | headerTooSmall
  | headerTooLarge
  | headerBeyondEnd
  | headerNotText
  | headerNotEntries
  | misplacedTensor (name : String)
  | sizeOverflow
  | sizeMismatch
  | dataNotCovered
  | tensorNotFound (name : String)
  | invalidView (type : CellType) (dims : List Nat) (length : Nat)
deriving DecidableEq

def Error.name : Error → String
  | headerTooSmall => "HeaderTooSmall"
  | headerTooLarge => "HeaderTooLarge"
  | headerBeyondEnd => "InvalidHeaderLength"
  | headerNotText => "InvalidHeader"
  | headerNotEntries => "InvalidHeaderDeserialization"
  | misplacedTensor name => "InvalidOffset(" ++ Text.quote name ++ ")"
  | sizeOverflow => "ValidationOverflow"
  | sizeMismatch => "TensorInvalidInfo"
  | dataNotCovered => "MetadataIncompleteBuffer"
  | tensorNotFound name => "TensorNotFound(" ++ Text.quote name ++ ")"
  | invalidView type dims length =>
    "InvalidTensorView(" ++ type.name ++ ", " ++ dimsText dims ++ ", " ++ toString length ++ ")"

/-! ## Headers -/

def onlyMember? (name : String) (members : List (String × Json)) : Option Json :=
  match members.filter (·.1 == name) with
  | [(_, value)] => some value
  | _ => none

def CellType.ofJson? : Json → Option CellType
  | .string text => named? text
  | .object [(text, .null)] => named? text
  | _ => none

/-- A size is a natural number of the machine. -/
def size? : Json → Option Nat
  | .natural n => if n < Size.limit then some n else none
  | _ => none

def dims? : Json → Option (List Nat)
  | .array items => items.mapM size?
  | _ => none

def range? : Json → Option (Nat × Nat)
  | .array [start, stop] => do
    let start ← size? start
    let stop ← size? stop
    some (start, stop)
  | _ => none

def Entry.ofParts? (type dims range : Json) : Option Entry := do
  let type ← CellType.ofJson? type
  let dims ← dims? dims
  let (start, stop) ← range? range
  some ⟨type, dims, start, stop⟩

/-- An entry is an object with three members or the array of their values. -/
def Entry.ofJson? : Json → Option Entry
  | .array [type, dims, range] => ofParts? type dims range
  | .object members => do
    let type ← onlyMember? "dtype" members
    let dims ← onlyMember? "shape" members
    let range ← onlyMember? "data_offsets" members
    ofParts? type dims range
  | _ => none

def notesKey : String := "__metadata__"

def isText : Json → Bool
  | .string _ => true
  | _ => false

/-- Free notes map texts to texts; they may be missing or null. -/
def notesValid (members : List (String × Json)) : Bool :=
  match members.filter (·.1 == notesKey) with
  | [] => true
  | [(_, .null)] => true
  | [(_, .object notes)] => notes.all fun note => isText note.2
  | _ => false

/-- Of several entries with one name the last one counts. -/
def lastOfEachName : List (String × Entry) → List (String × Entry)
  | [] => []
  | e :: rest =>
    if rest.any (·.1 == e.1) then lastOfEachName rest else e :: lastOfEachName rest

def Entry.startsNotAfter (a b : Entry) : Bool :=
  a.start < b.start || (a.start == b.start && a.stop ≤ b.stop)

/-- The entries of a header in the order of their ranges. -/
def entries? (header : List Char) : Option (List (String × Entry)) := do
  let .object members ← Json.parse? header | none
  if notesValid members then
    let tensors ← (members.filter (·.1 != notesKey)).mapM fun (name, value) => do
      let entry ← Entry.ofJson? value
      some (name, entry)
    some ((lastOfEachName tensors).mergeSort fun a b => a.2.startsNotAfter b.2)
  else none

/-! ## Reading -/

/-- The number of bytes that an entry's type and shape ask for, if it fits in 64 bits. -/
def Entry.byteCount? (e : Entry) : Option Nat := do
  let count ← Size.checkedProd e.dims
  if count * e.type.width < Size.limit then some (count * e.type.width) else none

/-- Checks that the ranges follow one another from `start` on and have the right lengths, and
gives the end of the last one. -/
def tile : Nat → List (String × Entry) → Except Error Nat
  | start, [] => .ok start
  | start, (name, e) :: rest =>
    if e.start ≠ start ∨ e.stop < e.start then .error (.misplacedTensor name)
    else
      match e.byteCount? with
      | none => .error .sizeOverflow
      | some count => if e.stop - e.start ≠ count then .error .sizeMismatch else tile e.stop rest

def maxHeaderLength : Nat := 100000000

def read (bs : Bytes) : Except Error (List (String × Entry) × Bytes) := do
  if bs.length < 8 then throw .headerTooSmall
  let n := Bytes.toNat (bs.take 8)
  if maxHeaderLength < n then throw .headerTooLarge
  if bs.length < 8 + n then throw .headerBeyondEnd
  let some header := Utf8.decode? ((bs.drop 8).take n) | throw .headerNotText
  let some entries := entries? header | throw .headerNotEntries
  let stop ← tile 0 entries
  let data := bs.drop (8 + n)
  if data.length ≠ stop then throw .dataNotCovered
  return (entries, data)

def readTensor (name : String) (bs : Bytes) : Except Error (Entry × Bytes) := do
  let (entries, data) ← read bs
  match entries.lookup name with
  | none => throw (.tensorNotFound name)
  | some e => return (e, (data.drop e.start).take (e.stop - e.start))

/-! ## Writing -/

def dimsChars (dims : List Nat) : List Char :=
  ['['] ++ [','].intercalate (dims.map Decimal.digits) ++ [']']

/-- The header of a container that holds one tensor. -/
def headerChars (name : String) (type : CellType) (dims : List Nat) (length : Nat) : List Char :=
  ['\x7b', '"'] ++ name.toList ++ "\":\x7b\"dtype\":\"".toList ++ type.name.toList ++
    "\",\"shape\":".toList ++ dimsChars dims ++ ",\"data_offsets\":[0,".toList ++
    Decimal.digits length ++ [']', '\x7d', '\x7d']

def fillChars (header : List Char) : List Char := List.replicate ((8 - header.length % 8) % 8) ' '

/-- The container of one tensor, whose name must need no escape in JSON. -/
def write (name : String) (type : CellType) (dims : List Nat) (data : Bytes) :
    Except Error Bytes :=
  if data.length ≠ Size.mul (Size.prod dims) type.width then
    .error (.invalidView type dims data.length)
  else
    let header := headerChars name type dims data.length
    let text := Utf8.encode (header ++ fillChars header)
    .ok (Bytes.ofNat 8 text.length ++ text ++ data)

end LatentCache.Container
