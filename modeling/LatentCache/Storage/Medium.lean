import LatentCache.Address
import LatentCache.Storage.Kind
import LatentCache.Storage.Table

/-!
# Storage media

A medium keeps records under content addresses. Every operation takes the state of the medium to an
answer and the state after it, also where it fails. A missing record is an answer and no failure.
-/

namespace LatentCache

inductive StorageError where
  | unavailable (reason : String)
  | transient (reason : String)
  | backend (reason : String)
deriving DecidableEq

namespace StorageError

def message : StorageError → String
  | unavailable reason => "Storage medium unavailable: " ++ reason
  | transient reason => "Transient storage failure: " ++ reason
  | backend reason => "Storage backend error: " ++ reason

def isTransient : StorageError → Bool
  | transient _ => true
  | _ => false

end StorageError

abbrev Record := ContentAddress × Bytes

def Record.totalLength : List Record → Nat
  | [] => 0
  | record :: rest => record.2.length + totalLength rest

structure Medium (σ : Type) where
  kind : BackendKind
  get : ContentAddress → σ → Except StorageError (Option Bytes) × σ
  put : ContentAddress → Bytes → σ → Except StorageError Unit × σ
  batchPut : List Record → σ → Except StorageError Unit × σ

/-- A medium whose state is a part of a larger state. -/
def Medium.within {σ τ : Type} (part : τ → σ) (replace : σ → τ → τ) (m : Medium σ) : Medium τ :=
  { kind := m.kind
    get := fun key t =>
      let (answer, s) := m.get key (part t)
      (answer, replace s t)
    put := fun key value t =>
      let (answer, s) := m.put key value (part t)
      (answer, replace s t)
    batchPut := fun records t =>
      let (answer, s) := m.batchPut records (part t)
      (answer, replace s t) }

/-! ## Storage in memory -/

/-- A table of records that lasts as long as the process. -/
abbrev Memory := Table ContentAddress

def Memory.medium : Medium Memory :=
  { kind := .memory
    get := fun key t => (.ok (t.get? key), t)
    put := fun key value t => (.ok (), t.insert key value)
    batchPut := fun records t => (.ok (), t.insertAll records) }

end LatentCache
