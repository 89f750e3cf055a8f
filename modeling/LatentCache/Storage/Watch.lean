import LatentCache.Storage.Medium

/-!
# Watched media

A watched medium notes every call, and lets a planned fault fail a call before it reaches the
medium.
-/

namespace LatentCache

inductive CallKind where
  | get
  | put
  | batchPut
deriving DecidableEq

/-- A call with its addresses and the lengths of its values. -/
inductive Call where
  | get (key : ContentAddress)
  | put (key : ContentAddress) (length : Nat)
  | batchPut (records : List (ContentAddress × Nat))
deriving DecidableEq

def Call.kind : Call → CallKind
  | get _ => .get
  | put _ _ => .put
  | batchPut _ => .batchPut

/-- Lets `after` calls of a kind through and fails the next one. -/
structure PlannedFault where
  kind : CallKind
  after : Nat
  error : StorageError
deriving DecidableEq

structure Watch where
  calls : List Call := []
  faults : List PlannedFault := []

namespace Watch

/-- The error of the oldest fault for a kind if its turn has come, and the faults left. -/
def takeFault (kind : CallKind) : List PlannedFault → Option StorageError × List PlannedFault
  | [] => (none, [])
  | fault :: rest =>
    if fault.kind = kind then
      match fault.after with
      | 0 => (some fault.error, rest)
      | after + 1 => (none, { fault with after := after } :: rest)
    else
      let (error?, left) := takeFault kind rest
      (error?, fault :: left)

def note (w : Watch) (call : Call) : Option StorageError × Watch :=
  let (error?, faults) := takeFault call.kind w.faults
  (error?, { calls := w.calls ++ [call], faults := faults })

def guard {σ α : Type} (call : Call) (act : σ → Except StorageError α × σ) (s : Watch × σ) :
    Except StorageError α × (Watch × σ) :=
  match s.1.note call with
  | (some e, w) => (.error e, (w, s.2))
  | (none, w) =>
    let (answer, t) := act s.2
    (answer, (w, t))

end Watch

def Medium.watched {σ : Type} (m : Medium σ) : Medium (Watch × σ) :=
  { kind := m.kind
    get := fun key => Watch.guard (.get key) (m.get key)
    put := fun key value => Watch.guard (.put key value.length) (m.put key value)
    batchPut := fun records =>
      Watch.guard (.batchPut (records.map fun r => (r.1, r.2.length))) (m.batchPut records) }

end LatentCache
