/-!
# Kinds of storage

The media that can hold records, with the names by which they are chosen.
-/

namespace LatentCache

inductive BackendKind where
  | memory
  | mapped
  | service
  | pipelined
deriving DecidableEq

structure UnknownBackend where
  name : String
deriving DecidableEq

def UnknownBackend.message (e : UnknownBackend) : String := "unknown backend '" ++ e.name ++ "'"

namespace BackendKind

def name : BackendKind → String
  | memory => "memory"
  | mapped => "lmdb"
  | service => "redis"
  | pipelined => "redis-pipelined"

def named? : String → Option BackendKind
  | "memory" | "map" => some memory
  | "lmdb" => some mapped
  | "redis" => some service
  | "redis-pipelined" | "redis_pipelined" => some pipelined
  | _ => none

theorem named?_name (k : BackendKind) : named? k.name = some k := by cases k <;> rfl

def parse (text : String) : Except UnknownBackend BackendKind :=
  match named? text.toLower with
  | some k => .ok k
  | none => .error ⟨text.toLower⟩

end BackendKind

end LatentCache
