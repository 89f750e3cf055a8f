import LatentCache.Storage.Table

/-!
# A cache service

A table behind a network that answers one command after another. A fault makes it answer a later
command of one name with an error, or close the connection, instead of executing it.
-/

namespace LatentCache

namespace Service

inductive Command where
  | ping
  /-- Asks for the newer protocol, perhaps with a user name and a password. -/
  | hello (user : List String)
  /-- Gives a password, perhaps after a user name. -/
  | auth (user : List String)
  | select (database : String)
  | set (key : String) (value : Bytes)
  | get (key : String)
deriving DecidableEq

def Command.name : Command → String
  | ping => "PING"
  | hello _ => "HELLO"
  | auth _ => "AUTH"
  | select _ => "SELECT"
  | set _ _ => "SET"
  | get _ => "GET"

inductive Reply where
  | done
  | value (found : Option Bytes)
  /-- A code in capitals and a text, which may be empty. -/
  | refused (code text : String)
  | closed
deriving DecidableEq

/-- Lets `after` commands of a name through and answers the next one with `reply`. -/
structure Fault where
  command : String
  after : Nat
  reply : Reply
deriving DecidableEq

end Service

structure Service where
  table : Table String
  log : List Service.Command
  faults : List Service.Fault

namespace Service

def empty : Service := ⟨.empty, [], []⟩

/-- The reply of the oldest fault for a name if its turn has come, and the faults left. -/
def takeFault (name : String) : List Fault → Option Reply × List Fault
  | [] => (none, [])
  | fault :: rest =>
    if fault.command = name then
      match fault.after with
      | 0 => (some fault.reply, rest)
      | after + 1 => (none, { fault with after := after } :: rest)
    else
      let (reply, left) := takeFault name rest
      (reply, fault :: left)

def execute (s : Service) : Command → Reply × Service
  | .ping => (.done, s)
  | .hello _ => (.done, s)
  | .auth _ => (.done, s)
  | .select _ => (.done, s)
  | .set key value => (.done, { s with table := s.table.insert key value })
  | .get key => (.value (s.table.get? key), s)

def handle (s : Service) (command : Command) : Reply × Service :=
  let (fault?, faults) := takeFault command.name s.faults
  let s := { s with log := s.log ++ [command], faults := faults }
  match fault? with
  | some reply => (reply, s)
  | none => s.execute command

end Service

end LatentCache
