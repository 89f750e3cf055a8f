import LatentCache.Host.FileTree
import LatentCache.Storage.Medium
import LatentCache.Storage.Service
import LatentCache.Storage.ServiceUrl

/-!
# Storage in a cache service

Two clients of one service. The plain client makes one round trip a command and stops a batch at
its first failure; the pipelined client sends a whole batch before it reads an answer. Both put
the same text in front of every hexadecimal address.
-/

namespace LatentCache

/-- A service and the way to it. `failures` holds the transient failures that clients reported, the
latest one last. -/
structure Link where
  reachable : Bool
  service : Service
  failures : List String

namespace Link

def send (link : Link) (command : Service.Command) : Service.Reply × Link :=
  let (reply, service) := link.service.handle command
  (reply, { link with service := service })

def report (link : Link) : StorageError → Link
  | .transient reason => { link with failures := link.failures ++ [reason] }
  | _ => link

end Link

inductive Client where
  | plain (keyPrefix : String)
  | pipelined (keyPrefix : String)
deriving DecidableEq

namespace Client

def kind : Client → BackendKind
  | plain _ => .service
  | pipelined _ => .pipelined

def keyPrefix : Client → String
  | plain p => p
  | pipelined p => p

def key (c : Client) (address : ContentAddress) : String := c.keyPrefix ++ address.toHex

/-! ## Answers of the service -/

def closedText : Client → String
  | plain _ => "unexpected end of file"
  | pipelined _ => "broken pipe"

def refusalText (code text : String) : String :=
  let signalled (kind : String) :=
    "An error was signalled by the server - " ++ kind ++
      (if text.isEmpty then "" else ": " ++ text)
  match code with
  | "ERR" => signalled "ResponseError"
  | "LOADING" => signalled "BusyLoadingError"
  | "READONLY" => signalled "ReadOnly"
  | _ => code ++ ": " ++ (if text.isEmpty then "Unknown extension error encountered" else text)

/-- What can go wrong with a command. -/
inductive CommandError where
  | timeout (text : String)
  | dropped (text : String)
  | connectionRefused (text : String)
  | io (text : String)
  /-- The service answered with an error. -/
  | response (text : String)
deriving DecidableEq

def CommandError.text : CommandError → String
  | timeout text | dropped text | connectionRefused text | io text | response text => text

/-- An error on the way to the service may pass, one that the service answered does not. -/
def classify : CommandError → StorageError
  | .timeout text | .dropped text | .connectionRefused text | .io text => .transient text
  | .response text => .backend text

def commandError? (c : Client) : Service.Reply → Option CommandError
  | .refused code text => some (.response (refusalText code text))
  | .closed => some (.dropped c.closedText)
  | _ => none

/-- The failure that a reply means to a client, if it means one. -/
def failure? (c : Client) (reply : Service.Reply) : Option StorageError :=
  (c.commandError? reply).map classify

/-! ## Records -/

def get (c : Client) (address : ContentAddress) (link : Link) :
    Except StorageError (Option Bytes) × Link :=
  match link.send (.get (c.key address)) with
  | (.value found, link) => (.ok found, link)
  | (reply, link) =>
    match c.failure? reply with
    | some e => (.error e, link.report e)
    | none => (.ok none, link)

def put (c : Client) (address : ContentAddress) (value : Bytes) (link : Link) :
    Except StorageError Unit × Link :=
  let (reply, link) := link.send (.set (c.key address) value)
  match c.failure? reply with
  | some e => (.error e, link.report e)
  | none => (.ok (), link)

/-- One command after another; the first failure ends the batch. -/
def putEach (c : Client) : List Record → Link → Except StorageError Unit × Link
  | [], link => (.ok (), link)
  | (address, value) :: rest, link =>
    match c.put address value link with
    | (.ok (), link) => putEach c rest link
    | (.error e, link) => (.error e, link)

/-- Sends all commands and gives the failure that the first bad reply means. -/
def sendAll (c : Client) : List Record → Link → Option StorageError × Link
  | [], link => (none, link)
  | (address, value) :: rest, link =>
    let (reply, link) := link.send (.set (c.key address) value)
    let (later?, link) := sendAll c rest link
    ((c.failure? reply).or later?, link)

def batchPut (c : Client) (records : List Record) (link : Link) :
    Except StorageError Unit × Link :=
  match c with
  | plain _ => c.putEach records link
  | pipelined _ =>
    match c.sendAll records link with
    | (some e, link) => (.error e, link.report e)
    | (none, link) => (.ok (), link)

def medium (c : Client) : Medium Link :=
  { kind := c.kind
    get := c.get
    put := c.put
    batchPut := c.batchPut }

/-! ## Connecting -/

/-- The commands that tell a service for whom a connection is. -/
def introduction (url : ServiceUrl) : List Service.Command :=
  match url.newProtocol, url.password? with
  | true, none => [.hello []]
  | true, some password => [.hello [url.username?.getD "default", password]]
  | false, none => []
  | false, some password => [.auth (url.username?.toList ++ [password])]

def greeting (url : ServiceUrl) : List Service.Command :=
  let choice := if url.database = 0 then [] else [.select (Decimal.signedText url.database)]
  introduction url ++ choice ++ [.ping]

def greet (c : Client) : List Service.Command → Link → Option CommandError × Link
  | [], link => (none, link)
  | command :: rest, link =>
    let (reply, link) := link.send command
    match c.commandError? reply with
    | some e => (some e, link)
    | none => greet c rest link

def unreachableText : String := "Network is unreachable (os error 101)"

def unknownHostText : String :=
  "failed to lookup address information: Temporary failure in name resolution"

def refusedText : String := "Connection refused (os error 111)"

def socketPathFlaw? (path : Bytes) : Option String :=
  if path.contains 0 then some "paths must not contain interior null bytes"
  else if 108 ≤ path.length then some "path must be shorter than SUN_LEN"
  else none

/-- Why no connection can be made. No service listens at a socket. -/
def obstacle? (files : FileTree) (link : Link) : ServiceLocation → Option String
  | .network host =>
    if link.reachable then none
    else some (if Url.isLocated host then unreachableText else unknownHostText)
  | .socket path =>
    match socketPathFlaw? path, files.read ((Utf8.decodeText? path).getD "") with
    | some flaw, _ => some flaw
    | none, .ok _ => some refusedText
    | none, .error .isDirectory => some refusedText
    | none, .error e => some e.message

/-- Connects a client and makes sure that the service answers. -/
def connect (c : Client) (text : String) (files : FileTree) (link : Link) :
    Except StorageError Client × Link :=
  let refuse (reason : String) : StorageError := .unavailable (text ++ ": " ++ reason)
  match ServiceUrl.parse text with
  | .error e => (.error (refuse e.message), link)
  | .ok url =>
    match obstacle? files link url.location with
    | some reason => (.error (refuse reason), link)
    | none =>
      match c.greet (greeting url) link with
      | (some e, link) => (.error (refuse e.text), link)
      | (none, link) => (.ok c, link)

end Client

end LatentCache
