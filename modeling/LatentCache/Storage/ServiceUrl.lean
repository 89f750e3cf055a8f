import LatentCache.Url.Basic

/-!
# URLs of cache services

A URL leads to a service through a network or through a socket in a directory, and says which
database, which user and which version of the protocol a connection is for.
-/

namespace LatentCache

inductive UrlError where
  | unreadable
  | noHost
  | noPath
  | secured
  | invalidDatabase
  | unreadableUsername
  | unreadablePassword
  | unknownProtocol (name : String)
deriving DecidableEq

def UrlError.message : UrlError → String
  | unreadable => "Redis URL did not parse- InvalidClientConfig"
  | noHost => "Missing hostname- InvalidClientConfig"
  | noPath => "Missing path- InvalidClientConfig"
  | secured => "can't connect with TLS, the feature is not enabled- InvalidClientConfig"
  | invalidDatabase => "Invalid database number- InvalidClientConfig"
  | unreadableUsername => "Username is not valid UTF-8 string- InvalidClientConfig"
  | unreadablePassword => "Password is not valid UTF-8 string- InvalidClientConfig"
  | unknownProtocol name => "Invalid protocol version - InvalidClientConfig: " ++ name

inductive ServiceLocation where
  | network (host : List Char)
  | socket (path : Bytes)
deriving DecidableEq

structure ServiceUrl where
  location : ServiceLocation
  database : Int
  username? : Option String
  password? : Option String
  /-- Whether the newer one of the two protocols is asked for. -/
  newProtocol : Bool
deriving DecidableEq

namespace ServiceUrl

/-- An optional sign and at least one digit, denoting a number of 64 bits. -/
def signed? (cs : List Char) : Option Int :=
  let (negative, digits) := match cs with
    | '-' :: rest => (true, rest)
    | '+' :: rest => (false, rest)
    | _ => (false, cs)
  let n := Decimal.ofDigits digits
  let limit := Size.limit / 2
  if digits.isEmpty || !digits.all Char.isDigit then none
  else if negative then if n ≤ limit then some (-n) else none
  else if n < limit then some n
  else none

def parseDatabase (name : List Char) : Except UrlError Int :=
  match signed? name with
  | some n => .ok n
  | none => .error .invalidDatabase

/-- The database that a path names between the slashes at its ends; no name means the first one. -/
def databaseOfPath (path : List Char) : Except UrlError Int :=
  let isSlash (c : Char) : Bool := c == '/'
  match ((path.dropWhile isSlash).reverse.dropWhile isSlash).reverse with
  | [] => .ok 0
  | name => parseDatabase name

/-- The value that a query gives a name last; in a query a plus sign stands for a space. -/
def parameter? (url : Url) (name : String) : Option String :=
  let text (cs : List Char) : String :=
    let spaced := cs.map fun c => if c == '+' then ' ' else c
    String.ofList (Utf8.decodeLenient (Percent.decode spaced))
  let pairs := url.queryPairs.map fun (key, value) => (text key, text value)
  pairs.reverse.lookup name

def asksNewProtocol (url : Url) : Except UrlError Bool :=
  match parameter? url "protocol" with
  | none | some "2" | some "resp2" => .ok false
  | some "3" | some "resp3" => .ok true
  | some name => .error (.unknownProtocol name)

def decodeOr (e : UrlError) (cs : List Char) : Except UrlError String :=
  match Percent.decodeText? cs with
  | some text => .ok text
  | none => .error e

def ofNetwork (url : Url) (secured : Bool) : Except UrlError ServiceUrl := do
  if url.host.isEmpty then throw .noHost
  if secured then throw .secured
  return {
    location := .network url.host
    database := ← databaseOfPath url.path
    username? := ←
      if url.username.isEmpty then pure none
      else some <$> decodeOr .unreadableUsername url.username
    password? := ← url.password?.mapM (decodeOr .unreadablePassword)
    newProtocol := ← asksNewProtocol url }

def ofSocket (url : Url) : Except UrlError ServiceUrl := do
  if url.path.head? != some '/' || !(url.host.isEmpty || String.ofList url.host == "localhost") then
    throw .noPath
  return {
    location := .socket (Percent.decode url.path)
    database := ← match parameter? url "db" with
      | none => pure 0
      | some name => parseDatabase name.toList
    username? := parameter? url "user"
    password? := parameter? url "pass"
    newProtocol := ← asksNewProtocol url }

def parse (text : String) : Except UrlError ServiceUrl :=
  match Url.parse? text with
  | none => .error .unreadable
  | some url =>
    match url.scheme with
    | "redis" | "valkey" => ofNetwork url false
    | "rediss" | "valkeys" => ofNetwork url true
    | "unix" | "redis+unix" | "valkey+unix" => ofSocket url
    | _ => .error .unreadable

end ServiceUrl

end LatentCache
