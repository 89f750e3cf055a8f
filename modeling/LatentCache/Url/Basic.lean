import LatentCache.Text.Utf8
import LatentCache.Url.Host

/-!
# URLs

The division of a URL into its parts, for schemes that give no meaning of their own to hosts and
paths. A text without a scheme or with an unsound host is no URL.
-/

namespace LatentCache

structure Url where
  /-- In lower case. -/
  scheme : String
  username : List Char := []
  password? : Option (List Char) := none
  /-- Empty where the URL names no host. -/
  host : List Char := []
  /-- Starts with a slash unless it is empty or the URL has no hierarchy. -/
  path : List Char
  query? : Option (List Char) := none
deriving DecidableEq

namespace Url

/-- A text less the control characters and spaces at its ends, and less its tabs and line ends. -/
def clean (cs : List Char) : List Char :=
  let blank (c : Char) : Bool := c.toNat ≤ 0x20
  let inner := ((cs.dropWhile blank).reverse.dropWhile blank).reverse
  inner.filter fun c => c != '\t' && c != '\n' && c != '\r'

def scheme? (cs : List Char) : Option (String × List Char) :=
  let name := cs.takeWhile (· != ':')
  let sound := name.head?.any Char.isAlpha &&
    name.all fun c => c.isAlphanum || c == '+' || c == '-' || c == '.'
  match cs.drop name.length with
  | ':' :: rest => if sound then some ((String.ofList name).toLower, rest) else none
  | _ => none

/-! ## Paths -/

/-- The number of dots that a text consists of; each of them may be percent-encoded. -/
def dotCount? : List Char → Option Nat
  | [] => some 0
  | '.' :: rest => (dotCount? rest).map (· + 1)
  | '%' :: '2' :: 'e' :: rest => (dotCount? rest).map (· + 1)
  | '%' :: '2' :: 'E' :: rest => (dotCount? rest).map (· + 1)
  | _ => none

/-- Follows the segments of a path from left to right: one dot stays, two dots go back. The
segments passed so far come first, the latest one at the front. -/
def follow : List (List Char) → List (List Char) → List (List Char)
  | passed, [] => passed.reverse
  | passed, segment :: rest =>
    let passed := if dotCount? segment = some 2 then passed.tail else passed
    let isStep := dotCount? segment = some 1 || dotCount? segment = some 2
    if !isStep then follow (segment :: passed) rest
    else if rest.isEmpty then ([] :: passed).reverse
    else follow passed rest

def pathOf : List Char → List Char
  | [] => []
  | '/' :: rest => (follow [] (rest.splitOn '/')).flatMap ('/' :: ·)
  | cs => (follow [] (cs.splitOn '/')).flatMap ('/' :: ·)

/-! ## Authorities -/

def cutAtSign (cs : List Char) : Option (List Char) × List Char :=
  let back := cs.reverse.takeWhile (· != '@')
  if back.length = cs.length then (none, cs)
  else (some (cs.take (cs.length - back.length - 1)), back.reverse)

def hostText : (inBrackets : Bool) → List Char → List Char
  | _, [] => []
  | inBrackets, c :: rest =>
    if c == ':' && !inBrackets then []
    else c :: hostText (if c == '[' then true else if c == ']' then false else inBrackets) rest

/-- The text after the number of a service, which has 16 bits at most and may be missing. It is
empty or starts with a backslash. -/
def afterNumber? (cs : List Char) : Option (List Char) :=
  let digits := cs.takeWhile Char.isDigit
  let rest := cs.drop digits.length
  if 65535 < Decimal.ofDigits digits then none
  else if rest.isEmpty || rest.head? == some '\\' then some rest
  else none

/-- The user and the host that stand between two slashes and the path. What is left of the text
belongs to the path. An at sign with nothing before it and no host after it has to end the URL. -/
def authority? (url : Url) (cs : List Char) (endsUrl : Bool) : Option (Url × List Char) := do
  let (user?, place) := cutAtSign cs
  let user := user?.getD []
  let username := user.takeWhile (· != ':')
  let password := user.drop (username.length + 1)
  let host := hostText false place
  let afterHost := place.drop host.length
  let hasUser := !username.isEmpty || !password.isEmpty
  if !isHost host then none
  if host.isEmpty && (hasUser || !afterHost.isEmpty) then none
  if user? == some [] && place.isEmpty && !endsUrl then none
  let rest ← match afterHost with
    | ':' :: rest => afterNumber? rest
    | rest => some rest
  let url := { url with
    username := username
    password? := if password.isEmpty then none else some password
    host := host }
  return (url, rest)

def parse? (text : String) : Option Url := do
  let (scheme, rest) ← scheme? (clean text.toList)
  let unfragmented := rest.takeWhile (· != '#')
  let place := unfragmented.takeWhile (· != '?')
  let query? := match unfragmented.drop place.length with
    | '?' :: query => some query
    | _ => none
  match place with
  | '/' :: '/' :: located => do
    let authority := located.takeWhile (· != '/')
    let path := located.drop authority.length
    let url : Url := { scheme := scheme, path := [], query? := query? }
    let (url, left) ← authority? url authority (rest.length == authority.length + 2)
    return { url with path := pathOf (left ++ path) }
  | '/' :: _ => return { scheme := scheme, path := pathOf place, query? := query? }
  | _ => return { scheme := scheme, path := place, query? := query? }

def queryPairs (url : Url) : List (List Char × List Char) :=
  let pieces := ((url.query?.getD []).splitOn '&').filter (!·.isEmpty)
  pieces.map fun piece =>
    let name := piece.takeWhile (· != '=')
    (name, piece.drop (name.length + 1))

end Url

/-!
## Percent encoding

A percent sign with two hexadecimal digits stands for the byte that the digits denote.
-/

namespace Percent

/-- The bytes of a text in which encoded bytes are decoded. A percent sign that no two hexadecimal
digits follow stands for itself. -/
def decode : List Char → Bytes
  | '%' :: high :: low :: rest =>
    match Hex.value? high, Hex.value? low with
    | some h, some l => UInt8.ofNat (16 * h + l) :: decode rest
    | _, _ => 0x25 :: decode (high :: low :: rest)
  | c :: rest => String.utf8EncodeChar c ++ decode rest
  | [] => []

def decodeText? (cs : List Char) : Option String := Utf8.decodeText? (decode cs)

end Percent

end LatentCache
