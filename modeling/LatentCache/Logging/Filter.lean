import LatentCache.Logging.Field
import LatentCache.Text.Decimal
import LatentCache.Text.Utf8

/-!
# Log filters

A filter is a list of directives between commas. A directive limits the level of events, for all
of them or for those of one target, span or field.
-/

namespace LatentCache.Logging

inductive Level where
  | off
  | error
  | warn
  | info
  | debug
  | trace
deriving DecidableEq

def Level.all : List Level := [off, error, warn, info, debug, trace]

def Level.name : Level → String
  | off => "off"
  | error => "error"
  | warn => "warn"
  | info => "info"
  | debug => "debug"
  | trace => "trace"

/-- The level that a number up to five or a name in any ASCII case denotes. -/
def Level.named? (text : List Char) : Option Level :=
  match Decimal.size? text with
  | some n => Level.all[n]?
  | none => Level.all.find? (·.name == (String.ofList text).toLower)

inductive FilterError where
  | invalidDirective
  | invalidLevel
  | invalidField (e : PatternError)
deriving DecidableEq

def FilterError.message : FilterError → String
  | invalidDirective => "invalid filter directive"
  | invalidLevel =>
    "error parsing level filter: expected one of \"off\", \"error\", \"warn\", \"info\", " ++
      "\"debug\", \"trace\", or a number 0-5"
  | invalidField e => "invalid field filter: " ++ e.message

structure Directive where
  level : Level
  target? : Option String
  span? : Option String
  field? : Option String

/-- A piece of a filter, in UTF-8, with the same piece less the blanks at its ends. The structure of
a directive is found in `trimmed`, its texts are cut out of `whole` at the same positions. -/
structure Piece where
  whole : Bytes
  trimmed : List Char

namespace Piece

def ofText (cs : List Char) : Piece := ⟨Utf8.encode cs, Text.trim cs⟩

/-- The number of bytes before a position, which is given by what follows it in `trimmed`. -/
def offset (p : Piece) (rest : List Char) : Nat :=
  (Utf8.encode p.trimmed).length - (Utf8.encode rest).length

def between (p : Piece) (fromRest toRest : List Char) : String :=
  (Utf8.decodeText? ((p.whole.take (p.offset toRest)).drop (p.offset fromRest))).getD ""

def after (p : Piece) (rest : List Char) : List Char :=
  (Utf8.decode? (p.whole.drop (p.offset rest))).getD []

/-- The level after an equals sign; none at all means the finest one. -/
def level (p : Piece) (rest : List Char) : Except FilterError Level :=
  match p.after rest with
  | [] => .ok .trace
  | text =>
    match Level.named? text with
    | some level => .ok level
    | none => .error .invalidLevel

/-- What follows the bracket that closes a span. -/
def finish (p : Piece) (target? span? field? : Option String) :
    List Char → Except FilterError Directive
  | [] => .ok ⟨.trace, target?, span?, field?⟩
  | '=' :: rest => do return ⟨← p.level rest, target?, span?, field?⟩
  | _ => .error .invalidDirective

def span (p : Piece) (target? : Option String) (cs : List Char) : Except FilterError Directive :=
  match cs.dropWhile fun c => c != ']' && c != '\x7b' with
  | ']' :: rest => p.finish target? (some (p.between cs (']' :: rest))) none rest
  | '\x7b' :: fields =>
    let name := p.between cs ('\x7b' :: fields)
    match fields.dropWhile (· != '\x7d') with
    | '\x7d' :: rest => do
      let field := p.between fields ('\x7d' :: rest)
      if field.isEmpty then throw .invalidDirective
      (checkField field).mapError FilterError.invalidField
      match rest with
      | ']' :: rest => p.finish target? (if name.isEmpty then none else some name) (some field) rest
      | _ => throw .invalidDirective
    | _ => .error .invalidDirective
  | _ => .error .invalidDirective

def startsDirective (c : Char) : Bool :=
  c == '-' || c == ':' || c == '_' || Text.isAlphanumeric c

def directive (p : Piece) : Except FilterError Directive :=
  match p.trimmed with
  | [] => .error .invalidDirective
  | '[' :: rest => p.span none rest
  | c :: cs =>
    if startsDirective c then
      match cs.dropWhile fun c => c != '=' && c != '[' with
      | '=' :: rest => do
        let level ← p.level rest
        return ⟨level, some (p.between p.trimmed ('=' :: rest)), none, none⟩
      | '[' :: rest => p.span (some (p.between p.trimmed ('[' :: rest))) rest
      | _ =>
        let text := p.after p.trimmed
        match Level.named? text with
        | some level => .ok ⟨level, none, none, none⟩
        | none => .ok ⟨.trace, some (String.ofList text), none, none⟩
    else .error .invalidDirective

end Piece

/-- The directives of a filter; empty pieces count for nothing. -/
def Directive.list (filter : String) : Except FilterError (List Directive) :=
  ((filter.toList.splitOn ',').filter (!·.isEmpty)).mapM fun cs => (Piece.ofText cs).directive

end LatentCache.Logging
