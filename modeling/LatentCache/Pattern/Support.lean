import LatentCache.Pattern.Reader

/-!
# Supported patterns

Which patterns an automaton can be made of. There are no tables of characters beyond ASCII, so a
pattern of characters cannot use shorthands, properties or letters regardless of case, and a pattern
of bytes cannot match what is no text. The edges of words have to be those of ASCII words.
-/

namespace LatentCache

inductive PatternError where
  | invalid
  | unicodeWordEdge
deriving DecidableEq

def PatternError.message : PatternError → String
  | invalid => "error building NFA"
  | unicodeWordEdge =>
    "unsupported regex feature for DFAs: cannot build DFAs for regexes with Unicode word " ++
      "boundaries; switch to ASCII word boundaries, or heuristically enable Unicode word " ++
      "boundaries or use a different regex engine"

namespace Pattern

structure Mode where
  ignoreCase : Bool := false
  /-- Whether characters are matched, and not bytes. -/
  unicode : Bool := true
deriving DecidableEq

def Mode.change (m : Mode) (changes : Changes) : Mode :=
  { ignoreCase := (changes.lookup .ignoreCase).getD m.ignoreCase
    unicode := (changes.lookup .unicode).getD m.unicode }

def Literal.isAscii (l : Literal) : Bool := l.char.toNat < 0x80

namespace CharClass

/-- Whether a set needs no tables. -/
def isPlain : CharClass → Bool
  | shorthand _ => false
  | property => false
  | bracket _ inner => inner.isPlain
  | union items item => items.isPlain && item.isPlain
  | operation _ left right => left.isPlain && right.isPlain
  | _ => true

def isBare : CharClass → Bool
  | empty => true
  | bracket _ inner => inner.isBare
  | union items item => items.isBare && item.isBare
  | operation _ left right => left.isBare && right.isBare
  | _ => false

/-- Whether a set and all sets it is made of are sets of ASCII characters. -/
def isAscii : CharClass → Bool
  | empty => true
  | literal l => l.isAscii
  | range low high => low.isAscii && high.isAscii
  | named negated => !negated
  | shorthand negated => !negated
  | property => false
  | bracket negated inner => !negated && inner.isAscii
  | union items item => items.isAscii && item.isAscii
  | operation _ left right => left.isAscii && right.isAscii

def isSupported (m : Mode) (set : CharClass) : Bool :=
  if m.unicode then set.isPlain && (!m.ignoreCase || set.isBare) else set.isAscii

end CharClass

def isSupportedLeaf (m : Mode) : Pattern → Bool
  | literal l => if m.unicode then !m.ignoreCase else !l.isByte || l.isAscii
  | any => m.unicode
  | shorthand negated => !m.unicode && !negated
  | property => false
  | bracket negated inner => (CharClass.bracket negated inner).isSupported m
  | _ => true

/-- The mode after a pattern, and whether it has an edge of words that are not ASCII. There is no
such mode if the pattern is not supported. Flags last to the end of the group around them. -/
def run? (m : Mode) : Pattern → Option (Mode × Bool)
  | flags changes => some (m.change changes, false)
  | repeated p => run? m p
  | group changes p => do
    let (_, edge) ← run? (m.change changes) p
    return (m, edge)
  | sequence items item => do
    let (m, edge) ← run? m items
    let (m, edge') ← run? m item
    return (m, edge || edge')
  | alternation branches branch => do
    let (m, edge) ← run? m branches
    let (m, edge') ← run? m branch
    return (m, edge || edge')
  | edgeOfWord => some (m, m.unicode)
  | leaf => if isSupportedLeaf m leaf then some (m, false) else none

def check (cs : List Char) : Except PatternError Unit :=
  match (read? cs).bind (run? {}) with
  | none => .error .invalid
  | some (_, true) => .error .unicodeWordEdge
  | some (_, false) => .ok ()

end Pattern

end LatentCache
