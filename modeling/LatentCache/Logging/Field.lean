import LatentCache.Pattern.Support

/-!
# Fields in log filters

A field has a name and, after an equals sign, perhaps a value. The value is a number or else a
pattern for the text of the field.
-/

namespace LatentCache.Logging

/-- Digits with at most one point among them, and at least one digit. -/
def isMantissa (cs : List Char) : Bool :=
  let whole := cs.takeWhile Char.isDigit
  match cs.drop whole.length with
  | [] => !whole.isEmpty
  | '.' :: fraction => fraction.all Char.isDigit && !(whole.isEmpty && fraction.isEmpty)
  | _ => false

def unsigned (cs : List Char) : List Char :=
  match cs with
  | '+' :: rest => rest
  | '-' :: rest => rest
  | _ => cs

def isNumber (cs : List Char) : Bool :=
  let body := unsigned cs
  let mantissa := body.takeWhile fun c => c != 'e' && c != 'E'
  let isScaled := isMantissa mantissa &&
    match body.drop mantissa.length with
    | [] => true
    | _ :: exponent => !(unsigned exponent).isEmpty && (unsigned exponent).all Char.isDigit
  isScaled || ["inf", "infinity", "nan"].contains (String.ofList body).toLower

def checkField (field : String) : Except PatternError Unit :=
  match (field.toList.splitOn '=')[1]? with
  | none => .ok ()
  | some value => if isNumber value then .ok () else Pattern.check value

end LatentCache.Logging
