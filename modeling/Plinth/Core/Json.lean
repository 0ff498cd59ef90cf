import Mathlib

/-!
# Texts and JSON values

The values a JSON parser produces and the accessors that manifest readers use on them. An
object is the list of its members; a member is looked up by its first occurrence.
-/

namespace Plinth.Core

def byteSize (text : String) : Nat := (text.toList.map Char.utf8Size).sum

/-- What is left of a text that is passed as a C string: it ends before the first NUL. -/
def cString (text : String) : String := String.ofList (text.toList.takeWhile (· != '\x00'))

inductive Json where
  | null
  | bool (value : Bool)
  | number (literal : String)
  | string (value : String)
  | array (items : List Json)
  | object (members : List (String × Json))
  deriving Inhabited

namespace Json

def isObject : Json → Bool
  | object _ => true
  | _ => false

def get? (key : String) : Json → Option Json
  | object members => members.lookup key
  | _ => none

def asString? : Json → Option String
  | string value => some value
  | _ => none

def getString? (key : String) (json : Json) : Option String :=
  (json.get? key).bind asString?

end Json

/-- What reading a JSON file gives: no file, a syntax error with its position, or a value. -/
inductive JsonFile where
  | absent
  | malformed (line column : Option Nat) (what : String)
  | value (json : Json)
  deriving Inhabited

end Plinth.Core
