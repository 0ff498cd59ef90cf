import Plinth.Packages.Database
import Plinth.Rbac.ChannelRules

/-!
# The grammars of package names

A package is named in its manifest, and every later stage tests the name by a grammar of its own:
the migrations and the function that provides the schema, the capabilities, the rules, the
JavaScript runtime, the channels, and the statement that drops the schema.
-/

namespace Plinth.Packages

open Core (byteSize)
open Capabilities Rbac Realtime List

variable (name : String)

def isNameChar (c : Char) : Bool := isLower c || isDigit c || c == '-'

/-- The name in a manifest. -/
def isNameValid : Bool :=
  !(byteSize name < 2 || 64 < byteSize name) && name.toList.head?.any isLower &&
    (name.toList.drop 1).all isNameChar

section Stages

variable {name : String} {first : Char} {tail ext : List Char}

theorem exists_of_isNameValid (valid : isNameValid name) :
    ∃ first tail, name.toList = first :: tail ∧ isLower first ∧
      ∀ c ∈ name.toList, isNameChar c := by
  simp only [isNameValid, Bool.and_eq_true] at valid
  cases isName : name.toList with
  | nil => simp [isName] at valid
  | cons first tail =>
    rw [isName] at valid
    refine ⟨first, tail, rfl, valid.1.2, ?_⟩
    intro c mem
    rcases mem_cons.mp mem with rfl | mem
    · have isFirst : isLower c := valid.1.2
      simp [isNameChar, isFirst]
    · exact all_eq_true.mp valid.2 c mem

end Stages

end Plinth.Packages
