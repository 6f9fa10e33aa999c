import TypedValues.Text.Alphabetic
import TypedValues.Text.Numeric

/-!
# Identifiers

Names of aliases, sorts, constructors and annotations are identifiers: a letter followed by
letters, digits and points.
-/

namespace TypedValues.Text

def isAlphabetic (c : Char) : Bool := alphabetic.contains c

def isAlphanumeric (c : Char) : Bool := alphabetic.contains c || numeric.contains c

/-- An identifier starts with an alphabetic character; alphanumeric characters and points follow. -/
def isIdentifier (name : String) : Bool :=
  match name.toList with
  | [] => false
  | first :: rest => isAlphabetic first && rest.all fun c => isAlphanumeric c || c == '.'

end TypedValues.Text
