import TypedValues.Ty.Basic

/-!
# The text of a type

Aliases, sorts and constructors are shown by name. Sets and lists of tuples have names of their own,
`rel` and `lrel`, unless the tuple is hidden behind an alias.
-/

namespace TypedValues.Ty

def labelText : Option String → String
  | some label => " " ++ label
  | none => ""

mutual
def text : Ty → String
  | .value => "value"
  | .void => "void"
  | .int => "int"
  | .real => "real"
  | .str => "str"
  | .loc => "loc"
  | .object _ kind => "object[" ++ kind ++ "]"
  | .tuple _ fields => "tuple[" ++ ", ".intercalate (fieldTexts fields) ++ "]"
  | .list _ (.tuple _ fields) => "lrel[" ++ ", ".intercalate (fieldTexts fields) ++ "]"
  | .list _ element => "list[" ++ text element ++ "]"
  | .set _ (.tuple _ fields) => "rel[" ++ ", ".intercalate (fieldTexts fields) ++ "]"
  | .set _ element => "set[" ++ text element ++ "]"
  | .map _ ⟨k, kl⟩ ⟨v, vl⟩ => "map[" ++ text k ++ labelText kl ++ ", " ++ text v ++ labelText vl ++ "]"
  | .aliasOf _ name _ => name
  | .sort _ name => name
  | .constructor _ name sortName _ children =>
    sortName ++ (name.map ("." ++ ·)).getD "" ++ "(" ++ ", ".intercalate (fieldTexts children) ++ ")"

def fieldTexts : List (Labeled Ty) → List String
  | [] => []
  | ⟨t, label⟩ :: fields => (text t ++ labelText label) :: fieldTexts fields
end

/-- The name of a type's kind. -/
def kindName : Ty → String
  | .value => "Value"
  | .void => "Void"
  | .int => "Integer"
  | .real => "Real"
  | .str => "String"
  | .loc => "SourceLocation"
  | .object .. => "Object"
  | .tuple .. => "Tuple"
  | .list .. => "List"
  | .set .. => "Set"
  | .map .. => "Map"
  | .aliasOf .. => "Named"
  | .sort .. => "Sort"
  | .constructor .. => "Constructor"

end TypedValues.Ty
