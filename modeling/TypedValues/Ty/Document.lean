import TypedValues.Ty.Descriptor

/-!
# Descriptors as documents

A document is a tree of texts, lists and records, the form in which data formats exchange things. A
descriptor of a leaf is written as its name, any other one as a record of a single field whose name is
the kind of type. The fields of a record are written in the order of their names and read in any order.
-/

namespace TypedValues

inductive Document where
  | null
  | text (s : String)
  | list (items : List Document)
  | record (fields : List (String × Document))

namespace Document

def ofName? : Option String → Document
  | none => .null
  | some name => .text name

/-- A name that may be missing. -/
def name? : Document → Option (Option String)
  | .null => some none
  | .text name => some (some name)
  | _ => none

/-- The text in the field of this name. -/
def textIn? (field : String) (fields : List (String × Document)) : Option String :=
  match fields.lookup field with
  | some (.text s) => some s
  | _ => none

/-- The name in the field of this name. A field left out says that there is none. -/
def nameIn? (field : String) (fields : List (String × Document)) : Option (Option String) :=
  match fields.lookup field with
  | some d => d.name?
  | none => some none

end Document

namespace Descriptor

mutual
def toDocument : Descriptor → Document
  | .value => .text "Value"
  | .void => .text "Void"
  | .int => .text "Integer"
  | .real => .text "Real"
  | .str => .text "String"
  | .loc => .text "SourceLocation"
  | .object kind => .record [("Object", .record [("kind", .text kind)])]
  | .tuple fields => .record [("Tuple", .record [("fields", .list (fieldDocuments fields))])]
  | .list element => .record [("List", .record [("element", toDocument element)])]
  | .set element => .record [("Set", .record [("element", toDocument element)])]
  | .map ⟨k, kl⟩ ⟨v, vl⟩ =>
    .record [("Map", .record [
      ("key", .record [("label", .ofName? kl), ("ty", toDocument k)]),
      ("value", .record [("label", .ofName? vl), ("ty", toDocument v)])])]
  | .aliasOf name aliased =>
    .record [("Named", .record [("aliased", toDocument aliased), ("name", .text name)])]
  | .sort name => .record [("Sort", .record [("name", .text name)])]
  | .constructor name sortName children =>
    .record [("Constructor", .record [("children", .list (fieldDocuments children)),
      ("name", .ofName? name), ("sort", .text sortName)])]

def fieldDocuments : List (Labeled Descriptor) → List Document
  | [] => []
  | ⟨d, label⟩ :: fields =>
    .record [("label", .ofName? label), ("ty", toDocument d)] :: fieldDocuments fields
end

def leaf? : String → Option Descriptor
  | "Value" => some .value
  | "Void" => some .void
  | "Integer" => some .int
  | "Real" => some .real
  | "String" => some .str
  | "SourceLocation" => some .loc
  | _ => none

mutual
/-- The descriptor that a document is written for. The fields of a record are found by name; labels
and the names of constructors may be left out. -/
def ofDocument? : Document → Option Descriptor
  | .text name => leaf? name
  | .record [("Object", .record fields)] => return .object (← Document.textIn? "kind" fields)
  | .record [("Tuple", .record fields)] => return .tuple (← fieldsIn? "fields" fields)
  | .record [("List", .record fields)] => return .list (← descriptorIn? "element" fields)
  | .record [("Set", .record fields)] => return .set (← descriptorIn? "element" fields)
  | .record [("Map", .record fields)] =>
    return .map (← fieldIn? "key" fields) (← fieldIn? "value" fields)
  | .record [("Named", .record fields)] =>
    return .aliasOf (← Document.textIn? "name" fields) (← descriptorIn? "aliased" fields)
  | .record [("Sort", .record fields)] => return .sort (← Document.textIn? "name" fields)
  | .record [("Constructor", .record fields)] =>
    return .constructor (← Document.nameIn? "name" fields) (← Document.textIn? "sort" fields)
      (← fieldsIn? "children" fields)
  | _ => none

/-- The descriptor in the field of this name. -/
def descriptorIn? (field : String) : List (String × Document) → Option Descriptor
  | [] => none
  | (name, d) :: rest => if field == name then ofDocument? d else descriptorIn? field rest

/-- The labeled descriptor that a document is written for. -/
def labeled? : Document → Option (Labeled Descriptor)
  | .record fields => return ⟨← descriptorIn? "ty" fields, ← Document.nameIn? "label" fields⟩
  | _ => none

/-- The labeled descriptor in the field of this name. -/
def fieldIn? (field : String) : List (String × Document) → Option (Labeled Descriptor)
  | [] => none
  | (name, d) :: rest => if field == name then labeled? d else fieldIn? field rest

/-- The labeled descriptors that these documents are written for. -/
def fieldsOf? : List Document → Option (List (Labeled Descriptor))
  | [] => some []
  | d :: ds => return (← labeled? d) :: (← fieldsOf? ds)

/-- The labeled descriptors in the list that the field of this name holds. -/
def fieldsIn? (field : String) : List (String × Document) → Option (List (Labeled Descriptor))
  | [] => none
  | (name, .list ds) :: rest => if field == name then fieldsOf? ds else fieldsIn? field rest
  | (name, _) :: rest => if field == name then none else fieldsIn? field rest
end

theorem name?_ofName? (name : Option String) : (Document.ofName? name).name? = some name := by
  cases name <;> rfl

mutual
/-- What is written can be read back. -/
theorem ofDocument?_toDocument : ∀ d : Descriptor, ofDocument? d.toDocument = some d
  | .tuple fields | .constructor _ _ fields => by
    simp [toDocument, ofDocument?, fieldsIn?, Document.textIn?, Document.nameIn?, List.lookup_cons,
      name?_ofName?, fieldsOf?_fieldDocuments fields]
  | .list d | .set d | .aliasOf _ d => by
    simp [toDocument, ofDocument?, descriptorIn?, Document.textIn?, List.lookup_cons,
      ofDocument?_toDocument d]
  | .map ⟨k, _⟩ ⟨v, _⟩ => by
    simp [toDocument, ofDocument?, fieldIn?, labeled?, descriptorIn?, Document.nameIn?, name?_ofName?,
      ofDocument?_toDocument k, ofDocument?_toDocument v]
  | .value | .void | .int | .real | .str | .loc | .object _ | .sort _ => by
    simp [toDocument, ofDocument?, leaf?, Document.textIn?]

theorem fieldsOf?_fieldDocuments : ∀ fields : List (Labeled Descriptor),
    fieldsOf? (fieldDocuments fields) = some fields
  | [] => by simp [fieldDocuments, fieldsOf?]
  | ⟨d, _⟩ :: fields => by
    simp [fieldDocuments, fieldsOf?, labeled?, descriptorIn?, Document.nameIn?, name?_ofName?,
      ofDocument?_toDocument d, fieldsOf?_fieldDocuments fields]
end

end Descriptor
end TypedValues
