import TypedValues.Text.Quoted
import TypedValues.Ty.Text
import TypedValues.Value.Basic

/-!
# The text of a value

Tuples stand in angle brackets, lists in square ones, sets in braces and maps in parentheses. A node
is shown like a call of its constructor, its annotations behind it in the order of their labels.
-/

namespace TypedValues.Value

/-- Annotations, already as text, in the order of their labels. -/
def annotationsText (texts : List (String × String)) : String :=
  if texts.isEmpty then ""
  else
    let sorted := texts.mergeSort fun a b => decide (a.1 ≤ b.1)
    "[" ++ ",".intercalate (sorted.map fun (label, t) => "@" ++ label ++ "=" ++ t) ++ "]"

mutual
def text : Value → String
  | .int n => toString n.toInt
  | .real x => x.text
  | .str s => Text.quoted s
  | .loc l => l.text
  | .object ty _ => ty.text
  | .tuple _ fields => "<" ++ ",".intercalate (texts fields) ++ ">"
  | .list _ elements => "[" ++ ",".intercalate (texts elements) ++ "]"
  | .set _ elements => "\x7b" ++ ",".intercalate (texts elements) ++ "\x7d"
  | .map _ _ entries => "(" ++ ",".intercalate (entryTexts entries) ++ ")"
  | .node ty children annotations =>
    let node : NodeValue := ⟨ty, children, annotations⟩
    node.name?.getD node.sort.text ++ "(" ++ ",".intercalate (texts children) ++ ")" ++
      annotationsText (labelTexts annotations)

def texts : List Value → List String
  | [] => []
  | v :: vs => text v :: texts vs

def entryTexts : List (Value × Value) → List String
  | [] => []
  | (k, v) :: es => (text k ++ ":" ++ text v) :: entryTexts es

def labelTexts : List (String × Value) → List (String × String)
  | [] => []
  | (label, v) :: as => (label, text v) :: labelTexts as
end

mutual
/-- Whether the text shows the order in which some set or map keeps what it holds. -/
def showsOrder : Value → Bool
  | .int _ | .real _ | .str _ | .loc _ | .object .. => false
  | .tuple _ vs | .list _ vs => anyShowsOrder vs
  | .set _ vs => 2 ≤ vs.length || anyShowsOrder vs
  | .map _ _ entries => 2 ≤ entries.length || anyEntryShowsOrder entries
  | .node _ vs annotations => anyShowsOrder vs || anyLabelShowsOrder annotations

def anyShowsOrder : List Value → Bool
  | [] => false
  | v :: vs => showsOrder v || anyShowsOrder vs

def anyEntryShowsOrder : List (Value × Value) → Bool
  | [] => false
  | (k, v) :: es => showsOrder k || showsOrder v || anyEntryShowsOrder es

def anyLabelShowsOrder : List (String × Value) → Bool
  | [] => false
  | (_, v) :: as => showsOrder v || anyLabelShowsOrder as
end

end TypedValues.Value
