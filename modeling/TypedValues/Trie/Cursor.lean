import TypedValues.Trie.Basic

/-!
# Cursors

A cursor walks over a trie one entry at a time. It keeps a stack of frames, each with what is left to
visit at one node, the innermost first.
-/

namespace TypedValues

/-- What is left to visit at one node. -/
inductive Frame (κ ν : Type) where
  | children (ts : List (Trie κ ν))
  | entries (es : List (Entry κ ν))

abbrev Cursor (κ ν : Type) := List (Frame κ ν)

namespace Cursor
variable {κ ν : Type}

def frame : Trie κ ν → Frame κ ν
  | .leaf e => .entries [e]
  | .branch _ children => .children children
  | .chain _ es => .entries es

def start (t : Trie κ ν) : Cursor κ ν := [frame t]

mutual
/-- A bound on the steps a subtree takes. -/
def weight : Trie κ ν → Nat
  | .leaf _ => 3
  | .branch _ children => weights children + 2
  | .chain _ es => es.length + 2

def weights : List (Trie κ ν) → Nat
  | [] => 0
  | t :: ts => weight t + weights ts
end

def frameWeight : Frame κ ν → Nat
  | .children ts => weights ts + 1
  | .entries es => es.length + 1

/-- How much a cursor still has to do. -/
def remaining : Cursor κ ν → Nat
  | [] => 0
  | f :: rest => frameWeight f + remaining rest

theorem remaining_cons (f : Frame κ ν) (c : Cursor κ ν) :
    remaining (f :: c) = frameWeight f + remaining c := rfl

theorem frameWeight_children (ts : List (Trie κ ν)) :
    frameWeight (.children ts) = weights ts + 1 := rfl

theorem frameWeight_entries (es : List (Entry κ ν)) :
    frameWeight (.entries es) = es.length + 1 := rfl

theorem frameWeight_frame_lt (t : Trie κ ν) : frameWeight (frame t) < weight t := by
  cases t <;> simp [frame, frameWeight, weight]

/-- The next entry and the cursor behind it. -/
def next? : Cursor κ ν → Option (Entry κ ν × Cursor κ ν)
  | [] => none
  | .entries [] :: rest => next? rest
  | .entries (e :: es) :: rest => some (e, .entries es :: rest)
  | .children [] :: rest => next? rest
  | .children (.leaf e :: ts) :: rest => some (e, .children ts :: rest)
  | .children (t :: ts) :: rest => next? (frame t :: .children ts :: rest)
termination_by c => remaining c
decreasing_by
  · simp only [remaining_cons, frameWeight_entries]
    omega
  · simp only [remaining_cons, frameWeight_children]
    omega
  · have := frameWeight_frame_lt t
    simp only [remaining_cons, frameWeight_children, weights]
    omega

theorem remaining_next? {c d : Cursor κ ν} {e : Entry κ ν} (h : next? c = some (e, d)) :
    remaining d < remaining c := by
  fun_induction next? c with
  | case1 => simp at h
  | case2 rest ih | case4 rest ih =>
    have := ih h
    simp only [remaining_cons, frameWeight_children, frameWeight_entries] at this ⊢
    omega
  | case3 e es rest =>
    obtain ⟨rfl, rfl⟩ := by simpa using h
    simp [remaining_cons, frameWeight_entries]
  | case5 e ts rest =>
    obtain ⟨rfl, rfl⟩ := by simpa using h
    simp only [remaining_cons, frameWeight_children, weights, weight]
    omega
  | case6 t ts rest _ ih =>
    have := ih h
    have := frameWeight_frame_lt t
    simp only [remaining_cons, frameWeight_children, weights] at *
    omega

/-- All entries, one after the other. -/
def toList (c : Cursor κ ν) : List (Entry κ ν) :=
  match _h : next? c with
  | none => []
  | some (e, rest) => e :: rest.toList
termination_by remaining c
decreasing_by exact remaining_next? _h

end Cursor

/-- A walk over the associations of keys that carry several values each. -/
structure Associations (κ ν : Type) where
  entries : Cursor κ (List ν)
  current : Option (κ × List ν)

namespace Associations
variable {κ ν : Type}

def start (t : Trie κ (List ν)) : Associations κ ν := ⟨.start t, none⟩

/-- The next key and value. A key is left when its values are used up. -/
def next? : Associations κ ν → Option ((κ × ν) × Associations κ ν)
  | ⟨entries, some (key, v :: vs)⟩ => some ((key, v), ⟨entries, some (key, vs)⟩)
  | ⟨entries, _⟩ =>
    match _h : entries.next? with
    | none => none
    | some (e, rest) => next? ⟨rest, some (e.key, e.payload)⟩
termination_by a => Cursor.remaining a.entries
decreasing_by exact Cursor.remaining_next? _h

end Associations
end TypedValues
