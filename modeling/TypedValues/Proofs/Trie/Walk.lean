import TypedValues.Proofs.Trie.WellFormed
import TypedValues.Trie.Multimap

/-!
# Walks

A cursor yields the entries that its frames have left, the innermost frame first, so that a whole walk
yields the entries of the trie in order. A walk over associations yields each key with each of its
values.
-/

namespace TypedValues

variable {κ ν : Type}

namespace Frame

/-- The entries that a frame has left. -/
def pending : Frame κ ν → List (Entry κ ν)
  | .children ts => Trie.entriesOf ts
  | .entries es => es

@[simp] lemma pending_children (ts : List (Trie κ ν)) :
    (Frame.children ts).pending = Trie.entriesOf ts := rfl

@[simp] lemma pending_entries (es : List (Entry κ ν)) : (Frame.entries es).pending = es := rfl

end Frame

namespace Cursor

/-- The entries that a cursor has left. -/
def pending (c : Cursor κ ν) : List (Entry κ ν) := c.flatMap Frame.pending

@[simp] lemma pending_nil : pending ([] : Cursor κ ν) = [] := rfl

@[simp] lemma pending_cons (f : Frame κ ν) (c : Cursor κ ν) :
    pending (f :: c) = f.pending ++ pending c := rfl

@[simp] lemma pending_frame (t : Trie κ ν) : (frame t).pending = t.entries := by
  cases t with
  | leaf e => rw [frame, Frame.pending_entries, Trie.entries_leaf]
  | branch bitmap ts => rw [frame, Frame.pending_children, Trie.entries_branch]
  | chain hash es => rw [frame, Frame.pending_entries, Trie.entries_chain]

/-- A step yields the first of the entries left, and none only when there are none. -/
lemma pending_eq (c : Cursor κ ν) :
    c.pending = (c.next?.map fun p => p.1 :: p.2.pending).getD [] := by
  fun_induction next? c with
  | case1 => rfl
  | case2 rest ih => simpa using ih
  | case3 e es rest => simp
  | case4 rest ih => simpa using ih
  | case5 e ts rest => simp
  | case6 t ts rest _ ih =>
    rw [← ih]
    simp

lemma toList_eq_pending (c : Cursor κ ν) : c.toList = c.pending := by
  induction hn : remaining c using Nat.strong_induction_on generalizing c with
  | _ n ih =>
  subst hn
  rw [toList, pending_eq]
  split
  · rename_i hnone
    simp [hnone]
  · rename_i e rest hsome
    have hrest := ih (remaining rest) (remaining_next? hsome) rest rfl
    simp [hsome, hrest]

/-- Walking over a trie visits its entries in order, each once. -/
theorem toList_start (t : Trie κ ν) : (start t).toList = t.entries := by
  rw [toList_eq_pending, start, pending_cons, pending_frame, pending_nil, List.append_nil]

end Cursor

namespace Associations

/-- Each key with each of its values. -/
def ofEntries (es : List (Entry κ (List ν))) : List (κ × ν) :=
  es.flatMap fun e => e.payload.map (e.key, ·)

/-- The associations that a walk has left. -/
def pending (a : Associations κ ν) : List (κ × ν) :=
  (a.current.elim [] fun p => p.2.map (p.1, ·)) ++ ofEntries a.entries.pending

/-- The walk leaves a key when its values are used up. -/
lemma current_eq_nil {current : Option (κ × List ν)}
    (h : ∀ key v vs, current = some (key, v :: vs) → False) :
    (current.elim [] fun p => p.2.map (p.1, ·)) = [] := by
  match current, h with
  | none, _ => rfl
  | some (key, []), _ => rfl
  | some (key, v :: vs), h => exact (h key v vs rfl).elim

/-- A step yields the first of the associations left, and none only when there are none. -/
lemma pending_eq (a : Associations κ ν) :
    a.pending = (a.next?.map fun p => p.1 :: p.2.pending).getD [] := by
  fun_induction next? a with
  | case1 entries key v vs => rfl
  | case2 entries current hcurrent hnone =>
    have hentries : entries.pending = [] := by rw [Cursor.pending_eq, hnone]; rfl
    rw [pending, current_eq_nil hcurrent, hentries]
    rfl
  | case3 entries current hcurrent e rest hsome ih =>
    have hentries : entries.pending = e :: rest.pending := by rw [Cursor.pending_eq, hsome]; rfl
    rw [← ih, pending, current_eq_nil hcurrent, hentries]
    rfl

/-- The associations that a walk goes on to yield before it ends. -/
inductive Yields : Associations κ ν → List (κ × ν) → Prop
  | done {a : Associations κ ν} : a.next? = none → Yields a []
  | more {a b : Associations κ ν} {p : κ × ν} {ps : List (κ × ν)} :
    a.next? = some (p, b) → Yields b ps → Yields a (p :: ps)

lemma yields_pending (a : Associations κ ν) : a.Yields a.pending := by
  induction hn : a.pending.length using Nat.strong_induction_on generalizing a with
  | _ n ih =>
  subst hn
  have h := a.pending_eq
  cases hnext : a.next? with
  | none =>
    rw [hnext] at h
    rw [h]
    exact .done hnext
  | some p =>
    have hpending : a.pending = p.1 :: p.2.pending := by rw [h, hnext]; rfl
    have hlength : p.2.pending.length < a.pending.length := by
      rw [hpending, List.length_cons]
      omega
    rw [hpending]
    exact .more hnext (ih _ hlength p.2 rfl)

/-- Walking over the associations of a trie visits each key with each of its values, in order. -/
theorem yields_start (t : Trie κ (List ν)) : (start t).Yields (ofEntries t.entries) := by
  have h := yields_pending (start t)
  rwa [pending, start, ← Cursor.toList_eq_pending, Cursor.toList_start] at h

end Associations
end TypedValues
