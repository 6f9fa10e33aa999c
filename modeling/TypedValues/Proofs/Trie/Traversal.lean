import TypedValues.Proofs.Trie.Equality
import TypedValues.Proofs.Trie.Walk

/-!
# Walks, turn by turn

A walk is a loop over a stack of frames, or over a cursor and the values of one key. A turn of the loop ends
the walk, yields something or only moves on. Opening a node makes the stack longer, but the turns that are
left are known in advance and fewer by one after each turn: one for everything that is yielded, two for every
node that is opened and left again, and one to end.
-/

namespace TypedValues

/-- What a turn of a loop comes to. -/
inductive Turn (σ α : Type) where
  | ends
  | goesOn (s : σ)
  | yields (a : α) (s : σ)

namespace Turn

variable {σ α : Type} {turn : σ → Turn σ α} {left : σ → List α} {turns : σ → Nat}

/-- In so many turns the loop yields these and ends. -/
inductive Run (turn : σ → Turn σ α) : σ → Nat → List α → Prop
  | ends {s : σ} : turn s = .ends → Run turn s 1 []
  | goesOn {s s' : σ} {n : Nat} {as : List α} :
    turn s = .goesOn s' → Run turn s' n as → Run turn s (n + 1) as
  | yields {s s' : σ} {n : Nat} {a : α} {as : List α} :
    turn s = .yields a s' → Run turn s' n as → Run turn s (n + 1) (a :: as)

/-- Each turn leaves one turn fewer, and all that was to come but for what it yields. -/
def Accounts (turn : σ → Turn σ α) (left : σ → List α) (turns : σ → Nat) : Prop :=
  ∀ s, match turn s with
    | .ends => left s = [] ∧ turns s = 1
    | .goesOn s' => left s = left s' ∧ turns s = turns s' + 1
    | .yields a s' => left s = a :: left s' ∧ turns s = turns s' + 1

/-- A call makes turns up to the first that yields or ends. -/
def Calls (turn : σ → Turn σ α) (next : σ → Option (α × σ)) : Prop :=
  ∀ s, next s = match turn s with
    | .ends => none
    | .goesOn s' => next s'
    | .yields a s' => some (a, s')

namespace Accounts

variable (h : Accounts turn left turns)
include h

lemma run (s : σ) : Run turn s (turns s) (left s) := by
  induction hn : turns s generalizing s with
  | zero =>
    have hs := h s
    split at hs
    all_goals omega
  | succ n ih =>
    have hs := h s
    cases hturn : turn s with
    | ends =>
      rw [hturn] at hs
      obtain ⟨hleft, hone⟩ := hs
      rw [hleft, ← hn, hone]
      exact .ends hturn
    | goesOn s' =>
      rw [hturn] at hs
      obtain ⟨hleft, hmore⟩ := hs
      rw [hleft]
      exact .goesOn hturn (ih s' (by omega))
    | yields a s' =>
      rw [hturn] at hs
      obtain ⟨hleft, hmore⟩ := hs
      rw [hleft]
      exact .yields hturn (ih s' (by omega))

/-- The loop ends, in the number of turns foretold and with all that was to come. -/
lemma run_iff {s : σ} {n : Nat} {as : List α} : Run turn s n as ↔ n = turns s ∧ as = left s := by
  constructor
  · intro hrun
    induction hrun with
    | @ends s hturn =>
      have hs := h s
      rw [hturn] at hs
      exact ⟨hs.2.symm, hs.1.symm⟩
    | @goesOn s s' n as hturn _ ih =>
      have hs := h s
      rw [hturn] at hs
      obtain ⟨rfl, rfl⟩ := ih
      exact ⟨hs.2.symm, hs.1.symm⟩
    | @yields s s' n a as hturn _ ih =>
      have hs := h s
      rw [hturn] at hs
      obtain ⟨rfl, rfl⟩ := ih
      exact ⟨hs.2.symm, hs.1.symm⟩
  · rintro ⟨rfl, rfl⟩
    exact h.run s

end Accounts
end Turn

variable {κ ν : Type}

mutual
/-- The branches and chains of a subtree. -/
def Trie.nodes : Trie κ ν → Nat
  | .leaf _ => 0
  | .branch _ ts => Trie.nodesOf ts + 1
  | .chain _ _ => 1

def Trie.nodesOf : List (Trie κ ν) → Nat
  | [] => 0
  | t :: ts => t.nodes + Trie.nodesOf ts
end

/-- The nodes that are opened before a frame is left. -/
def Frame.nodes : Frame κ ν → Nat
  | .children ts => Trie.nodesOf ts
  | .entries _ => 0

lemma Trie.nodes_eq (t : Trie κ ν) (hleaf : ∀ e, t ≠ .leaf e) : t.nodes = (Cursor.frame t).nodes + 1 := by
  cases t with
  | leaf e => exact (hleaf e rfl).elim
  | branch bitmap ts => rw [Cursor.frame, Frame.nodes, Trie.nodes]
  | chain hash es => rw [Cursor.frame, Frame.nodes, Trie.nodes]

namespace Cursor

/-- One turn of a walk, at the innermost frame. -/
def turn : Cursor κ ν → Turn (Cursor κ ν) (Entry κ ν)
  | [] => .ends
  | .entries [] :: rest => .goesOn rest
  | .entries (e :: es) :: rest => .yields e (.entries es :: rest)
  | .children [] :: rest => .goesOn rest
  | .children (.leaf e :: ts) :: rest => .yields e (.children ts :: rest)
  | .children (t :: ts) :: rest => .goesOn (frame t :: .children ts :: rest)

/-- The turns that a cursor takes to its end. -/
def turns (c : Cursor κ ν) : Nat := c.pending.length + 2 * (c.map Frame.nodes).sum + c.length + 1

lemma turns_cons (f : Frame κ ν) (c : Cursor κ ν) :
    turns (f :: c) = turns c + f.pending.length + 2 * f.nodes + 1 := by
  simp only [turns, pending_cons, List.length_append, List.map_cons, List.sum_cons, List.length_cons]
  omega

lemma turn_calls : Turn.Calls (@turn κ ν) next? := by
  intro c
  fun_cases turn c with
  | case1 | case2 | case3 | case4 | case5 => simp only [next?]
  | case6 t ts rest hleaf => simp only [next?]

/-- A node that is opened brings its entries with it, which its parent has left until then. -/
lemma turn_accounts : Turn.Accounts (@turn κ ν) pending turns := by
  intro c
  fun_cases turn c with
  | case1 => exact ⟨rfl, rfl⟩
  | case2 rest => simp [turns_cons, Frame.nodes]
  | case3 e es rest => simp [turns_cons, Frame.nodes]; omega
  | case4 rest => simp [turns_cons, Frame.nodes, Trie.nodesOf]
  | case5 e ts rest => simp [turns_cons, Frame.nodes, Trie.nodesOf, Trie.nodes]; omega
  | case6 t ts rest hleaf =>
    have hnodes := t.nodes_eq hleaf
    simp [turns_cons, Frame.nodes, Trie.nodesOf, hnodes]
    omega

/-- The entries that a cursor goes on to yield before it ends. -/
inductive Yields : Cursor κ ν → List (Entry κ ν) → Prop
  | done {c : Cursor κ ν} : c.next? = none → Yields c []
  | more {c d : Cursor κ ν} {e : Entry κ ν} {es : List (Entry κ ν)} :
    c.next? = some (e, d) → Yields d es → Yields c (e :: es)

lemma yields_toList (c : Cursor κ ν) : c.Yields c.toList := by
  fun_induction toList c with
  | case1 c hnone => exact .done hnone
  | case2 c e rest hsome ih => exact .more hsome ih

lemma Yields.eq_pending {c : Cursor κ ν} {es : List (Entry κ ν)} (h : c.Yields es) : es = c.pending := by
  induction h with
  | done hnone => rw [pending_eq, hnone]; rfl
  | more hsome _ ih => rw [pending_eq, hsome, ih]; rfl

lemma yields_iff {c : Cursor κ ν} {es : List (Entry κ ν)} : c.Yields es ↔ es = c.pending := by
  refine ⟨Yields.eq_pending, ?_⟩
  rintro rfl
  rw [← toList_eq_pending]
  exact yields_toList c

lemma pending_start (t : Trie κ ν) : (start t).pending = t.entries := by
  rw [start, pending_cons, pending_frame, pending_nil, List.append_nil]

/-- A node below the first is opened once and left once, and so is the first. -/
lemma turns_start (t : Trie κ ν) :
    (start t).turns = t.entries.length + 2 * ((frame t).nodes + 1) := by
  have hnil : turns ([] : Cursor κ ν) = 1 := rfl
  rw [start, turns_cons, hnil, pending_frame]
  omega

end Cursor

namespace Associations

lemma Yields.eq_pending {a : Associations κ ν} {ps : List (κ × ν)} (h : a.Yields ps) : ps = a.pending := by
  induction h with
  | done hnone => rw [pending_eq, hnone]; rfl
  | more hsome _ ih => rw [pending_eq, hsome, ih]; rfl

lemma yields_iff {a : Associations κ ν} {ps : List (κ × ν)} : a.Yields ps ↔ ps = a.pending := by
  refine ⟨Yields.eq_pending, ?_⟩
  rintro rfl
  exact yields_pending a

/-- One turn of a walk: a value of the current key, or the next key. -/
def turn : Associations κ ν → Turn (Associations κ ν) (κ × ν)
  | ⟨entries, some (key, v :: vs)⟩ => .yields (key, v) ⟨entries, some (key, vs)⟩
  | ⟨entries, _⟩ =>
    match entries.next? with
    | none => .ends
    | some (e, rest) => .goesOn ⟨rest, some (e.key, e.payload)⟩

/-- The turns that a walk takes to its end. -/
def turns (a : Associations κ ν) : Nat := a.pending.length + a.entries.pending.length + 1

lemma turn_calls : Turn.Calls (@turn κ ν) next? := by
  intro a
  fun_cases turn a with
  | case1 entries key v vs => simp only [next?]
  | case2 entries current hcurrent hnone | case3 entries current hcurrent e rest hsome =>
    rw [next?.eq_2 entries current hcurrent]
    split <;> simp_all

lemma turn_accounts : Turn.Accounts (@turn κ ν) pending turns := by
  intro a
  fun_cases turn a with
  | case1 entries key v vs =>
    refine ⟨rfl, ?_⟩
    simp only [turns, pending, Option.elim_some, List.map_cons, List.cons_append, List.length_cons]
    omega
  | case2 entries current hcurrent hnone =>
    have hentries : entries.pending = [] := by rw [Cursor.pending_eq, hnone]; rfl
    have hpending : pending ⟨entries, current⟩ = [] := by
      rw [pending, current_eq_nil hcurrent, hentries]
      rfl
    exact ⟨hpending, by rw [turns, hpending, hentries]; rfl⟩
  | case3 entries current hcurrent e rest hsome =>
    have hentries : entries.pending = e :: rest.pending := by rw [Cursor.pending_eq, hsome]; rfl
    have hpending : pending ⟨entries, current⟩ = pending ⟨rest, some (e.key, e.payload)⟩ := by
      rw [pending, current_eq_nil hcurrent, hentries]
      rfl
    refine ⟨hpending, ?_⟩
    simp only [turns, hpending, hentries, List.length_cons]
    omega

end Associations

/-- Each key with each of its values, in order. -/
def Multimap.pairs (m : Multimap κ ν) : List (κ × ν) := m.grouped.flatMap fun p => p.2.map (p.1, ·)

lemma Multimap.pending_entries (m : Multimap κ ν) : m.associations.entries.pending = m.entries :=
  Cursor.pending_start m.root

lemma Multimap.pending_associations (m : Multimap κ ν) : m.associations.pending = m.pairs := by
  rw [Associations.pending, m.pending_entries, Associations.ofEntries, pairs, grouped, List.flatMap_map]
  rfl

namespace Represents

variable {m : Multimap κ ν} {a : AssociationList κ ν} (h : Represents m a)
include h

lemma length_values : m.values.length = m.size := by
  have hvalues : m.values = m.grouped.flatMap (·.2) := by
    rw [Multimap.values, Multimap.grouped, List.flatMap_map]
  rw [hvalues, (h.grouped_perm.flatMap_right _).length_eq, h.size_eq, List.length_flatMap]
  rfl

lemma length_keys : m.keys.length = m.keyCount := by
  have hkeys : m.keys = m.grouped.map (·.1) := by rw [Multimap.keys, Multimap.grouped, List.map_map]; rfl
  rw [hkeys, List.length_map, h.grouped_perm.length_eq, h.keyCount_eq]

end Represents

lemma Multimap.length_pairs (m : Multimap κ ν) : m.pairs.length = m.values.length := by
  rw [pairs, grouped, values, List.flatMap_map, List.length_flatMap, List.length_flatMap]
  simp only [List.length_map]

/-- Walking over any trie yields its entries in the order in which its nodes hold them, each once, and
ends: in one turn for each entry, two for each node and one more. A walk over a multimap yields each key
with each of its values in order: in one turn for each association, one for each key and one more. So it
yields as many as the multimap counts, as do its values, and its keys are as many as it counts. -/
theorem walk_exhaustive :
    Turn.Calls (@Cursor.turn κ ν) Cursor.next? ∧
    Turn.Calls (@Associations.turn κ ν) Associations.next? ∧
    (∀ (t : Trie κ ν) (es : List (Entry κ ν)), (Cursor.start t).Yields es ↔ es = t.entries) ∧
    (∀ (t : Trie κ ν) (n : Nat) (es : List (Entry κ ν)), Turn.Run Cursor.turn (Cursor.start t) n es ↔
      n = t.entries.length + 2 * ((Cursor.frame t).nodes + 1) ∧ es = t.entries) ∧
    ∀ [BEq ν] (keying : Keying κ) (updates : List (Update κ ν)),
      let m := Multimap.run keying updates
      (∀ ps, m.associations.Yields ps ↔ ps = m.pairs) ∧
      (∀ n ps, Turn.Run Associations.turn m.associations n ps ↔
        n = m.size + m.keyCount + 1 ∧ ps = m.pairs) ∧
      m.pairs.length = m.size ∧ m.values.length = m.size ∧ m.keys.length = m.keyCount := by
  refine ⟨Cursor.turn_calls, Associations.turn_calls, ?_, ?_, ?_⟩
  · intro t es
    rw [Cursor.yields_iff, Cursor.pending_start]
  · intro t n es
    rw [Cursor.turn_accounts.run_iff, Cursor.turns_start, Cursor.pending_start]
  · intro _ keying updates m
    have h : Represents m _ := Represents.run keying updates
    have hpairs : m.pairs.length = m.size := m.length_pairs.trans h.length_values
    refine ⟨?_, ?_, hpairs, h.length_values, h.length_keys⟩
    · intro ps
      rw [Associations.yields_iff, m.pending_associations]
    · intro n ps
      have hturns : m.associations.turns = m.size + m.keyCount + 1 := by
        rw [Associations.turns, m.pending_associations, hpairs, m.pending_entries, ← h.length_keys,
          Multimap.keys, List.length_map]
      rw [Associations.turn_accounts.run_iff, hturns, m.pending_associations]

end TypedValues
