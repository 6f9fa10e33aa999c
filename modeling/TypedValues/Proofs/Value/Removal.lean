import TypedValues.Proofs.Value.Irredundant
import TypedValues.Proofs.Value.Lookup

/-!
# Removal

Removing a value takes away the first element, or the first key, that answers to it. That leaves none as long
as no two of them answer, which two elements of a set do only if they are unequal to each other.
-/

namespace TypedValues

namespace Members

variable {xs : List Value} {v x : Value}

/-- No two of the values answer to this one. -/
def AnsweredOnce (xs : List Value) (v : Value) : Prop :=
  xs.Pairwise fun x y => ¬ (x.answers v = true ∧ y.answers v = true)

/-- No two of the values answer to this one, and those that equal it have its contents. -/
def FoundOnce (xs : List Value) (v : Value) : Prop :=
  AnsweredOnce xs v ∧ ∀ x ∈ xs, x.equal v = true → x.sameContents v = true

lemma contains_eq_false : contains xs v = false ↔ ∀ x ∈ xs, ¬ x.answers v = true := List.any_eq_false

lemma erase_cons (x : Value) (xs : List Value) (v : Value) :
    erase (x :: xs) v = if x.answers v = true then xs else x :: erase xs v := by
  rw [erase, List.eraseP_cons, Bool.cond_eq_ite]
  rfl

/-- What does not answer to the removed value stays. -/
lemma mem_erase_iff (h : x.answers v = false) : x ∈ erase xs v ↔ x ∈ xs :=
  List.mem_eraseP_of_neg (p := fun y : Value => y.answers v) (Bool.eq_false_iff.mp h)

/-- Only the first value that answers is removed. -/
lemma contains_erase : contains (erase xs v) v = false ↔ AnsweredOnce xs v := by
  induction xs with
  | nil => exact iff_of_true rfl .nil
  | cons x xs ih =>
    rw [AnsweredOnce, List.pairwise_cons, erase_cons]
    by_cases hx : x.answers v = true
    · rw [if_pos hx, contains_eq_false]
      constructor
      · intro h
        exact ⟨fun y hy hxy => h y hy hxy.2,
          List.pairwise_of_forall_mem_list fun y hy _ _ hyz => h y hy hyz.1⟩
      · intro h y hy hyv
        exact h.1 y hy ⟨hx, hyv⟩
    · rw [if_neg hx, contains_eq_false, List.forall_mem_cons, ← contains_eq_false, ih]
      exact and_congr_left fun _ => iff_of_true hx fun y _ hxy => hx hxy.1

/-- A value that is left and equals the removed one answers to it or else has other contents. -/
lemma forall_mem_erase_unequal : (∀ x ∈ erase xs v, x.equal v = false) ↔ FoundOnce xs v := by
  rw [FoundOnce, ← contains_erase, contains_eq_false]
  constructor
  · intro h
    refine ⟨fun x hx hanswers => ?_, fun x hx hequal => ?_⟩
    · have hequal := (Value.answers_iff.mp hanswers).2
      rw [h x hx] at hequal
      cases hequal
    · by_contra hcontents
      have hanswers : x.answers v = false := answers_of_contents_ne (Bool.eq_false_iff.mpr hcontents)
      rw [h x ((mem_erase_iff hanswers).mpr hx)] at hequal
      cases hequal
  · rintro ⟨hnone, hcontents⟩ x hx
    rw [Bool.eq_false_iff]
    intro hequal
    exact hnone x hx (Value.answers_iff.mpr ⟨hcontents x (mem_of_mem_erase hx) hequal, hequal⟩)

/-- Of values none of which answers to a later one, two can answer to a third only if they are unequal. -/
lemma answeredOnce_iff (hxs : xs.Pairwise fun x y => x.answers y = false) (hlabeled : ∀ x ∈ xs, x.Labeled) :
    AnsweredOnce xs v ↔
      ∀ x ∈ xs, ∀ y ∈ xs, x.answers v = true → y.answers v = true → x.equal y = true := by
  constructor
  · intro h x hx y hy hxv hyv
    have : Std.Symm fun x y : Value => ¬ (x.answers v = true ∧ y.answers v = true) :=
      ⟨fun _ _ h hyx => h hyx.symm⟩
    by_cases hxy : x = y
    · rw [← hxy]
      exact Value.equal_self (hlabeled x hx)
    · exact absurd ⟨hxv, hyv⟩ (h.forall hx hy hxy)
  · intro h
    refine hxs.imp_of_mem fun {x y} hx hy hxy hboth => ?_
    have hx' := (Value.sameContents_iff x v).mp (Value.answers_iff.mp hboth.1).1
    have hy' := (Value.sameContents_iff y v).mp (Value.answers_iff.mp hboth.2).1
    have hcontents := (Value.sameContents_iff x y).mpr (hx'.trans hy'.symm)
    rw [Value.answers_iff.mpr ⟨hcontents, h x hx y hy hboth.1 hboth.2⟩] at hxy
    cases hxy

end Members

open Members (AnsweredOnce FoundOnce)

namespace MapValue

variable {m : MapValue} {fresh : TableId} {key : Value}

lemma containsKey_eq (m : MapValue) (key : Value) : m.containsKey key = Members.contains m.keys key := by
  rw [keys, Members.contains, List.any_map]
  exact List.isSome_find?

lemma get?_eq_none_iff : m.get? key = none ↔ m.containsKey key = false := by
  rw [get?, Option.map_eq_none_iff, containsKey, Option.isSome_eq_false_iff, Option.isNone_iff_eq_none]

lemma keys_erase (m : MapValue) (fresh : TableId) (key : Value) :
    (m.erase fresh key).keys = Members.erase m.keys key := by
  rw [keys, Members.erase, keys, List.eraseP_map]
  exact congrArg (List.map Prod.fst) Bindings.entries_erase

end MapValue

variable {s : Session}

/-- Removal is complete exactly if no two elements or keys answer to the value removed, and those that equal
it have its contents. Two elements of a set, or two keys of a map whose keys are unequal, answer to one value
only if they are unequal to each other. -/
theorem removal_complete_iff (hs : s.Reached) (v : Value) :
    (∀ a : SetValue, (a : Value) ∈ s.values →
      ((∀ x ∈ (a.erase v).elements, x.equal v = false) ↔ FoundOnce a.elements v) ∧
      ((a.erase v).contains v = false ↔ AnsweredOnce a.elements v) ∧
      (AnsweredOnce a.elements v ↔ ∀ x ∈ a.elements, ∀ y ∈ a.elements,
        x.answers v = true → y.answers v = true → x.equal y = true)) ∧
    ∀ m : MapValue, (m : Value) ∈ s.values → ∀ fresh,
      ((∀ key ∈ (m.erase fresh v).keys, key.equal v = false) ↔ FoundOnce m.keys v) ∧
      ((m.erase fresh v).containsKey v = false ↔ AnsweredOnce m.keys v) ∧
      ((m.erase fresh v).get? v = none ↔ AnsweredOnce m.keys v) ∧
      (KeysUnequal m.entries → (AnsweredOnce m.keys v ↔ ∀ x ∈ m.keys, ∀ y ∈ m.keys,
        x.answers v = true → y.answers v = true → x.equal y = true)) := by
  constructor
  · intro a ha
    have hroot := s.values_subset_roots ha
    have hlabeled := (Value.labeled_iff.mp (hs.labeled a hroot)).2
    refine ⟨Members.forall_mem_erase_unequal, Members.contains_erase, ?_⟩
    exact Members.answeredOnce_iff (SetValue.irredundant_elements (hs.irredundant a hroot)) hlabeled
  · intro m hm fresh
    have hlabeled := hs.labeled m (s.values_subset_roots hm)
    have hcontains : (m.erase fresh v).containsKey v = false ↔ AnsweredOnce m.keys v := by
      rw [MapValue.containsKey_eq, MapValue.keys_erase, Members.contains_erase]
    refine ⟨?_, hcontains, MapValue.get?_eq_none_iff.trans hcontains, fun hkeys => ?_⟩
    · rw [MapValue.keys_erase]
      exact Members.forall_mem_erase_unequal
    · refine Members.answeredOnce_iff (List.pairwise_map.mpr (hkeys.imp fun hef => ?_)) fun x hx => ?_
      · rw [Value.answers, hef.1, Bool.and_false]
      · obtain ⟨e, he, rfl⟩ := List.mem_map.mp hx
        exact (MapValue.labeled_of_mem hlabeled he).1

section Lists

open Value

lemma MapValue.entries_put_new {m : MapValue} {home : UniverseId} {fresh : TableId} {key v : Value}
    (h : ∀ e ∈ m.entries, e.1.answers key = false) :
    (m.put home fresh key v).entries = m.entries ++ [(key, v)] :=
  (Change.entries_put (b := m.bindings)).trans (apply_bind_new h)

/-- A map of two lists of which the first does not answer to the second. -/
lemma entries_pair {x y : ListValue} (h : (x : Value).answers y = false) (v w : Value) (i j : TableId) :
    (((MapValue.empty 0 .value .value).put 0 i x v).put 0 j y w).entries =
      [((x : Value), v), ((y : Value), w)] := by
  have hfirst : ((MapValue.empty 0 .value .value).put 0 i x v).entries = [((x : Value), v)] :=
    MapValue.entries_put_new (List.forall_mem_nil _)
  rw [MapValue.entries_put_new, hfirst]
  · rfl
  · rw [hfirst]
    exact List.forall_mem_singleton.mpr h

/-- An empty list and a list of one, and the removal of an empty list of a wider type. -/
theorem removal_complete_iff_lists :
    let one : ListValue := .of 0 [.int 1]
    let narrow : ListValue := .empty 0 .int
    let wide : ListValue := .empty 0 .value
    let a : SetValue := .of 0 [narrow, one]
    let start : MapValue := .empty 0 .value .value
    let m : MapValue := (start.put 0 1 narrow (.int 1)).put 0 2 one (.int 1)
    let s : Session := ⟨[m, start.put 0 1 narrow (.int 1), start, a, wide, narrow, one, .int 1], []⟩
    s.Reached ∧ (a : Value) ∈ s.values ∧ (m : Value) ∈ s.values ∧ KeysUnequal m.entries ∧
      (∀ x ∈ (a.erase wide).elements, x.equal wide = false) ∧ (a.erase wide).contains wide = false ∧
      (∀ key ∈ (m.erase 3 wide).keys, key.equal wide = false) ∧
      (m.erase 3 wide).containsKey wide = false ∧ (m.erase 3 wide).get? wide = none ∧
      ∀ x ∈ m.keys, ∀ y ∈ m.keys,
        x.answers wide = true → y.answers wide = true → x.equal y = true := by
  intro one narrow wide a start m s
  have hs : s.Reached := by
    have h₁ : Session.Reached ⟨[.int 1], []⟩ := .step .start (.make (.int 1))
    have h₂ : Session.Reached ⟨[one, .int 1], []⟩ := .step h₁ (.make (.list (.of 0 (by simp))))
    have h₃ : Session.Reached ⟨[narrow, one, .int 1], []⟩ := .step h₂ (.make (.list (.empty 0 .int)))
    have h₄ : Session.Reached ⟨[wide, narrow, one, .int 1], []⟩ :=
      .step h₃ (.make (.list (.empty 0 .value)))
    have h₅ : Session.Reached ⟨[a, wide, narrow, one, .int 1], []⟩ :=
      .step h₄ (.make (.set (.of 0 (by simp))))
    have h₆ : Session.Reached ⟨[start, a, wide, narrow, one, .int 1], []⟩ :=
      .step h₅ (.make (.map (.empty 0 .value .value)))
    have h₇ : Session.Reached
        ⟨[start.put 0 1 narrow (.int 1), start, a, wide, narrow, one, .int 1], []⟩ :=
      .step h₆ (.make (.map (.put 0 1 (by simp) (by simp) (by simp))))
    exact .step h₇ (.make (.map (.put 0 2 (by simp) (by simp) (by simp))))
  have hone : (one : Value) = list (.list 0 .int) [.int 1] := congrArg ListValue.toValue of_one
  have hnarrow : (narrow : Value).sameContents one = false := by
    rw [hone, sameContents_comm]
    exact sameContents_cons_nil _ _ _ _
  have hwide : (one : Value).sameContents wide = false := hone ▸ sameContents_cons_nil _ _ _ _
  have helements : a.elements = [(narrow : Value), one] :=
    Members.ofList_eq_self (List.pairwise_pair.mpr (answers_of_contents_ne hnarrow))
  have hentries : m.entries = [((narrow : Value), .int 1), ((one : Value), .int 1)] :=
    entries_pair (answers_of_contents_ne hnarrow) _ _ 1 2
  have hkeys : m.keys = [(narrow : Value), one] := congrArg (List.map Prod.fst) hentries
  have hunequal : KeysUnequal m.entries := by
    rw [hentries, KeysUnequal, hone]
    refine List.pairwise_pair.mpr ⟨?_, ?_⟩ <;> simp [narrow, ListValue.empty, ListValue.toValue, equal]
  have hanswered : AnsweredOnce [(narrow : Value), one] wide := by
    refine List.pairwise_pair.mpr fun h => ?_
    rw [answers_of_contents_ne hwide] at h
    cases h.2
  have hfound : FoundOnce [(narrow : Value), one] wide := by
    refine ⟨hanswered, fun x hx hequal => ?_⟩
    rcases List.mem_pair.mp hx with rfl | rfl
    · exact (answers_iff.mp ((answers_empty _ _).trans (by decide))).1
    · rw [hone] at hequal
      cases (equal_list.mp hequal).2
  have ha : (a : Value) ∈ s.values := by simp [s]
  have hm : (m : Value) ∈ s.values := by simp [s]
  obtain ⟨hset, hmap⟩ := removal_complete_iff hs wide
  obtain ⟨hnone, hcontains, -⟩ := hset a ha
  obtain ⟨hnone', hcontains', hget, hagree⟩ := hmap m hm 3
  rw [helements] at hnone hcontains
  rw [hkeys] at hnone' hcontains' hget hagree
  rw [hkeys]
  exact ⟨hs, ha, hm, hunequal, hnone.mpr hfound, hcontains.mpr hanswered, hnone'.mpr hfound,
    hcontains'.mpr hanswered, hget.mpr hanswered, (hagree hunequal).mp hanswered⟩

/-- Removing an empty list of a wider type leaves the second of two empty lists that both answer to it: the
removed value is still contained, and what its key is bound to is still found. -/
theorem removal_leaves_another :
    let ints : ListValue := .empty 0 .int
    let strs : ListValue := .empty 0 .str
    let wide : ListValue := .empty 0 .value
    let a : SetValue := .of 0 [ints, strs]
    let start : MapValue := .empty 0 .value .value
    let m : MapValue := (start.put 0 1 ints (.int 1)).put 0 2 strs (.int 2)
    let s : Session := ⟨[m, start.put 0 1 ints (.int 1), start, a, wide, strs, ints, .int 2, .int 1], []⟩
    s.Reached ∧ (a : Value) ∈ s.values ∧ (m : Value) ∈ s.values ∧ (wide : Value) ∈ s.values ∧
      ((strs : Value) ∈ (a.erase wide).elements ∧ (strs : Value).equal wide = true ∧
        (a.erase wide).contains wide = true) ∧
      (strs : Value) ∈ (m.erase 3 wide).keys ∧ (m.erase 3 wide).containsKey wide = true ∧
        (m.erase 3 wide).get? wide = some (.int 2) := by
  intro ints strs wide a start m s
  have hs : s.Reached := by
    have h₁ : Session.Reached ⟨[.int 1], []⟩ := .step .start (.make (.int 1))
    have h₂ : Session.Reached ⟨[.int 2, .int 1], []⟩ := .step h₁ (.make (.int 2))
    have h₃ : Session.Reached ⟨[ints, .int 2, .int 1], []⟩ := .step h₂ (.make (.list (.empty 0 .int)))
    have h₄ : Session.Reached ⟨[strs, ints, .int 2, .int 1], []⟩ :=
      .step h₃ (.make (.list (.empty 0 .str)))
    have h₅ : Session.Reached ⟨[wide, strs, ints, .int 2, .int 1], []⟩ :=
      .step h₄ (.make (.list (.empty 0 .value)))
    have h₆ : Session.Reached ⟨[a, wide, strs, ints, .int 2, .int 1], []⟩ :=
      .step h₅ (.make (.set (.of 0 (by simp))))
    have h₇ : Session.Reached ⟨[start, a, wide, strs, ints, .int 2, .int 1], []⟩ :=
      .step h₆ (.make (.map (.empty 0 .value .value)))
    have h₈ : Session.Reached
        ⟨[start.put 0 1 ints (.int 1), start, a, wide, strs, ints, .int 2, .int 1], []⟩ :=
      .step h₇ (.make (.map (.put 0 1 (by simp) (by simp) (by simp))))
    exact .step h₈ (.make (.map (.put 0 2 (by simp) (by simp) (by simp))))
  have hapart : (ints : Value).answers strs = false := (answers_empty _ _).trans (by decide)
  have hints : (ints : Value).answers wide = true := (answers_empty _ _).trans (by decide)
  have hstrs : (strs : Value).answers wide = true := (answers_empty _ _).trans (by decide)
  have helements : (a.erase wide).elements = [(strs : Value)] := by
    have ha : a.elements = [(ints : Value), strs] := Members.ofList_eq_self (List.pairwise_pair.mpr hapart)
    rw [SetValue.erase, ha, Members.erase_cons, if_pos hints]
  have hentries : (m.erase 3 wide).entries = [((strs : Value), .int 2)] := by
    have hm : m.entries = [((ints : Value), .int 1), ((strs : Value), .int 2)] := entries_pair hapart _ _ 1 2
    refine (Bindings.entries_erase (b := m.bindings)).trans ?_
    rw [MapValue.bindings, hm, Table.erase_cons, if_pos hints]
  have hbinding : (m.erase 3 wide).bindings.binding? wide = some ((strs : Value), .int 2) := by
    rw [Bindings.binding?, MapValue.bindings, hentries, Table.binding?_cons, if_pos hstrs]
  refine ⟨hs, by simp [s], by simp [s], by simp [s], ⟨?_, (answers_iff.mp hstrs).2, ?_⟩, ?_, ?_, ?_⟩
  · rw [helements]
    exact List.mem_singleton_self _
  · rw [SetValue.contains, helements]
    exact List.any_eq_true.mpr ⟨strs, List.mem_singleton_self _, hstrs⟩
  · rw [MapValue.keys, hentries]
    exact List.mem_singleton_self _
  · rw [MapValue.containsKey, hbinding]
    rfl
  · rw [MapValue.get?, hbinding]
    rfl

end Lists

end TypedValues
