import TypedValues.Proofs.Value.Mirror
import TypedValues.Proofs.Value.Naming

/-!
# Symmetry of equality

Values of a session that are equal are equal from either side and have the same contents, as long as no
element or key of the one answers to two of the other. Where one does, equality counts it twice: it may
then hold from one side only, and between different contents.
-/

namespace TypedValues

namespace Value

variable {s t : Ty} {i j : TableId} {a b x y : Value}

/-- The elements of a set, the keys of a map. -/
def keys : Value → List Value
  | set _ xs => xs
  | map _ _ es => es.map (·.1)
  | _ => []

/-- No element or key within the second value answers to two elements or keys of one collection within
the first. -/
def Unambiguous (a b : Value) : Prop :=
  ∀ p : Value, p.PartOf a → ∀ q : Value, q.PartOf b → ∀ y ∈ q.keys,
    p.keys.Pairwise fun x x' => ¬ (y.answers x = true ∧ y.answers x' = true)

/-- Maps within the one value and maps within the other that have one table have the same entries. -/
def TablesAgree (a b : Value) : Prop :=
  ∀ s t i es fs, (map s i es).PartOf a → (map t i fs).PartOf b → es = fs

/-- Two values of which equality can be trusted. -/
structure Peers (a b : Value) : Prop where
  wellTyped : a.WellTyped ∧ b.WellTyped
  labeled : a.Labeled ∧ b.Labeled
  tables : TablesAgree a b
  unambiguous : Unambiguous a b ∧ Unambiguous b a

/-- The elements of each set and the keys of each map within the value differ in contents. -/
def Discernible (v : Value) : Prop :=
  ∀ p : Value, p.PartOf v → p.keys.Pairwise fun x x' => x.sameContents x' = false

lemma discernible_iff : a.Discernible ↔
    (a.keys.Pairwise fun x x' => x.sameContents x' = false) ∧ ∀ c ∈ a.components, c.Discernible :=
  forall_partOf_iff

/-- What answers to two values has the contents of both. -/
lemma Discernible.unambiguous (h : a.Discernible) (b : Value) : Unambiguous a b := by
  intro p hp q _ y _
  refine (h p hp).imp ?_
  rintro x x' hne ⟨hx, hx'⟩
  have hsame := (sameContents_iff y x).mp (answers_iff.mp hx).1
  rw [← hsame, (answers_iff.mp hx').1] at hne
  cases hne

namespace Peers

lemma symm (h : Peers a b) : Peers b a where
  wellTyped := h.wellTyped.symm
  labeled := h.labeled.symm
  tables := fun s t i es fs hes hfs => (h.tables t s i fs es hfs hes).symm
  unambiguous := h.unambiguous.symm

lemma part (h : Peers a b) (hx : x.PartOf a) (hy : y.PartOf b) : Peers x y where
  wellTyped := ⟨h.wellTyped.1.part hx, h.wellTyped.2.part hy⟩
  labeled := ⟨fun p hp => h.labeled.1 p (hp.trans hx), fun p hp => h.labeled.2 p (hp.trans hy)⟩
  tables := fun s t i es fs hes hfs => h.tables s t i es fs (hes.trans hx) (hfs.trans hy)
  unambiguous :=
    ⟨fun p hp q hq => h.unambiguous.1 p (hp.trans hx) q (hq.trans hy),
      fun q hq p hp => h.unambiguous.2 q (hq.trans hy) p (hp.trans hx)⟩

lemma component (h : Peers a b) (hx : x ∈ a.components) (hy : y ∈ b.components) : Peers x y :=
  h.part (.inside hx .self) (.inside hy .self)

/-- Equality of peers holds from both sides and only between values of the same contents. The induction
is on the two sizes together, as the lookups in a collection change sides. -/
theorem mirrored (h : Peers a b) : Mirrored a b := by
  induction hn : sizeOf a + sizeOf b using Nat.strong_induction_on generalizing a b with
  | _ n ih =>
  subst hn
  have hboth : ∀ x ∈ a.components, ∀ y ∈ b.components, Mirrored x y ∧ Mirrored y x := by
    intro x hx y hy
    have hxa := sizeOf_component_lt hx
    have hyb := sizeOf_component_lt hy
    have hpeers := h.component hx hy
    exact ⟨ih _ (by omega) hpeers rfl, ih _ (by omega) hpeers.symm rfl⟩
  have hone := h.unambiguous.1 a .self b .self
  cases a <;> cases b <;> try (intro heq; simp only [equal, Bool.false_eq_true] at heq; done)
  case int.int | real.real | str.str | loc.loc | object.object =>
    intro heq
    simp only [equal, sameContents] at heq ⊢
    rw [eq_of_beq heq]
    exact ⟨beq_self_eq_true _, beq_self_eq_true _⟩
  case tuple.tuple s xs t ys =>
    exact inOrder_tuple.mirrored inOrder_tuple fun x hx y hy => (hboth x hx y hy).1
  case list.list s xs t ys =>
    exact inOrder_list.mirrored inOrder_list fun x hx y hy => (hboth x hx y hy).1
  case set.set s xs t ys => exact mirrored_set (fun x hx y hy => (hboth x hx y hy).2) hone
  case map.map s i es t j fs =>
    apply mirrored_map
    · rintro rfl
      exact h.tables s t i es fs .self .self
    · intro e he f hf
      obtain ⟨hkey, hvalue⟩ := mem_components_of_entry s i he
      obtain ⟨hkey', hvalue'⟩ := mem_components_of_entry t j hf
      obtain ⟨hkeys, hkeys'⟩ := hboth _ hkey _ hkey'
      exact ⟨hkeys, hkeys', (hboth _ hvalue _ hvalue').2⟩
    · intro f hf
      exact List.pairwise_map.mp (hone f.1 (List.mem_map_of_mem hf))
  case node.node s xs as t ys bs =>
    have hs := (wellTyped_node.mp h.wellTyped.1).1
    have ht := (wellTyped_node.mp h.wellTyped.2).1
    apply mirrored_node hs ht
    · intro x hx y hy
      exact (hboth x (List.mem_append_left _ hx) y (List.mem_append_left _ hy)).1
    · exact h.labeled.1 _ .self s xs as rfl
    · intro c hc d hd
      have hca := List.mem_append_right xs (List.mem_map_of_mem (f := Prod.snd) hc)
      have hdb := List.mem_append_right ys (List.mem_map_of_mem (f := Prod.snd) hd)
      exact (hboth _ hca _ hdb).1

end Peers
end Value

open Value (Unambiguous Peers)

variable {s : Session} {a b : Value}

lemma Session.Named.peers (hs : s.Named) (ha : a ∈ s.values) (hb : b ∈ s.values)
    (hab : Unambiguous a b) (hba : Unambiguous b a) : Peers a b where
  wellTyped := ⟨hs.reached.wellTyped.values a ha, hs.reached.wellTyped.values b hb⟩
  labeled :=
    ⟨hs.reached.labeled a (s.values_subset_roots ha), hs.reached.labeled b (s.values_subset_roots hb)⟩
  tables := by
    intro ty ty' i es fs hes hfs
    have hfirst : s.Tables ⟨i, es⟩ := Or.inr ⟨a, s.values_subset_roots ha, ty, hes⟩
    have hsecond : s.Tables ⟨i, fs⟩ := Or.inr ⟨b, s.values_subset_roots hb, ty', hfs⟩
    exact (Bindings.mk.inj (hs.table_unique hfirst hsecond rfl)).2
  unambiguous := ⟨hab, hba⟩

/-- Equality of two values of a session holds from both sides and only between values of the same
contents, whatever their types, if no element or key within the one answers to two elements or keys of a
collection within the other. -/
theorem named_equal_symmetric (hs : s.Named) (ha : a ∈ s.values) (hb : b ∈ s.values)
    (hab : Unambiguous a b) (hba : Unambiguous b a) (h : a.equal b = true) :
    b.equal a = true ∧ a.sameContents b = true :=
  (hs.peers ha hb hab hba).mirrored h

section Lists

open Value

/-- Empty lists have the same contents, so that only their types can keep them apart. -/
lemma answers_empty (t u : Ty) : (list t []).answers (list u []) = t.comparable u := by
  simp [answers, equal, sameContents, sameEach]

lemma answers_of_contents_ne {x y : Value} (h : x.sameContents y = false) :
    x.answers y = false := by
  rw [answers, h]
  rfl

lemma sameContents_cons_nil (t u : Ty) (x : Value) (xs : List Value) :
    (list t (x :: xs)).sameContents (list u []) = false := by
  simp [sameContents, sameEach]

/-- The list of the number one. -/
lemma of_one : ListValue.of 0 [.int 1] = ⟨.list 0 .int, [.int 1]⟩ := by
  simp [ListValue.of, runtimeTypes, runtimeType, Ty.joinAll]

/-- A set of two lists of which the first does not answer to the second. -/
lemma toValue_pair {x y : ListValue} (h : (x : Value).answers y = false) :
    (SetValue.of 0 [x, y] : Value) = set (.set 0 (.join 0 x.ty y.ty)) [x, y] := by
  have hpair : [(x : Value), (y : Value)].Pairwise fun x y => x.answers y = false :=
    List.pairwise_pair.mpr h
  rw [SetValue.toValue, SetValue.of, Members.ofList_eq_self hpair]
  simp [runtimeTypes, runtimeType, ListValue.toValue, Ty.joinAll]

lemma discernible_ints (t : Ty) (ns : List Int64) : (list t (ns.map int)).Discernible := by
  refine discernible_iff.mpr ⟨.nil, ?_⟩
  intro c hc
  obtain ⟨n, -, rfl⟩ := List.mem_map.mp hc
  exact discernible_iff.mpr ⟨.nil, nofun⟩

lemma discernible_pair {x y : Value} (t : Ty) (hx : x.Discernible) (hy : y.Discernible)
    (h : x.sameContents y = false) : (set t [x, y]).Discernible := by
  refine discernible_iff.mpr ⟨List.pairwise_pair.mpr h, ?_⟩
  intro c hc
  rcases List.mem_pair.mp hc with rfl | rfl
  · exact hx
  · exact hy

/-- A list of the number one and an empty list, the latter of a wider type in the second set. -/
theorem named_equal_symmetric_lists :
    let one : ListValue := .of 0 [.int 1]
    let narrow : ListValue := .empty 0 .int
    let wide : ListValue := .empty 0 .value
    let a : SetValue := .of 0 [narrow, one]
    let b : SetValue := .of 0 [one, wide]
    let s : Session := ⟨[b, a, wide, narrow, one, .int 1], []⟩
    s.Named ∧ (a : Value) ∈ s.values ∧ (b : Value) ∈ s.values ∧
      Unambiguous a b ∧ Unambiguous b a ∧ (a : Value).equal b = true ∧
      (b : Value).equal a = true ∧ (a : Value).sameContents b = true := by
  intro one narrow wide a b s
  have hone : one = ⟨.list 0 .int, [.int 1]⟩ := of_one
  have hnarrow : (narrow : Value).sameContents one = false := by
    rw [hone, sameContents_comm]
    exact sameContents_cons_nil _ _ _ _
  have hwide : (one : Value).sameContents wide = false := by
    rw [hone]
    exact sameContents_cons_nil _ _ _ _
  have ha : (a : Value) = set (.set 0 (.list 0 .int)) [narrow, one] := by
    rw [toValue_pair (answers_of_contents_ne hnarrow), hone]
    exact congrArg (fun t => set (.set 0 t) _) (Ty.join_self _)
  have hb : (b : Value) = set (.set 0 (.list 0 .value)) [one, wide] := by
    rw [toValue_pair (answers_of_contents_ne hwide), hone]
    exact congrArg (fun t => set (.set 0 t) _) (Ty.join_lists.trans (by rw [Ty.join_value_right]))
  have hs : s.Named := by
    have h₁ : Session.Named ⟨[.int 1], []⟩ := .make .start (.int 1) rfl
    have h₂ : Session.Named ⟨[one, .int 1], []⟩ := h₁.make (.list (.of 0 (by simp))) rfl
    have h₃ : Session.Named ⟨[narrow, one, .int 1], []⟩ := h₂.make (.list (.empty 0 .int)) rfl
    have h₄ : Session.Named ⟨[wide, narrow, one, .int 1], []⟩ :=
      h₃.make (.list (.empty 0 .value)) rfl
    have h₅ : Session.Named ⟨[a, wide, narrow, one, .int 1], []⟩ :=
      h₄.make (.set (.of 0 (by simp))) rfl
    exact h₅.make (.set (.of 0 (by simp))) rfl
  have hone' : (one : Value).Discernible := by
    rw [hone]
    exact discernible_ints _ [1]
  have hab : Unambiguous a b := by
    rw [ha]
    exact (discernible_pair _ (discernible_ints _ []) hone' hnarrow).unambiguous _
  have hba : Unambiguous b a := by
    rw [hb]
    exact (discernible_pair _ hone' (discernible_ints _ []) hwide).unambiguous _
  have heq : (a : Value).equal b = true := by
    rw [ha, hb, equal_set]
    refine ⟨by decide, rfl, ?_⟩
    intro x hx
    rcases List.mem_pair.mp hx with rfl | rfl
    · refine ⟨wide, by simp, ?_⟩
      exact (answers_empty _ _).trans (by decide)
    · refine ⟨one, by simp, answers_iff.mpr ⟨sameContents_self _, ?_⟩⟩
      rw [hone]
      refine equal_list.mpr ⟨by decide, .cons ?_ .nil⟩
      simp [equal]
  have hamem : (a : Value) ∈ s.values := by simp [s]
  have hbmem : (b : Value) ∈ s.values := by simp [s]
  exact ⟨hs, hamem, hbmem, hab, hba, heq, named_equal_symmetric hs hamem hbmem hab hba heq⟩

/-- Two empty lists that are kept apart by their types, and both answered by one of a wider type. They
make a set that equals another, which does not equal it and has other contents. -/
theorem equal_counts_twice :
    let ints : ListValue := .empty 0 .int
    let strs : ListValue := .empty 0 .str
    let wide : ListValue := .empty 0 .value
    let one : ListValue := .of 0 [.int 1]
    let a : SetValue := .of 0 [ints, strs]
    let b : SetValue := .of 0 [wide, one]
    let s : Session := ⟨[b, a, wide, strs, ints, one, .int 1], []⟩
    s.Named ∧ (a : Value) ∈ s.values ∧ (b : Value) ∈ s.values ∧ (a : Value).equal b = true ∧
      (b : Value).equal a = false ∧ (a : Value).sameContents b = false := by
  intro ints strs wide one a b s
  have hone : one = ⟨.list 0 .int, [.int 1]⟩ := of_one
  have hwide : (wide : Value).sameContents one = false := by
    rw [hone, sameContents_comm]
    exact sameContents_cons_nil _ _ _ _
  have hints : (ints : Value).answers strs = false := (answers_empty _ _).trans (by decide)
  have ha : (a : Value) = set (.set 0 (.list 0 .value)) [ints, strs] := by
    rw [toValue_pair hints]
    have hjoin : Ty.join 0 .int .str = .value := Ty.join_of_shape_ne (by simp) rfl rfl
    exact congrArg (fun t => set (.set 0 t) _) (Ty.join_lists.trans (by rw [hjoin]))
  have hb : (b : Value) = set (.set 0 (.list 0 .value)) [wide, one] := by
    rw [toValue_pair (answers_of_contents_ne hwide), hone]
    exact congrArg (fun t => set (.set 0 t) _) (Ty.join_lists.trans (by rw [Ty.join_value_left]))
  have hs : s.Named := by
    have h₁ : Session.Named ⟨[.int 1], []⟩ := .make .start (.int 1) rfl
    have h₂ : Session.Named ⟨[one, .int 1], []⟩ := h₁.make (.list (.of 0 (by simp))) rfl
    have h₃ : Session.Named ⟨[ints, one, .int 1], []⟩ := h₂.make (.list (.empty 0 .int)) rfl
    have h₄ : Session.Named ⟨[strs, ints, one, .int 1], []⟩ := h₃.make (.list (.empty 0 .str)) rfl
    have h₅ : Session.Named ⟨[wide, strs, ints, one, .int 1], []⟩ :=
      h₄.make (.list (.empty 0 .value)) rfl
    have h₆ : Session.Named ⟨[a, wide, strs, ints, one, .int 1], []⟩ :=
      h₅.make (.set (.of 0 (by simp))) rfl
    exact h₆.make (.set (.of 0 (by simp))) rfl
  have hforth : (a : Value).equal b = true := by
    rw [ha, hb, equal_set]
    refine ⟨by decide, rfl, ?_⟩
    intro x hx
    refine ⟨wide, by simp, ?_⟩
    rcases List.mem_pair.mp hx with rfl | rfl
    · exact (answers_empty _ _).trans (by decide)
    · exact (answers_empty _ _).trans (by decide)
  -- Nothing in the first set has the contents of the list of one.
  have hempty : ∀ y ∈ [(ints : Value), strs], y.answers one = false := by
    intro y hy
    apply answers_of_contents_ne
    rw [sameContents_comm, hone]
    rcases List.mem_pair.mp hy with rfl | rfl
    · exact sameContents_cons_nil _ _ _ _
    · exact sameContents_cons_nil _ _ _ _
  have hback : (b : Value).equal a = false := by
    rw [Bool.eq_false_iff, hb, ha]
    intro h
    obtain ⟨y, hy, hanswers⟩ := (equal_set.mp h).2.2 one (by simp)
    rw [hempty y hy] at hanswers
    cases hanswers
  have hcontents : (a : Value).sameContents b = false := by
    rw [ha, hb, hone]
    simp [sameContents, sameInAnyOrder, sameEach, ListValue.toValue, ints, strs, wide, ListValue.empty]
  exact ⟨hs, by simp [s], by simp [s], hforth, hback, hcontents⟩

end Lists

end TypedValues
