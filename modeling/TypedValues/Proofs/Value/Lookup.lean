import Mathlib
import TypedValues.Proofs.Value.History
import TypedValues.Proofs.Value.Symmetry

/-!
# Lookup in maps

A map whose keys are unequal yields for each key what it is bound to, and equals every map of the same
entries. A key that equals two stored ones, which are unequal for their types, takes the place of the first;
the second is then bound to one value and looked up as another.
-/

namespace TypedValues

namespace Value

/-- A value equals itself. -/
lemma equal_self {v : Value} (hv : v.Labeled) : v.equal v = true := by
  induction v using componentInduction with
  | _ v ih =>
  have heach : ∀ x ∈ v.components, x.equal x = true := fun x hx => ih x hx ((labeled_iff.mp hv).2 x hx)
  cases v with
  | int | real | str | loc | object => simp [equal]
  | tuple ty xs => exact equal_tuple.mpr ⟨comparable_self ty, List.forall₂_same.mpr heach⟩
  | list ty xs => exact equal_list.mpr ⟨comparable_self ty, List.forall₂_same.mpr heach⟩
  | set ty xs =>
    refine equal_set.mpr ⟨comparable_self ty, rfl, fun x hx => ⟨x, hx, ?_⟩⟩
    exact answers_iff.mpr ⟨sameContents_self x, heach x hx⟩
  | map ty table es => exact equal_map.mpr ⟨comparable_self ty, .inl rfl⟩
  | node ty xs as =>
    refine equal_node.mpr ⟨comparable_self ty, ?_, rfl, fun a ha => ⟨a, ?_, ?_⟩⟩
    · exact List.forall₂_same.mpr fun x hx => heach x (List.mem_append_left _ hx)
    · have hlabels := (labeled_iff.mp hv).1 ty xs as rfl
      refine Table.binding?_eq_some_of_unique (· == a.1) ha (beq_self_eq_true a.1) fun d hd hda => ?_
      exact List.inj_on_of_nodup_map hlabels hd ha (eq_of_beq hda)
    · exact heach a.2 (List.mem_append_right _ (List.mem_map_of_mem ha))

end Value

namespace MapValue

variable {m n : MapValue} {e : Value × Value}

lemma labeled_of_mem (hm : (m : Value).Labeled) (he : e ∈ m.entries) : e.1.Labeled ∧ e.2.Labeled := by
  obtain ⟨hkey, hvalue⟩ := Value.mem_components_of_entry m.ty m.table he
  exact ⟨(Value.labeled_iff.mp hm).2 _ hkey, (Value.labeled_iff.mp hm).2 _ hvalue⟩

/-- A stored key is the only one that answers to itself. -/
lemma binding?_of_mem (hm : (m : Value).Labeled) (hkeys : KeysUnequal m.entries) (he : e ∈ m.entries) :
    m.bindings.binding? e.1 = some e := by
  have hself := Value.equal_self (labeled_of_mem hm he).1
  refine Table.binding?_eq_some_of_unique (·.answers e.1) he
    (Value.answers_iff.mpr ⟨Value.sameContents_self e.1, hself⟩) fun d hd hde => ?_
  by_contra hne
  have : Std.Symm fun e f : Value × Value => e.1.Unequal f.1 := ⟨fun _ _ h => h.symm⟩
  have hunequal := (hkeys.forall hd he hne).1
  rw [(Value.answers_iff.mp hde).2] at hunequal
  cases hunequal

/-- A map with unequal keys equals the maps of the same entries. -/
lemma equal_of_entries_eq (hm : (m : Value).Labeled) (hkeys : KeysUnequal m.entries)
    (hentries : n.entries = m.entries) (hty : m.ty.comparable n.ty = true) :
    (m : Value).equal n = true ∧ (n : Value).equal m = true := by
  have hfound : ∀ e ∈ m.entries, ∃ f, Table.binding? (·.answers e.1) m.entries = some f ∧
      f.2.equal e.2 = true := fun e he =>
    ⟨e, binding?_of_mem hm hkeys he, Value.equal_self (labeled_of_mem hm he).2⟩
  constructor
  · refine Value.equal_map.mpr ⟨hty, .inr ⟨congrArg List.length hentries.symm, ?_⟩⟩
    rwa [hentries]
  · rw [Ty.comparable_comm] at hty
    refine Value.equal_map.mpr ⟨hty, .inr ⟨congrArg List.length hentries, ?_⟩⟩
    rwa [hentries]

end MapValue

open MapValue (BuiltBy)

variable {s : Session} {m : MapValue}

/-- Lookup and iteration agree. Every map of a session comes from binding and unbinding keys. Its keys are
unequal at every stage exactly if no key was bound that equalled a stored one besides that whose place it
took; then each key is looked up as what it is bound to, and the map equals every map that the same changes
have built. -/
theorem map_lookup_agrees (hs : s.Reached) (hm : (m : Value) ∈ s.values) :
    (∃ cs, m.BuiltBy cs) ∧
    ∀ cs, m.BuiltBy cs →
      (Change.Settled cs ↔ ∀ ds, ds <+: cs → KeysUnequal (Change.run ds)) ∧
      (Change.Settled cs →
        KeysUnequal m.entries ∧ (∀ e ∈ m.entries, m.get? e.1 = some e.2) ∧
        ∀ n : MapValue, n.BuiltBy cs → m.ty.comparable n.ty = true →
          (m : Value).equal n = true ∧ (n : Value).equal m = true) := by
  have hroot := s.values_subset_roots hm
  have hlabeled := hs.labeled m hroot
  refine ⟨?_, fun cs hbuilt => ⟨Change.settled_iff, fun hsettled => ?_⟩⟩
  · obtain ⟨cs, hcs⟩ := hs.historic m hroot m .self m.ty m.table m.entries rfl
    exact ⟨cs, hcs.symm⟩
  · have hkeys : KeysUnequal m.entries := by
      rw [hbuilt]
      exact Change.settled_iff.mp hsettled cs List.prefix_rfl
    refine ⟨hkeys, fun e he => ?_, fun n hn hty => ?_⟩
    · rw [MapValue.get?, MapValue.binding?_of_mem hlabeled hkeys he]
      rfl
    · exact MapValue.equal_of_entries_eq hlabeled hkeys (hn.trans hbuilt.symm) hty

section Lists

open Value

/-- Binding a key that no stored one answers to adds an entry. -/
lemma apply_bind_new {es : List (Value × Value)} {key v : Value} (h : ∀ e ∈ es, e.1.answers key = false) :
    Change.apply es (.bind key v) = es ++ [(key, v)] := by
  have hnone : Table.binding? (·.answers key) es = none := List.find?_eq_none.mpr fun e he => by simp [h e he]
  simp only [Change.apply, Bindings.put, Bindings.binding?, hnone, Table.put_of_new _ hnone]

/-- A list of one and an empty list are different keys whatever their types. -/
theorem map_lookup_agrees_lists :
    let one : ListValue := .of 0 [.int 1]
    let wide : ListValue := .empty 0 .value
    let start : MapValue := .empty 0 .value .value
    let build (i j : TableId) : MapValue := (start.put 0 i one (.int 1)).put 0 j wide (.int 2)
    let m := build 1 2
    let s : Session := ⟨[m, start.put 0 1 one (.int 1), start, wide, .int 2, one, .int 1], []⟩
    s.Reached ∧ (m : Value) ∈ s.values ∧ m.get? one = some (.int 1) ∧ m.get? wide = some (.int 2) ∧
      (m : Value).equal (build 3 4) = true ∧ (build 3 4 : Value).equal m = true := by
  intro one wide start build m s
  have hs : s.Reached := by
    have h₁ : Session.Reached ⟨[.int 1], []⟩ := .step .start (.make (.int 1))
    have h₂ : Session.Reached ⟨[one, .int 1], []⟩ := .step h₁ (.make (.list (.of 0 (by simp))))
    have h₃ : Session.Reached ⟨[.int 2, one, .int 1], []⟩ := .step h₂ (.make (.int 2))
    have h₄ : Session.Reached ⟨[wide, .int 2, one, .int 1], []⟩ :=
      .step h₃ (.make (.list (.empty 0 .value)))
    have h₅ : Session.Reached ⟨[start, wide, .int 2, one, .int 1], []⟩ :=
      .step h₄ (.make (.map (.empty 0 .value .value)))
    have h₆ : Session.Reached ⟨[start.put 0 1 one (.int 1), start, wide, .int 2, one, .int 1], []⟩ :=
      .step h₅ (.make (.map (.put 0 1 (by simp) (by simp) (by simp))))
    exact .step h₆ (.make (.map (.put 0 2 (by simp) (by simp) (by simp))))
  have hone : (one : Value) = list (.list 0 .int) [.int 1] := congrArg ListValue.toValue of_one
  have hne : (one : Value).sameContents wide = false := hone ▸ sameContents_cons_nil _ _ _ _
  have hunequal : (wide : Value).Unequal one := by
    rw [hone]
    exact ⟨by simp [wide, ListValue.empty, ListValue.toValue, equal],
      by simp [wide, ListValue.empty, ListValue.toValue, equal]⟩
  have hrun : Change.run [.bind one (.int 1)] = [((one : Value), .int 1)] :=
    apply_bind_new (List.forall_mem_nil _)
  have hrun' : Change.run [.bind one (.int 1), .bind wide (.int 2)] =
      [((one : Value), .int 1), ((wide : Value), .int 2)] := by
    refine (Change.run_snoc [.bind one (.int 1)] _).trans ?_
    rw [hrun, apply_bind_new]
    · rfl
    · intro e he
      rw [List.mem_singleton.mp he]
      exact answers_of_contents_ne hne
  have hsettled : Change.Settled [.bind one (.int 1), .bind wide (.int 2)] := by
    refine @Change.Settled.snoc [.bind one (.int 1)] (.bind wide (.int 2))
      (@Change.Settled.snoc [] (.bind one (.int 1)) .nil (Or.inr (List.forall_mem_nil _)))
      (Or.inr fun e he => ?_)
    rw [hrun] at he
    rw [List.mem_singleton.mp (Table.mem_of_mem_erase _ he)]
    exact hunequal
  have hbuilt (i j : TableId) : (build i j).BuiltBy [.bind one (.int 1), .bind wide (.int 2)] :=
    (MapValue.builtBy_empty 0 .value .value).put.put
  have hm : (m : Value) ∈ s.values := List.mem_cons_self
  obtain ⟨-, hget, hequal⟩ := ((map_lookup_agrees hs hm).2 _ (hbuilt 1 2)).2 hsettled
  rw [show m.entries = _ from (hbuilt 1 2).trans hrun'] at hget
  exact ⟨hs, hm, hget (one, .int 1) (by simp), hget (wide, .int 2) (by simp),
    hequal (build 3 4) (hbuilt 3 4) (comparable_self _)⟩

/-- A key that equals two stored ones takes the place of the first. The second is still there with its value,
but another value is found for it, and of two maps built alike neither equals the other. -/
theorem lookup_finds_another :
    let ints : ListValue := .empty 0 .int
    let strs : ListValue := .empty 0 .str
    let wide : ListValue := .empty 0 .value
    let start : MapValue := .empty 0 .value .value
    let first (i : TableId) : MapValue := start.put 0 i ints (.int 1)
    let second (i : TableId) : MapValue := (first i).put 0 (i + 1) strs (.int 2)
    let build (i : TableId) : MapValue := (second i).put 0 (i + 2) wide (.int 3)
    let cs : List Change := [.bind ints (.int 1), .bind strs (.int 2), .bind wide (.int 3)]
    let s : Session := ⟨[build 4, second 4, first 4, build 1, second 1, first 1, start, wide, strs, ints,
      .int 3, .int 2, .int 1], []⟩
    s.Reached ∧ (build 1 : Value) ∈ s.values ∧ (build 4 : Value) ∈ s.values ∧
      (build 1).BuiltBy cs ∧ (build 4).BuiltBy cs ∧ (build 1).ty = (build 4).ty ∧
      ¬ KeysUnequal (build 1).entries ∧ ((strs : Value), .int 2) ∈ (build 1).entries ∧
      (build 1).get? strs = some (.int 3) ∧
      (build 1 : Value).equal (build 4) = false ∧ (build 4 : Value).equal (build 1) = false := by
  intro ints strs wide start first second build cs s
  have hs : s.Reached := by
    have h₁ : Session.Reached ⟨[.int 1], []⟩ := .step .start (.make (.int 1))
    have h₂ : Session.Reached ⟨[.int 2, .int 1], []⟩ := .step h₁ (.make (.int 2))
    have h₃ : Session.Reached ⟨[.int 3, .int 2, .int 1], []⟩ := .step h₂ (.make (.int 3))
    have h₄ : Session.Reached ⟨[ints, .int 3, .int 2, .int 1], []⟩ :=
      .step h₃ (.make (.list (.empty 0 .int)))
    have h₅ : Session.Reached ⟨[strs, ints, .int 3, .int 2, .int 1], []⟩ :=
      .step h₄ (.make (.list (.empty 0 .str)))
    have h₆ : Session.Reached ⟨[wide, strs, ints, .int 3, .int 2, .int 1], []⟩ :=
      .step h₅ (.make (.list (.empty 0 .value)))
    have h₇ : Session.Reached ⟨[start, wide, strs, ints, .int 3, .int 2, .int 1], []⟩ :=
      .step h₆ (.make (.map (.empty 0 .value .value)))
    have threefold (i : TableId) {vs : List Value} (hvs : Session.Reached ⟨vs, []⟩)
        (hsub : [(start : Value), wide, strs, ints, .int 3, .int 2, .int 1] ⊆ vs) :
        Session.Reached ⟨build i :: second i :: first i :: vs, []⟩ := by
      have g₁ : Session.Reached ⟨first i :: vs, []⟩ :=
        .step hvs (.make (.map (.put 0 i (hsub (by simp)) (hsub (by simp)) (hsub (by simp)))))
      have g₂ : Session.Reached ⟨second i :: first i :: vs, []⟩ :=
        .step g₁ (.make (.map (.put 0 (i + 1) List.mem_cons_self
          (List.mem_cons_of_mem _ (hsub (by simp))) (List.mem_cons_of_mem _ (hsub (by simp))))))
      exact .step g₂ (.make (.map (.put 0 (i + 2) List.mem_cons_self
        (List.mem_cons_of_mem _ (List.mem_cons_of_mem _ (hsub (by simp))))
        (List.mem_cons_of_mem _ (List.mem_cons_of_mem _ (hsub (by simp)))))))
    exact threefold 4 (threefold 1 h₇ (List.Subset.refl _)) (by simp)
  have hints : (ints : Value).answers strs = false := (answers_empty _ _).trans (by decide)
  have hwide : (ints : Value).answers wide = true := (answers_empty _ _).trans (by decide)
  have hstrs : (wide : Value).answers strs = true := (answers_empty _ _).trans (by decide)
  have hsecond (i : TableId) :
      (second i).entries = [((ints : Value), .int 1), ((strs : Value), .int 2)] := by
    have hbuilt : (second i).BuiltBy [.bind ints (.int 1), .bind strs (.int 2)] :=
      (MapValue.builtBy_empty 0 .value .value).put.put
    refine hbuilt.trans ((Change.run_snoc [.bind ints (.int 1)] _).trans ?_)
    have hfirst : Change.run [.bind ints (.int 1)] = [((ints : Value), .int 1)] :=
      apply_bind_new (List.forall_mem_nil _)
    rw [hfirst, apply_bind_new]
    · rfl
    · intro e he
      rw [List.mem_singleton.mp he]
      exact hints
  have hthird (i : TableId) : Bindings.put (i + 2) (second i).bindings wide (.int 3) =
      ⟨i + 2, [((wide : Value), .int 3), ((strs : Value), .int 2)]⟩ := by
    rw [Bindings.put, Bindings.binding?, show (second i).bindings.entries = _ from hsecond i]
    simp [Table.binding?_cons, Table.put_cons, hwide, equal]
  have hentries (i : TableId) : (build i).entries = [((wide : Value), .int 3), ((strs : Value), .int 2)] :=
    congrArg Bindings.entries (hthird i)
  have htable (i : TableId) : (build i).table = i + 2 := congrArg Bindings.table (hthird i)
  have hbuilt (i : TableId) : (build i).BuiltBy cs := (MapValue.builtBy_empty 0 .value .value).put.put.put
  have hget (i : TableId) : Table.binding? (·.answers (strs : Value)) (build i).entries =
      some ((wide : Value), .int 3) := by
    rw [hentries i, Table.binding?_cons, if_pos hstrs]
  have hunequal (i j : TableId) (hij : i ≠ j) : (build i : Value).equal (build j) = false := by
    rw [Bool.eq_false_iff]
    intro h
    rcases (equal_map.mp h).2 with htables | ⟨-, hfound⟩
    · rw [htable, htable] at htables
      exact hij (Nat.add_right_cancel htables)
    · obtain ⟨f, hf, hequal⟩ := hfound ((strs : Value), .int 2) (by simp [hentries])
      rw [hget j] at hf
      obtain rfl := Option.some.inj hf
      simp [equal] at hequal
  refine ⟨hs, by simp [s], by simp [s], hbuilt 1, hbuilt 4, rfl, ?_, by simp [hentries], ?_,
    hunequal 1 4 (by decide), hunequal 4 1 (by decide)⟩
  · rw [hentries 1]
    intro h
    have hequal := (List.rel_of_pairwise_cons h (List.mem_singleton_self _)).1
    rw [(answers_iff.mp hstrs).2] at hequal
    cases hequal
  · exact congrArg (Option.map Prod.snd) (hget 1)

end Lists

end TypedValues
