import Mathlib
import TypedValues.Proofs.Value.List
import TypedValues.Proofs.Value.Rows
import TypedValues.Proofs.Value.Set

/-!
# Well-typed relations

What relations and list relations yield is well typed because their elements are well-typed rows.
-/

namespace TypedValues

namespace Ty

variable {s t : Ty} {fields : List Field} {home : UniverseId}

/-- The first field of the one pair and the second of the other. -/
lemma composedFields_eq_ok (hs : s.fields.length = 2) (ht : t.fields.length = 2)
    (h : composedFields s t = .ok fields) :
    ∃ f g f' g', s.fields = [f, g] ∧ t.fields = [f', g'] ∧ fields = [f, g'] := by
  obtain ⟨f, g, hfg⟩ := List.length_eq_two.mp hs
  obtain ⟨f', g', hfg'⟩ := List.length_eq_two.mp ht
  obtain ⟨fs, hfs, h⟩ := bind_eq_ok.mp h
  obtain ⟨gs, hgs, h⟩ := bind_eq_ok.mp h
  obtain ⟨k, hk⟩ := tupleFieldsFor_eq_ok.mp hfs
  obtain ⟨l, hl⟩ := tupleFieldsFor_eq_ok.mp hgs
  rw [fields_of_isTuple hk] at hfg
  rw [fields_of_isTuple hl] at hfg'
  subst hfg hfg'
  refine ⟨f, g, f', g', fields_of_isTuple hk, fields_of_isTuple hl, ?_⟩
  have h : (pure [f, g'] : Except Error (List Field)) = .ok fields := by simpa using h
  exact (pure_eq_ok.mp h).symm

/-- Both fields of a closure have the join of the two types. -/
lemma closedFields_eq_ok (h : t.closedFields home = .ok fields) :
    ∃ f g f' g', t.fields = [f, g] ∧ fields = [f', g'] ∧
      f'.item = join home f.item g.item ∧ g'.item = join home f.item g.item := by
  obtain ⟨fs, hfs, h⟩ := bind_eq_ok.mp h
  obtain ⟨k, hk⟩ := tupleFieldsFor_eq_ok.mp hfs
  split at h
  · rename_i f g
    exact ⟨f, g, _, _, fields_of_isTuple hk, (pure_eq_ok.mp h).symm, rfl, rfl⟩
  · exact absurd h throw_ne_ok

end Ty

namespace Relation

variable {home : UniverseId} {r s u : Relation} {v : Value} {fields : List Field} {is : List ℕ}

lemma rows (hr : (r.toSet : Value).WellTyped) : Rows r.toSet.elementType r.toSet.elements :=
  ⟨Ty.isTuple_elementType_of_isRelation r.isRelation, (SetValue.wellTyped_iff.mp hr).2⟩

lemma arity_eq (r : Relation) : r.arity = r.toSet.elementType.fields.length :=
  congrArg List.length
    (Ty.fields_of_isTuple_elementType (Ty.isTuple_elementType_of_isRelation r.isRelation))

lemma wellTyped_ofTuples {tuples : List Value}
    (ht : ∀ v ∈ tuples, v.Inhabits (.tuple home fields)) :
    ((ofTuples home fields tuples).toSet : Value).WellTyped :=
  SetValue.wellTyped_iff.mpr ⟨rfl, fun v hv => ht v (Members.mem_of_mem_ofList hv)⟩

/-- Some fields of a relation are a set of what is selected from its tuples. -/
lemma select_eq_ok {t : SetValue} : r.select home is = .ok t ↔
    ∃ e vs, Selected home r.toSet.elementType r.tuples is e vs ∧
      t = ⟨.set home e, Members.ofList vs⟩ := by
  unfold select
  dsimp only
  split
  · rename_i i
    cases hf : r.toSet.elementType.fields[i]? with
    | none => simp [Ty.fieldType?, hf, throw_ne_ok, Selected.column_iff]
    | some f =>
      simp [-bind_pure_comp, Ty.fieldType?, hf, bind_eq_ok, pure_eq_ok, Selected.column_iff,
        eq_comm (a := t)]
  · rename_i hone
    simp [-bind_pure_comp, bind_eq_ok, pure_eq_ok, Selected.rows_iff hone, and_assoc,
      eq_comm (a := t)]

lemma wellTyped_select {t : SetValue} (hr : (r.toSet : Value).WellTyped)
    (h : r.select home is = .ok t) : (t : Value).WellTyped := by
  obtain ⟨e, vs, hsel, rfl⟩ := select_eq_ok.mp h
  exact SetValue.wellTyped_iff.mpr ⟨rfl, fun v hv =>
    (rows hr).selected hsel v (Members.mem_of_mem_ofList hv)⟩

lemma wellTyped_product {s t : SetValue} (hs : (s : Value).WellTyped) (ht : (t : Value).WellTyped) :
    ((product home s t).toSet : Value).WellTyped := by
  refine wellTyped_ofTuples fun v hv => ?_
  obtain ⟨a, ha, hv⟩ := List.mem_flatMap.mp hv
  obtain ⟨c, hc, rfl⟩ := List.mem_map.mp hv
  exact Value.inhabits_pair ((SetValue.wellTyped_iff.mp hs).2 a ha)
    ((SetValue.wellTyped_iff.mp ht).2 c hc)

/-- Binary relations are composed pair by pair. -/
lemma compose_eq_ok : r.compose home s = .ok u ↔ r.arity = 2 ∧ s.arity = 2 ∧
    ∃ fields, r.toSet.elementType.composedFields s.toSet.elementType = .ok fields ∧
      u = ofTuples home fields (composedPairs (.tuple home fields) r.pairs s.pairs) := by
  unfold compose
  simp only [throw_bind_eq_ok, bne_iff_ne, ne_eq, not_not, bind_eq_ok, pure_eq_ok, composedPairs,
    eq_comm (a := u)]

lemma wellTyped_compose (hr : (r.toSet : Value).WellTyped) (hs : (s.toSet : Value).WellTyped)
    (h : r.compose home s = .ok u) : (u.toSet : Value).WellTyped := by
  obtain ⟨har, has, fields, hf, rfl⟩ := compose_eq_ok.mp h
  obtain ⟨f, g, f', g', hfg, hfg', rfl⟩ :=
    Ty.composedFields_eq_ok (r.arity_eq ▸ har) (s.arity_eq ▸ has) hf
  exact wellTyped_ofTuples fun v hv => (rows hr).composed (rows hs) hfg hfg' hv

lemma wellTyped_carrier (hr : (r.toSet : Value).WellTyped) :
    (r.carrier home : Value).WellTyped :=
  SetValue.wellTyped_iff.mpr ⟨rfl, fun _ hv => (rows hr).carrier (Members.mem_of_mem_ofList hv)⟩

section Closure
variable {P Q : Value → Prop} {next : List (Value × List Value)} {pairs : List (Value × Value)}

lemma successors_add_spec {p : Value × Value} (hp : P p.1 ∧ Q p.2)
    (hn : ∀ e ∈ next, P e.1 ∧ ∀ c ∈ e.2, Q c) :
    ∀ e ∈ successors.add next p, P e.1 ∧ ∀ c ∈ e.2, Q c := by
  obtain ⟨a, b⟩ := p
  induction next with
  | nil => simpa [successors.add] using hp
  | cons e next ih =>
    obtain ⟨key, bs⟩ := e
    obtain ⟨⟨hkey, hbs⟩, hn⟩ := List.forall_mem_cons.mp hn
    rw [successors.add]
    split_ifs
    · refine List.forall_mem_cons.mpr ⟨⟨hkey, fun c hc => ?_⟩, hn⟩
      rcases List.mem_append.mp hc with hc | hc
      · exact hbs c hc
      · rw [List.mem_singleton.mp hc]
        exact hp.2
    · exact List.forall_mem_cons.mpr ⟨⟨hkey, hbs⟩, ih hn⟩

/-- What holds of the first and second fields of all pairs holds of the keys and what is grouped
under them. -/
lemma successors_spec (hp : ∀ p ∈ pairs, P p.1 ∧ Q p.2) :
    ∀ e ∈ successors pairs, P e.1 ∧ ∀ c ∈ e.2, Q c := by
  have fold (ps : List (Value × Value)) (hps : ∀ p ∈ ps, P p.1 ∧ Q p.2) :
      ∀ next, (∀ e ∈ next, P e.1 ∧ ∀ c ∈ e.2, Q c) →
        ∀ e ∈ ps.foldl successors.add next, P e.1 ∧ ∀ c ∈ e.2, Q c := by
    induction ps with
    | nil => exact fun next hn => hn
    | cons p ps ih =>
      obtain ⟨hp, hps⟩ := List.forall_mem_cons.mp hps
      exact fun next hn => ih hps _ (successors_add_spec hp hn)
  exact fold pairs hp [] (by simp)

lemma onward_spec (hn : ∀ e ∈ next, ∀ c ∈ e.2, Q c) : ∀ c ∈ onward next v, Q c := by
  intro c hc
  unfold onward at hc
  cases hf : next.find? fun e => meets v e.1 with
  | none => simp [hf] at hc
  | some e =>
    rw [hf] at hc
    exact hn e (List.mem_of_find?_eq_some hf) c hc

lemma reach_spec (hn : ∀ e ∈ next, ∀ c ∈ e.2, Q c) {fuel : ℕ} {pending reached : List Value}
    (hp : ∀ c ∈ pending, Q c) (hr : ∀ c ∈ reached, Q c) :
    ∀ c ∈ reach next fuel pending reached, Q c := by
  induction fuel generalizing pending reached with
  | zero => exact hr
  | succ fuel ih =>
    cases pending with
    | nil => exact hr
    | cons v pending =>
      obtain ⟨hv, hp⟩ := List.forall_mem_cons.mp hp
      rw [reach]
      split_ifs
      · exact ih hp hr
      · refine ih (fun c hc => ?_) (fun c hc => ?_)
        · rcases List.mem_append.mp hc with hc | hc
          · exact onward_spec hn c (List.mem_reverse.mp hc)
          · exact hp c hc
        · rcases List.mem_append.mp hc with hc | hc
          · exact hr c hc
          · rw [List.mem_singleton.mp hc]
            exact hv

/-- Whatever is reachable is the second field of a pair. -/
lemma reachable_spec (hp : ∀ p ∈ pairs, Q p.2) : ∀ c ∈ reachable pairs v, Q c := by
  have hn : ∀ e ∈ successors pairs, ∀ c ∈ e.2, Q c := fun e he =>
    (successors_spec (P := fun _ => True) (fun p hmem => ⟨trivial, hp p hmem⟩) e he).2
  exact reach_spec hn (fun c hc => onward_spec hn c (List.mem_reverse.mp hc)) (by simp)

end Closure

/-- The pairs of a first field and of what is reachable from it. -/
def closedPairs (ty : Ty) (pairs : List (Value × Value)) : List Value :=
  (successors pairs).flatMap fun (a, _) => (reachable pairs a).map fun c => .tuple ty [a, c]

lemma mem_closedPairs {ty : Ty} {pairs : List (Value × Value)} :
    v ∈ closedPairs ty pairs ↔
      ∃ e ∈ successors pairs, ∃ c ∈ reachable pairs e.1, v = .tuple ty [e.1, c] := by
  rw [closedPairs, List.mem_flatMap]
  refine exists_congr fun e => and_congr_right fun _ => ?_
  rw [List.mem_map]
  exact exists_congr fun c => and_congr_right fun _ => eq_comm

/-- A binary relation is closed by what is reachable. -/
lemma closure_eq_ok : r.closure home = .ok u ↔ r.arity = 2 ∧
    ∃ fields, r.toSet.elementType.closedFields home = .ok fields ∧
      u = ofTuples home fields (closedPairs (.tuple home fields) r.pairs) := by
  unfold closure
  simp only [throw_bind_eq_ok, bne_iff_ne, ne_eq, not_not, bind_eq_ok, pure_eq_ok, mapError_eq_ok,
    closedPairs, eq_comm (a := u)]

lemma wellTyped_closure (hr : (r.toSet : Value).WellTyped) (h : r.closure home = .ok u) :
    (u.toSet : Value).WellTyped := by
  obtain ⟨-, fields, hf, rfl⟩ := closure_eq_ok.mp h
  obtain ⟨f, g, f', g', hfg, rfl, hf', hg'⟩ := Ty.closedFields_eq_ok hf
  have hstart : ∀ p ∈ r.pairs, p.1.Inhabits f'.item := fun p hp =>
    ((rows hr).pair hfg hp).1.mono (hf' ▸ Ty.subtype_join_left home f.item g.item)
  have hstop : ∀ p ∈ r.pairs, p.2.Inhabits g'.item := fun p hp =>
    ((rows hr).pair hfg hp).2.mono (hg' ▸ Ty.subtype_join_right home f.item g.item)
  refine wellTyped_ofTuples fun v hv => ?_
  obtain ⟨e, he, c, hc, rfl⟩ := mem_closedPairs.mp hv
  exact Value.inhabits_pair
    (successors_spec (P := (Value.Inhabits · f'.item)) (Q := (Value.Inhabits · g'.item))
      (fun p hp => ⟨hstart p hp, hstop p hp⟩) e he).1
    (reachable_spec (Q := (Value.Inhabits · g'.item)) hstop c hc)

end Relation

namespace ListRelation

variable {home : UniverseId} {r s u : ListRelation} {v : Value} {is : List ℕ}

lemma rows (hr : (r.toList : Value).WellTyped) : Rows r.toList.elementType r.toList.elements :=
  ⟨Ty.isTuple_elementType_of_isListRelation r.isListRelation, (ListValue.wellTyped_iff.mp hr).2⟩

lemma arity_eq (r : ListRelation) : r.arity = r.toList.elementType.fields.length :=
  congrArg List.length
    (Ty.fields_of_isTuple_elementType (Ty.isTuple_elementType_of_isListRelation r.isListRelation))

/-- Some fields of a list relation are a list of what is selected from its tuples. -/
lemma select_eq_ok {l : ListValue} : r.select home is = .ok l ↔
    ∃ e vs, Selected home r.toList.elementType r.tuples is e vs ∧
      l = ⟨.list home e, vs⟩ := by
  unfold select
  dsimp only
  split
  · rename_i i
    cases hf : r.toList.elementType.fields[i]? with
    | none => simp [Ty.fieldType?, hf, throw_ne_ok, Selected.column_iff]
    | some f =>
      simp [-bind_pure_comp, Ty.fieldType?, hf, bind_eq_ok, pure_eq_ok, Selected.column_iff,
        eq_comm (a := l)]
  · rename_i hone
    simp [-bind_pure_comp, bind_eq_ok, pure_eq_ok, Selected.rows_iff hone, and_assoc,
      eq_comm (a := l)]

lemma wellTyped_select {l : ListValue} (hr : (r.toList : Value).WellTyped)
    (h : r.select home is = .ok l) : (l : Value).WellTyped := by
  obtain ⟨e, vs, hsel, rfl⟩ := select_eq_ok.mp h
  exact ListValue.wellTyped_iff.mpr ⟨rfl, (rows hr).selected hsel⟩

/-- Binary list relations are composed pair by pair. -/
lemma compose_eq_ok : r.compose home s = .ok u ↔ r.arity = 2 ∧ s.arity = 2 ∧
    ∃ fields, r.toList.elementType.composedFields s.toList.elementType = .ok fields ∧
      u = ⟨⟨.list home (.tuple home fields),
        composedPairs (.tuple home fields) r.pairs s.pairs⟩, rfl⟩ := by
  unfold compose
  simp only [throw_bind_eq_ok, bne_iff_ne, ne_eq, not_not, bind_eq_ok, pure_eq_ok, composedPairs,
    eq_comm (a := u)]

lemma wellTyped_compose (hr : (r.toList : Value).WellTyped) (hs : (s.toList : Value).WellTyped)
    (h : r.compose home s = .ok u) : (u.toList : Value).WellTyped := by
  obtain ⟨har, has, fields, hf, rfl⟩ := compose_eq_ok.mp h
  obtain ⟨f, g, f', g', hfg, hfg', rfl⟩ :=
    Ty.composedFields_eq_ok (r.arity_eq ▸ har) (s.arity_eq ▸ has) hf
  exact ListValue.wellTyped_iff.mpr ⟨rfl, fun v hv => (rows hr).composed (rows hs) hfg hfg' hv⟩

lemma wellTyped_carrier (hr : (r.toList : Value).WellTyped) :
    (r.carrier home : Value).WellTyped :=
  SetValue.wellTyped_iff.mpr ⟨rfl, fun _ hv => (rows hr).carrier (Members.mem_of_mem_ofList hv)⟩

end ListRelation
end TypedValues
