import Mathlib
import TypedValues.Proofs.Value.Relabeled
import TypedValues.Value.List
import TypedValues.Value.Map
import TypedValues.Value.Set

/-!
# Labels in comparisons

Equality looks at types only to ask whether they are comparable, at every depth. Values that differ in
labels alone are therefore equal to the same values.
-/

namespace TypedValues

namespace Value

variable {a a' b b' v v' w w' x x' y y' : Value} {s s' t t' : Ty} {i i' j j' : TableId}
  {xs xs' ys ys' zs us : List Value}

lemma sameContents_congr (hx : x.Relabeled x') (hy : y.Relabeled y') :
    x.sameContents y = x'.sameContents y' := by
  rw [hx.sameContents_eq, sameContents_comm, hy.sameContents_eq, sameContents_comm]

lemma answers_congr (hx : x.Relabeled x') (hy : y.Relabeled y') (h : x.equal y = x'.equal y') :
    x.answers y = x'.answers y' := by
  rw [answers, answers, sameContents_congr hx hy, h]

/-- Values of two lists are as equal as the relabeled ones. -/
def EqualAlike (xs xs' ys ys' : List Value) : Prop :=
  ∀ x ∈ xs, ∀ x' ∈ xs', ∀ y ∈ ys, ∀ y' ∈ ys',
    x.Relabeled x' → y.Relabeled y' → x.equal y = x'.equal y'

lemma EqualAlike.mono (h : EqualAlike xs xs' ys ys') {ws ws' zs zs' : List Value} (hws : ws ⊆ xs)
    (hws' : ws' ⊆ xs') (hzs : zs ⊆ ys) (hzs' : zs' ⊆ ys') : EqualAlike ws ws' zs zs' :=
  fun x hx x' hx' y hy y' hy' => h x (hws hx) x' (hws' hx') y (hzs hy) y' (hzs' hy')

lemma forall₂_equal_congr (hxs : List.Forall₂ Relabeled xs xs') (hys : List.Forall₂ Relabeled ys ys')
    (h : EqualAlike xs xs' ys ys') :
    List.Forall₂ (fun x y => x.equal y = true) xs ys ↔
      List.Forall₂ (fun x y => x.equal y = true) xs' ys' :=
  forall₂_iff_forall₂ (forall₂_mem hxs) (forall₂_mem hys)
    fun x x' y y' ⟨hx, hx', hxx⟩ ⟨hy, hy', hyy⟩ => by
    rw [h x hx x' hx' y hy y' hy' hxx hyy]

lemma InOrder.equal_congr (hv : InOrder v w s t xs ys) (hv' : InOrder v' w' s' t' xs' ys')
    (hty : s.comparable t = s'.comparable t') (hxs : List.Forall₂ Relabeled xs xs')
    (hys : List.Forall₂ Relabeled ys ys') (h : EqualAlike xs xs' ys ys') : v.equal w = v'.equal w' := by
  rw [Bool.eq_iff_iff, hv.equal_iff, hv'.equal_iff, hty, forall₂_equal_congr hxs hys h]

/-- Whether an element answers does not depend on the order of the set. -/
lemma equal_set_congr (hty : s.comparable t = s'.comparable t') (hxs : List.Forall₂ Relabeled xs zs)
    (hzs : zs.Perm xs') (hys : List.Forall₂ Relabeled ys us) (hus : us.Perm ys')
    (h : EqualAlike ys ys' xs xs') :
    (set s xs).equal (set t ys) = (set s' xs').equal (set t' ys') := by
  have hlen : xs.length = xs'.length := hxs.length_eq.trans hzs.length_eq
  have hlen' : ys.length = ys'.length := hys.length_eq.trans hus.length_eq
  have hanswers : (∀ x ∈ xs, ∃ y ∈ ys, y.answers x = true) ↔
      ∀ z ∈ zs, ∃ u ∈ us, u.answers z = true := by
    refine forall_mem_congr (forall₂_mem hxs) fun x z ⟨hx, hz, hxz⟩ => ?_
    refine exists_mem_congr (forall₂_mem hys) fun y u ⟨hy, hu, hyu⟩ => ?_
    rw [answers_congr hyu hxz (h y hy u (hus.subset hu) x hx z (hzs.subset hz) hyu hxz)]
  rw [Bool.eq_iff_iff, equal_set, equal_set, hty, hlen, hlen', hanswers]
  simp only [hzs.mem_iff, hus.mem_iff]

/-- Maps that are apart compare their contents. -/
lemma equal_map_of_apart {es fs : List (Value × Value)} (h : Apart (map s i es) (map t j fs)) :
    (map s i es).equal (map t j fs) = true ↔ s.comparable t = true ∧ es.length = fs.length ∧
      ∀ e ∈ es, ∃ f, Table.binding? (·.answers e.1) fs = some f ∧ f.2.equal e.2 = true := by
  rw [equal_map]
  refine and_congr_right fun _ => ⟨fun hor => hor.elim (fun hij => ?_) id, .inr⟩
  subst hij
  obtain ⟨rfl, rfl⟩ := h s t i es fs .self .self
  exact ⟨rfl, nofun⟩

lemma equal_map_congr {es es' fs fs' gs hs : List (Value × Value)}
    (hapart : Apart (map s i es) (map t j fs)) (hapart' : Apart (map s' i' es') (map t' j' fs'))
    (hty : s.comparable t = s'.comparable t')
    (hes : List.Forall₂ (fun e g => e.1.Relabeled g.1 ∧ e.2.Relabeled g.2) es gs)
    (hgs : Rearranged sameContents gs es')
    (hfs : List.Forall₂ (fun f k => f.1.Relabeled k.1 ∧ f.2.Relabeled k.2) fs hs)
    (hhs : Rearranged sameContents hs fs')
    (hkeys : EqualAlike (fs.map (·.1)) (fs'.map (·.1)) (es.map (·.1)) (es'.map (·.1)))
    (hvalues : EqualAlike (fs.map (·.2)) (fs'.map (·.2)) (es.map (·.2)) (es'.map (·.2))) :
    (map s i es).equal (map t j fs) = (map s' i' es').equal (map t' j' fs') := by
  have hlen : es.length = es'.length := hes.length_eq.trans hgs.1.length_eq
  have hlen' : fs.length = fs'.length := hfs.length_eq.trans hhs.1.length_eq
  have hfound : (∀ e ∈ es, ∃ f, Table.binding? (·.answers e.1) fs = some f ∧ f.2.equal e.2 = true) ↔
      ∀ g ∈ gs, ∃ f, Table.binding? (·.answers g.1) fs' = some f ∧ f.2.equal g.2 = true := by
    refine forall_mem_congr (forall₂_mem hes) fun e g ⟨he, hg, hkey, hvalue⟩ => ?_
    have hcompete : ∀ k : Value, k.answers g.1 = true → g.1.sameContents k = true := by
      intro k hk
      rw [sameContents_comm]
      exact (answers_iff.mp hk).1
    have hgkey := List.mem_map_of_mem (f := Prod.fst) (hgs.1.subset hg)
    have hgvalue := List.mem_map_of_mem (f := Prod.snd) (hgs.1.subset hg)
    rw [← hhs.binding?_eq hcompete]
    refine exists_binding?_congr (P := fun v => v.equal e.2 = true) (Q := fun v => v.equal g.2 = true)
      (forall₂_mem hfs) (fun f k ⟨hf, hk, hfk, _⟩ => ?_)
      fun f k ⟨hf, hk, _, hfk⟩ => ?_
    · exact answers_congr hfk hkey (hkeys _ (List.mem_map_of_mem hf) _
        (List.mem_map_of_mem (hhs.1.subset hk)) _ (List.mem_map_of_mem he) _ hgkey hfk hkey)
    · rw [hvalues _ (List.mem_map_of_mem hf) _ (List.mem_map_of_mem (hhs.1.subset hk))
        _ (List.mem_map_of_mem he) _ hgvalue hfk hvalue]
  rw [Bool.eq_iff_iff, equal_map_of_apart hapart, equal_map_of_apart hapart', hty, hlen, hlen', hfound]
  simp only [hgs.1.mem_iff]

lemma equal_node_congr {as as' bs bs' cs ds : List (String × Value)}
    (hty : s.comparable t = s'.comparable t') (hxs : List.Forall₂ Relabeled xs xs')
    (hys : List.Forall₂ Relabeled ys ys') (h : EqualAlike xs xs' ys ys')
    (has : List.Forall₂ (fun a c => a.1 = c.1 ∧ a.2.Relabeled c.2) as cs)
    (hcs : Rearranged (· == ·) cs as')
    (hbs : List.Forall₂ (fun b d => b.1 = d.1 ∧ b.2.Relabeled d.2) bs ds)
    (hds : Rearranged (· == ·) ds bs')
    (hvalues : EqualAlike (as.map (·.2)) (as'.map (·.2)) (bs.map (·.2)) (bs'.map (·.2))) :
    (node s xs as).equal (node t ys bs) = (node s' xs' as').equal (node t' ys' bs') := by
  have hlen : as.length = as'.length := has.length_eq.trans hcs.1.length_eq
  have hlen' : bs.length = bs'.length := hbs.length_eq.trans hds.1.length_eq
  have hfound : (∀ a ∈ as, ∃ b, Table.binding? (· == a.1) bs = some b ∧ a.2.equal b.2 = true) ↔
      ∀ c ∈ cs, ∃ b, Table.binding? (· == c.1) bs' = some b ∧ c.2.equal b.2 = true := by
    refine forall_mem_congr (forall₂_mem has) fun a c ⟨ha, hc, hlabel, hac⟩ => ?_
    have hcvalue := List.mem_map_of_mem (f := Prod.snd) (hcs.1.subset hc)
    have hcompete : ∀ k : String, (k == c.1) = true → (c.1 == k) = true := fun k hk =>
      beq_iff_eq.mpr (eq_of_beq hk).symm
    rw [← hds.binding?_eq hcompete]
    refine exists_binding?_congr (P := fun v => a.2.equal v = true) (Q := fun v => c.2.equal v = true)
      (forall₂_mem hbs) (fun b d ⟨_, _, hbd, _⟩ => ?_) fun b d ⟨hb, hd, _, hbd⟩ => ?_
    · rw [hlabel, hbd]
    · rw [hvalues _ (List.mem_map_of_mem ha) _ hcvalue _ (List.mem_map_of_mem hb)
        _ (List.mem_map_of_mem (hds.1.subset hd)) hac hbd]
  rw [Bool.eq_iff_iff, equal_node, equal_node, hty, forall₂_equal_congr hxs hys h, hlen, hlen', hfound]
  simp only [hcs.1.mem_iff]

/-- Equality is the same for relabeled values that are apart. The induction is on the size of the two values
together, since elements and keys are compared the other way round. -/
lemma equal_congr (ha : a.Relabeled a') (hb : b.Relabeled b') (h : Apart a b) (h' : Apart a' b') :
    a.equal b = a'.equal b' := by
  induction hn : sizeOf a + sizeOf b using Nat.strong_induction_on generalizing a a' b b' with
  | _ n ih =>
  subst hn
  have forth : EqualAlike a.components a'.components b.components b'.components := by
    intro x hx x' hx' y hy y' hy' hxx hyy
    have := sizeOf_component_lt hx
    have := sizeOf_component_lt hy
    exact ih _ (by omega) hxx hyy (h.components hx hy) (h'.components hx' hy') rfl
  have back : EqualAlike b.components b'.components a.components a'.components := by
    intro y hy y' hy' x hx x' hx' hyy hxx
    have := sizeOf_component_lt hx
    have := sizeOf_component_lt hy
    exact ih _ (by omega) hyy hxx (h.components hx hy).symm (h'.components hx' hy').symm rfl
  cases ha with
  | int | real | str | loc | object => cases hb <;> simp [equal]
  | tuple hs hxs =>
    cases hb with
    | tuple ht hys =>
      exact inOrder_tuple.equal_congr inOrder_tuple (Ty.comparable_congr hs ht) hxs hys forth
    | _ => simp [equal]
  | list hs hxs =>
    cases hb with
    | list ht hys =>
      exact inOrder_list.equal_congr inOrder_list (Ty.comparable_congr hs ht) hxs hys forth
    | _ => simp [equal]
  | set hs hxs hzs =>
    cases hb with
    | set ht hys hus => exact equal_set_congr (Ty.comparable_congr hs ht) hxs hzs hys hus back
    | _ => simp [equal]
  | map hs hkeys hvalues hgs =>
    cases hb with
    | map ht hkeys' hvalues' hhs =>
      refine equal_map_congr h h' (Ty.comparable_congr hs ht) (forall₂_of_fst_snd hkeys hvalues) hgs
        (forall₂_of_fst_snd hkeys' hvalues') hhs ?_ ?_
      · exact back.mono (List.subset_append_left _ _) (List.subset_append_left _ _)
          (List.subset_append_left _ _) (List.subset_append_left _ _)
      · exact back.mono (List.subset_append_right _ _) (List.subset_append_right _ _)
          (List.subset_append_right _ _) (List.subset_append_right _ _)
    | _ => simp [equal]
  | node hs hxs hlabels has hcs =>
    cases hb with
    | node ht hys hlabels' hbs hds =>
      refine equal_node_congr (Ty.comparable_congr hs ht) hxs hys ?_
        (forall₂_of_fst_snd (List.forall₂_eq_eq_eq ▸ hlabels) has) hcs
        (forall₂_of_fst_snd (List.forall₂_eq_eq_eq ▸ hlabels') hbs) hds ?_
      · exact forth.mono (List.subset_append_left _ _) (List.subset_append_left _ _)
          (List.subset_append_left _ _) (List.subset_append_left _ _)
      · exact forth.mono (List.subset_append_right _ _) (List.subset_append_right _ _)
          (List.subset_append_right _ _) (List.subset_append_right _ _)
    | _ => simp [equal]

lemma equalByContents_congr (ha : a.Relabeled a') (hb : b.Relabeled b') :
    a.equalByContents b = a'.equalByContents b' :=
  equal_congr ha.withTable hb.withTable (apart_withTable zero_ne_one) (apart_withTable zero_ne_one)

/-- Only the sharing of tables can make a difference to the comparison of contents. -/
lemma equalByContents_eq (h : Apart a b) : a.equalByContents b = a.equal b :=
  (equal_congr (relabeled_withTable a) (relabeled_withTable b) h (apart_withTable zero_ne_one)).symm

end Value

open Value (Apart)

variable {v v' : Value}

lemma ListValue.contains_congr (h : v.Relabeled v') (l : ListValue) (hv : Apart l v) (hv' : Apart l v') :
    l.contains v = l.contains v' := by
  rw [ListValue.contains, ListValue.contains, Bool.eq_iff_iff, List.any_eq_true, List.any_eq_true]
  refine exists_congr fun x => and_congr_right fun hx => ?_
  rw [Value.equal_congr h x.relabeled_refl (hv.inside hx).symm (hv'.inside hx).symm]

lemma Value.Relabeled.answers_eq (h : v.Relabeled v') {key c : Value} (hkey : key ∈ c.components)
    (hv : Apart c v) (hv' : Apart c v') : key.answers v = key.answers v' :=
  Value.answers_congr key.relabeled_refl h
    (Value.equal_congr key.relabeled_refl h (hv.inside hkey) (hv'.inside hkey))

lemma SetValue.contains_congr (h : v.Relabeled v') (s : SetValue) (hv : Apart s v) (hv' : Apart s v') :
    s.contains v = s.contains v' := by
  rw [SetValue.contains, SetValue.contains, Members.contains, Members.contains, Bool.eq_iff_iff,
    List.any_eq_true, List.any_eq_true]
  exact exists_congr fun x => and_congr_right fun hx => by
    rw [h.answers_eq (c := s) hx hv hv']

lemma MapValue.binding?_congr (h : v.Relabeled v') (m : MapValue) (hv : Apart m v) (hv' : Apart m v') :
    m.bindings.binding? v = m.bindings.binding? v' := by
  apply List.find?_congr
  intro e he
  exact h.answers_eq (c := m) (Value.mem_components_of_entry m.ty m.table he).1 hv hv'

/-- Labels never influence equality. A value whose types, at whatever depth, are replaced by equivalent ones
equals the same values as before and is equalled by the same ones, and so lists, sets and maps that have the
one for an element or a key have the other. The contents are compared, whatever the maps within share; maps
that share a table are equal without that. -/
theorem labels_never_matter (h : v.Relabeled v') :
    (∀ w : Value, v.equalByContents w = v'.equalByContents w ∧
      w.equalByContents v = w.equalByContents v') ∧
    (∀ w : Value, Apart w v → Apart w v' →
      v.equalByContents w = v.equal w ∧ w.equalByContents v = w.equal v ∧
      v.equal w = v'.equal w ∧ w.equal v = w.equal v') ∧
    (∀ l : ListValue, Apart l v → Apart l v' → l.contains v = l.contains v') ∧
    (∀ s : SetValue, Apart s v → Apart s v' → s.contains v = s.contains v') ∧
    ∀ m : MapValue, Apart m v → Apart m v' →
      m.containsKey v = m.containsKey v' ∧ m.get? v = m.get? v' := by
  refine ⟨fun w => ⟨?_, ?_⟩, fun w hv hv' => ⟨?_, ?_, ?_, ?_⟩, ?_, ?_, fun m hv hv' => ⟨?_, ?_⟩⟩
  · exact Value.equalByContents_congr h w.relabeled_refl
  · exact Value.equalByContents_congr w.relabeled_refl h
  · exact Value.equalByContents_eq hv.symm
  · exact Value.equalByContents_eq hv
  · exact Value.equal_congr h w.relabeled_refl hv.symm hv'.symm
  · exact Value.equal_congr w.relabeled_refl h hv hv'
  · exact ListValue.contains_congr h
  · exact SetValue.contains_congr h
  · rw [MapValue.containsKey, MapValue.containsKey, m.binding?_congr h hv hv']
  · rw [MapValue.get?, MapValue.get?, m.binding?_congr h hv hv']

/-- A set that has a list of labeled tuples has the same list without labels. -/
theorem labels_never_matter_tuples :
    let labeled : Ty := .tuple 0 [⟨.int, some "x"⟩]
    let plain : Ty := .tuple 0 [⟨.int, none⟩]
    let v : Value := .list (.list 0 labeled) [.tuple labeled [.int 1]]
    let v' : Value := .list (.list 0 plain) [.tuple plain [.int 1]]
    let s : SetValue := ⟨.set 0 (.list 0 labeled), [v]⟩
    v.Relabeled v' ∧ s.contains v = true ∧ s.contains v' = true := by
  intro labeled plain v v' s
  have hrelabeled : v.Relabeled v' :=
    .list (by decide) (.cons (.tuple (by decide) (.cons (.int 1) .nil)) .nil)
  have apart (t : Ty) : Apart s (.list (.list 0 t) [.tuple t [.int 1]]) := by
    intro _ _ _ _ _ _ h
    cases h with
    | inside hc h =>
      obtain rfl := List.mem_singleton.mp hc
      cases h with
      | inside hc h =>
        obtain rfl := List.mem_singleton.mp hc
        cases h with
        | inside hc h => cases hc
  have helement : (Value.tuple labeled [.int 1]).equal (.tuple labeled [.int 1]) = true :=
    Value.equal_tuple.mpr ⟨by decide, .cons (by simp [Value.equal]) .nil⟩
  have hself : v.equal v = true := Value.equal_list.mpr ⟨by decide, .cons helement .nil⟩
  have hanswers : v.answers v = true := Value.answers_iff.mpr ⟨Value.sameContents_self v, hself⟩
  have hcontains : s.contains v = true :=
    List.any_eq_true.mpr ⟨v, List.mem_singleton_self v, hanswers⟩
  exact ⟨hrelabeled, hcontains,
    ((labels_never_matter hrelabeled).2.2.2.1 s (apart labeled) (apart plain)).symm.trans hcontains⟩

end TypedValues
