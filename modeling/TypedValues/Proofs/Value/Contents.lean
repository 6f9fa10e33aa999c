import TypedValues.Proofs.Value.WellTyped
import TypedValues.Value.Equality

/-!
# Values of the same contents

Having the same contents is an equivalence. Lists compare place by place; sets and maps find for each
element a partner of its own, so that they compare as if their elements could be sorted.
-/

namespace TypedValues

section Pairing

variable {α β : Type} {same : α → α → Bool} {f : α → β} {xs ys : List α}

/-- Whether each element finds a partner of its own on the other side, taken in turn. -/
def pairOff (same : α → α → Bool) : List α → List α → Bool
  | [], ys => ys.isEmpty
  | x :: xs, ys =>
    let others := ys.eraseP (same x)
    others.length < ys.length && pairOff same xs others

lemma pairOff_cons (x : α) (xs ys : List α) : pairOff same (x :: xs) ys = true ↔
    (ys.eraseP (same x)).length < ys.length ∧ pairOff same xs (ys.eraseP (same x)) = true := by
  rw [pairOff, Bool.and_eq_true, decide_eq_true_eq]

lemma pairOff_self (h : ∀ x ∈ xs, same x x = true) : pairOff same xs xs = true := by
  induction xs with
  | nil => rfl
  | cons x xs ih =>
    have hx : (x :: xs).eraseP (same x) = xs := by
      rw [List.eraseP_cons, h x List.mem_cons_self]
      rfl
    rw [pairOff_cons, hx]
    exact ⟨Nat.lt_succ_self _, ih fun y hy => h y (List.mem_cons_of_mem x hy)⟩

/-- The partner that is found has the same image, and the others keep theirs. -/
lemma perm_map_eraseP {x : α} (h : ∀ y, same x y = true ↔ f x = f y)
    (hlt : (ys.eraseP (same x)).length < ys.length) :
    (ys.map f).Perm (f x :: (ys.eraseP (same x)).map f) := by
  have hfound : ∃ y ∈ ys, same x y = true := by
    by_contra hnone
    have hall : ∀ y ∈ ys, ¬ same x y = true := fun y hy hxy => hnone ⟨y, hy, hxy⟩
    rw [List.eraseP_of_forall_not hall] at hlt
    exact lt_irrefl _ hlt
  obtain ⟨y, hy, hxy⟩ := hfound
  obtain ⟨z, pre, post, -, hz, rfl, herase⟩ := List.exists_of_eraseP hy hxy
  rw [herase, (h z).mp hz, ← List.map_cons]
  exact List.perm_middle.map f

/-- When images tell partners apart, pairing off compares the lists of images up to their order. -/
lemma pairOff_iff (h : ∀ x ∈ xs, ∀ y, same x y = true ↔ f x = f y) :
    pairOff same xs ys = true ↔ (xs.map f).Perm (ys.map f) := by
  induction xs generalizing ys with
  | nil =>
    rw [pairOff, List.isEmpty_iff, List.map_nil, List.nil_perm, List.map_eq_nil_iff]
  | cons x xs ih =>
    have hx := h x List.mem_cons_self
    have hxs : ∀ z ∈ xs, ∀ y, same z y = true ↔ f z = f y := by
      intro z hz
      exact h z (List.mem_cons_of_mem x hz)
    rw [pairOff_cons, ih hxs, List.map_cons]
    constructor
    · rintro ⟨hlt, hperm⟩
      exact (hperm.cons (f x)).trans (perm_map_eraseP hx hlt).symm
    · intro hperm
      have hmem : f x ∈ ys.map f := hperm.subset List.mem_cons_self
      obtain ⟨y, hy, hxy⟩ := List.mem_map.mp hmem
      have hlt : (ys.eraseP (same x)).length < ys.length := by
        rw [List.length_eraseP_of_mem hy ((hx y).mpr hxy.symm)]
        have := List.length_pos_of_mem hy
        omega
      exact ⟨hlt, (hperm.trans (perm_map_eraseP hx hlt)).cons_inv⟩

end Pairing

namespace Value

lemma sizeOf_component_lt {c v : Value} (hc : c ∈ v.components) : sizeOf c < sizeOf v := by
  cases v with
  | tuple ty xs | list ty xs | set ty xs =>
    have hlt : sizeOf c < sizeOf xs := List.sizeOf_lt_of_mem hc
    simp only [tuple.sizeOf_spec, list.sizeOf_spec, set.sizeOf_spec]
    omega
  | map ty table es =>
    simp only [map.sizeOf_spec]
    rcases List.mem_append.mp hc with hc | hc
    · obtain ⟨e, he, rfl⟩ := List.mem_map.mp hc
      have := sizeOf_key_lt he
      omega
    · obtain ⟨e, he, rfl⟩ := List.mem_map.mp hc
      have := sizeOf_bound_lt he
      omega
  | node ty xs as =>
    simp only [node.sizeOf_spec]
    rcases List.mem_append.mp hc with hc | hc
    · have := List.sizeOf_lt_of_mem hc
      omega
    · obtain ⟨a, ha, rfl⟩ := List.mem_map.mp hc
      have := sizeOf_labeled_lt ha
      omega
  | _ => simp [components] at hc

/-- What holds of a value whenever it holds of its components holds of all values. -/
lemma componentInduction {P : Value → Prop} (h : ∀ v, (∀ c ∈ v.components, P c) → P v) (v : Value) :
    P v := by
  induction hn : sizeOf v using Nat.strong_induction_on generalizing v with
  | _ n ih =>
  subst hn
  exact h v fun c hc => ih _ (sizeOf_component_lt hc) c rfl

section Views

variable {xs ys : List Value} {es fs : List (Value × Value)}

lemma sameEach_iff_forall₂ :
    sameEach xs ys = true ↔ List.Forall₂ (fun x y => x.sameContents y = true) xs ys := by
  induction xs generalizing ys with
  | nil => cases ys <;> simp [sameEach]
  | cons x xs ih => cases ys <;> simp [sameEach, ih]

lemma sameInAnyOrder_eq_pairOff : sameInAnyOrder xs ys = pairOff sameContents xs ys := by
  induction xs generalizing ys with
  | nil => rw [sameInAnyOrder, pairOff]
  | cons x xs ih => rw [sameInAnyOrder, pairOff, ih]

/-- Two entries have the same contents on both sides. -/
def sameEntry (e f : Value × Value) : Bool := e.1.sameContents f.1 && e.2.sameContents f.2

lemma sameEntries_eq_pairOff : sameEntries es fs = pairOff sameEntry es fs := by
  induction es generalizing fs with
  | nil => rw [sameEntries, pairOff]
  | cons e es ih =>
    obtain ⟨k, v⟩ := e
    rw [sameEntries, pairOff, ih]
    rfl

end Views

lemma sameContents_self (v : Value) : v.sameContents v = true := by
  induction v using componentInduction with
  | _ v ih =>
  have heach : ∀ xs : List Value, (∀ x ∈ xs, x.sameContents x = true) → sameEach xs xs = true := by
    intro xs hxs
    exact sameEach_iff_forall₂.mpr (List.forall₂_same.mpr hxs)
  cases v with
  | int n | real x | str s | loc l | object ty p => rw [sameContents]; exact beq_self_eq_true _
  | tuple ty xs | list ty xs => rw [sameContents]; exact heach xs ih
  | set ty xs =>
    rw [sameContents, sameInAnyOrder_eq_pairOff]
    exact pairOff_self ih
  | map ty table es =>
    rw [sameContents, sameEntries_eq_pairOff]
    apply pairOff_self
    intro e he
    have hmem := mem_components_of_entry ty table he
    rw [sameEntry, ih _ hmem.1, ih _ hmem.2]
    rfl
  | node ty xs as =>
    have hxs := heach xs fun x hx => ih x (List.mem_append_left _ hx)
    rw [sameContents, hxs, beq_self_eq_true]
    rfl

/-- The values that agree with one in contents agree with the same values as it does. -/
def Faithful (x : Value) : Prop :=
  ∀ y, x.sameContents y = true ↔ x.sameContents = y.sameContents

lemma Faithful.of_eq {x y : Value} (hx : Faithful x) (h : x.sameContents = y.sameContents) :
    Faithful y := by
  intro z
  rw [← h]
  exact hx z

section Faithful

variable {xs ys : List Value} {es fs : List (Value × Value)}

lemma sameEach_iff (hxs : ∀ x ∈ xs, Faithful x) :
    sameEach xs ys = true ↔ xs.map sameContents = ys.map sameContents := by
  induction xs generalizing ys with
  | nil => cases ys <;> simp [sameEach]
  | cons x xs ih =>
    cases ys with
    | nil => simp [sameEach]
    | cons y ys =>
      have hx : ∀ z ∈ xs, Faithful z := fun z hz => hxs z (List.mem_cons_of_mem x hz)
      rw [sameEach, Bool.and_eq_true, ih hx, hxs x List.mem_cons_self y, List.map_cons,
        List.map_cons, List.cons.injEq]

lemma sameInAnyOrder_iff (hxs : ∀ x ∈ xs, Faithful x) :
    sameInAnyOrder xs ys = true ↔ (xs.map sameContents).Perm (ys.map sameContents) := by
  rw [sameInAnyOrder_eq_pairOff]
  exact pairOff_iff hxs

/-- What an entry shares with the entries of the same contents. -/
def entryContents (e : Value × Value) : (Value → Bool) × (Value → Bool) :=
  (e.1.sameContents, e.2.sameContents)

lemma sameEntries_iff (hes : ∀ e ∈ es, Faithful e.1 ∧ Faithful e.2) :
    sameEntries es fs = true ↔ (es.map entryContents).Perm (fs.map entryContents) := by
  rw [sameEntries_eq_pairOff]
  apply pairOff_iff
  intro e he f
  rw [sameEntry, Bool.and_eq_true, (hes e he).1, (hes e he).2, entryContents, entryContents,
    Prod.mk.injEq]

lemma faithful_of_subset (hxs : ∀ x ∈ xs, Faithful x)
    (h : ys.map sameContents ⊆ xs.map sameContents) : ∀ y ∈ ys, Faithful y := by
  intro y hy
  obtain ⟨x, hx, hxy⟩ := List.mem_map.mp (h (List.mem_map_of_mem hy))
  exact (hxs x hx).of_eq hxy

lemma sameEach_congr (hxs : ∀ x ∈ xs, Faithful x) (h : sameEach xs ys = true) :
    sameEach xs = sameEach ys := by
  have hmap := (sameEach_iff hxs).mp h
  have hys := faithful_of_subset hxs fun c hc => hmap ▸ hc
  funext zs
  rw [Bool.eq_iff_iff, sameEach_iff hxs, sameEach_iff hys, hmap]

lemma sameInAnyOrder_congr (hxs : ∀ x ∈ xs, Faithful x) (h : sameInAnyOrder xs ys = true) :
    sameInAnyOrder xs = sameInAnyOrder ys := by
  have hperm := (sameInAnyOrder_iff hxs).mp h
  have hys := faithful_of_subset hxs hperm.symm.subset
  funext zs
  rw [Bool.eq_iff_iff, sameInAnyOrder_iff hxs, sameInAnyOrder_iff hys]
  exact hperm.congr_left _

lemma sameEntries_congr (hes : ∀ e ∈ es, Faithful e.1 ∧ Faithful e.2)
    (h : sameEntries es fs = true) : sameEntries es = sameEntries fs := by
  have hperm := (sameEntries_iff hes).mp h
  have hfs : ∀ f ∈ fs, Faithful f.1 ∧ Faithful f.2 := by
    intro f hf
    obtain ⟨e, he, hef⟩ := List.mem_map.mp (hperm.symm.subset (List.mem_map_of_mem hf))
    rw [entryContents, entryContents, Prod.mk.injEq] at hef
    exact ⟨(hes e he).1.of_eq hef.1, (hes e he).2.of_eq hef.2⟩
  funext gs
  rw [Bool.eq_iff_iff, sameEntries_iff hes, sameEntries_iff hfs]
  exact hperm.congr_left _

end Faithful

/-- Having the same contents is an equivalence: it says that two values have the same contents as the
same values. -/
theorem sameContents_iff (a b : Value) :
    a.sameContents b = true ↔ a.sameContents = b.sameContents := by
  induction a using componentInduction generalizing b with
  | _ a ih =>
  constructor
  · intro h
    funext c
    cases a <;> cases b <;> simp only [sameContents, Bool.false_eq_true] at h
    case int.int | real.real | str.str | loc.loc | object.object =>
      obtain rfl := eq_of_beq h
      cases c <;> simp only [sameContents]
    case tuple.tuple s xs t ys | list.list s xs t ys =>
      have heach : sameEach xs = sameEach ys := sameEach_congr ih h
      cases c <;> simp only [sameContents, heach]
    case set.set s xs t ys =>
      have hsame : sameInAnyOrder xs = sameInAnyOrder ys := sameInAnyOrder_congr ih h
      cases c <;> simp only [sameContents, hsame]
    case map.map ty table es ty' table' fs =>
      have hes : ∀ e ∈ es, Faithful e.1 ∧ Faithful e.2 := by
        intro e he
        have hmem := mem_components_of_entry ty table he
        exact ⟨ih _ hmem.1, ih _ hmem.2⟩
      have hsame := sameEntries_congr hes h
      cases c <;> simp only [sameContents, hsame]
    case node.node =>
      rw [Bool.and_eq_true] at h
      have hname := eq_of_beq h.1
      have heach := sameEach_congr (fun x hx => ih x (List.mem_append_left _ hx)) h.2
      cases c <;> simp only [sameContents, heach, hname]
  · intro h
    rw [h]
    exact sameContents_self b

lemma sameContents_comm (a b : Value) : a.sameContents b = b.sameContents a := by
  rw [Bool.eq_iff_iff, sameContents_iff, sameContents_iff]
  exact eq_comm

end Value
end TypedValues
