import Mathlib
import TypedValues.Proofs.Ty.Equivalent
import TypedValues.Proofs.Value.Mirror

/-!
# Relabeled values

Two values of one structure that differ only in their types, and there only up to labels, have the same
contents. The elements of a set may stand in another order, and so may the entries of a map and the
annotations of a node as long as the first of those that compete for a key stays the first.
-/

namespace TypedValues

section Lists

variable {α β α' β' κ κ' ν ν' : Type} {r : α → α' → Prop} {r' : β → β' → Prop}

/-- Whatever relates elements relates the lists of them alike. -/
lemma forall₂_iff_forall₂ {p : α → β → Prop} {q : α' → β' → Prop} {xs : List α} {xs' : List α'}
    {ys : List β} {ys' : List β'} (hxs : List.Forall₂ r xs xs') (hys : List.Forall₂ r' ys ys')
    (h : ∀ x x' y y', r x x' → r' y y' → (p x y ↔ q x' y')) :
    List.Forall₂ p xs ys ↔ List.Forall₂ q xs' ys' := by
  induction hxs generalizing ys ys' with
  | nil => cases hys <;> simp
  | cons hx _ ih =>
    cases hys with
    | nil => simp
    | cons hy hys => rw [List.forall₂_cons, List.forall₂_cons, h _ _ _ _ hx hy, ih hys]

lemma forall_mem_congr {P : α → Prop} {Q : α' → Prop} {xs : List α} {xs' : List α'}
    (hxs : List.Forall₂ r xs xs') (h : ∀ x x', r x x' → (P x ↔ Q x')) :
    (∀ x ∈ xs, P x) ↔ ∀ x' ∈ xs', Q x' := by
  induction hxs with
  | nil => simp
  | cons hx _ ih => rw [List.forall_mem_cons, List.forall_mem_cons, h _ _ hx, ih]

lemma exists_mem_congr {P : α → Prop} {Q : α' → Prop} {xs : List α} {xs' : List α'}
    (hxs : List.Forall₂ r xs xs') (h : ∀ x x', r x x' → (P x ↔ Q x')) :
    (∃ x ∈ xs, P x) ↔ ∃ x' ∈ xs', Q x' := by
  induction hxs with
  | nil => simp
  | cons hx _ ih => rw [List.exists_mem_cons_iff, List.exists_mem_cons_iff, h _ _ hx, ih]

lemma forall₂_of_fst_snd {r : κ → κ' → Prop} {r' : ν → ν' → Prop} {es : List (κ × ν)}
    {fs : List (κ' × ν')} (h : List.Forall₂ r (es.map (·.1)) (fs.map (·.1)))
    (h' : List.Forall₂ r' (es.map (·.2)) (fs.map (·.2))) :
    List.Forall₂ (fun e f => r e.1 f.1 ∧ r' e.2 f.2) es fs := by
  induction es generalizing fs with
  | nil =>
    obtain rfl := List.map_eq_nil_iff.mp (List.forall₂_nil_left_iff.mp h)
    exact .nil
  | cons e es ih =>
    cases fs with
    | nil => cases h
    | cons f fs =>
      obtain ⟨he, hes⟩ := List.forall₂_cons.mp h
      obtain ⟨he', hes'⟩ := List.forall₂_cons.mp h'
      exact .cons ⟨he, he'⟩ (ih hes hes')

/-- The same entries in another order, which keeps the order of those that compete for a key. -/
def Rearranged (same : κ → κ → Bool) (es fs : List (κ × ν)) : Prop :=
  es.Perm fs ∧ ∀ key, (es.filter fun e => same key e.1) = fs.filter fun e => same key e.1

lemma Rearranged.refl (same : κ → κ → Bool) (es : List (κ × ν)) : Rearranged same es es :=
  ⟨.refl es, fun _ => rfl⟩

/-- Keys may be replaced by ones that compete alike. -/
lemma Rearranged.map {same : κ → κ → Bool} {es fs : List (κ × ν)} (h : Rearranged same es fs)
    {f : κ → κ} (hf : ∀ key k, same key (f k) = same key k) (g : ν → ν') :
    Rearranged same (es.map (Prod.map f g)) (fs.map (Prod.map f g)) := by
  refine ⟨h.1.map _, fun key => ?_⟩
  have hcomp : ((fun e : κ × ν' => same key e.1) ∘ Prod.map f g) = fun e : κ × ν => same key e.1 :=
    funext fun e => hf key e.1
  rw [List.filter_map, List.filter_map, hcomp, h.2 key]

/-- Entries that are rearranged can be looked up as before. -/
lemma Rearranged.binding?_eq {same : κ → κ → Bool} {es fs : List (κ × ν)} (h : Rearranged same es fs)
    {p : κ → Bool} {key : κ} (hp : ∀ k, p k = true → same key k = true) :
    Table.binding? p es = Table.binding? p fs := by
  have hfind (es : List (κ × ν)) :
      Table.binding? p es = Table.binding? p (es.filter fun e => same key e.1) := by
    rw [Table.binding?, Table.binding?, List.find?_filter]
    congr 1
    funext e
    rw [Bool.eq_iff_iff, decide_eq_true_iff]
    exact ⟨fun he => ⟨hp e.1 he, he⟩, fun he => he.2⟩
  rw [hfind es, hfind fs, h.2 key]

/-- What is looked up among related entries is related. -/
lemma exists_binding?_congr {r : κ × ν → κ' × ν' → Prop} {es : List (κ × ν)}
    {fs : List (κ' × ν')} (h : List.Forall₂ r es fs) {p : κ → Bool} {q : κ' → Bool}
    (hkey : ∀ e f, r e f → p e.1 = q f.1)
    {P : ν → Prop} {Q : ν' → Prop} (hvalue : ∀ e f, r e f → (P e.2 ↔ Q f.2)) :
    (∃ e, Table.binding? p es = some e ∧ P e.2) ↔ ∃ f, Table.binding? q fs = some f ∧ Q f.2 := by
  induction h with
  | nil => simp
  | @cons e f es fs hef _ ih =>
    rw [Table.binding?_cons, Table.binding?_cons, hkey e f hef]
    split
    · simpa using hvalue e f hef
    · exact ih

end Lists

namespace Value

/-- The second value has the structure and the contents of the first, and types equivalent to its. The
names of tables do not count. -/
inductive Relabeled : Value → Value → Prop
  | int (n : Int64) : Relabeled (.int n) (.int n)
  | real (x : Decimal.Binary64) : Relabeled (.real x) (.real x)
  | str (s : String) : Relabeled (.str s) (.str s)
  | loc (l : SourceLocation) : Relabeled (.loc l) (.loc l)
  | object {s t : Ty} (payload : Nat) (hty : s.equivalent t = true) :
    Relabeled (.object s payload) (.object t payload)
  | tuple {s t : Ty} {xs ys : List Value} (hty : s.equivalent t = true)
    (hxs : List.Forall₂ Relabeled xs ys) : Relabeled (.tuple s xs) (.tuple t ys)
  | list {s t : Ty} {xs ys : List Value} (hty : s.equivalent t = true)
    (hxs : List.Forall₂ Relabeled xs ys) : Relabeled (.list s xs) (.list t ys)
  | set {s t : Ty} {xs ys zs : List Value} (hty : s.equivalent t = true)
    (hxs : List.Forall₂ Relabeled xs ys) (horder : ys.Perm zs) : Relabeled (.set s xs) (.set t zs)
  | map {s t : Ty} {i j : TableId} {es fs gs : List (Value × Value)} (hty : s.equivalent t = true)
    (hkeys : List.Forall₂ Relabeled (es.map (·.1)) (fs.map (·.1)))
    (hvalues : List.Forall₂ Relabeled (es.map (·.2)) (fs.map (·.2)))
    (horder : Rearranged sameContents fs gs) : Relabeled (.map s i es) (.map t j gs)
  | node {s t : Ty} {xs ys : List Value} {as bs cs : List (String × Value)}
    (hty : s.equivalent t = true) (hxs : List.Forall₂ Relabeled xs ys)
    (hlabels : as.map (·.1) = bs.map (·.1))
    (has : List.Forall₂ Relabeled (as.map (·.2)) (bs.map (·.2)))
    (horder : Rearranged (· == ·) bs cs) : Relabeled (.node s xs as) (.node t ys cs)

variable {a b v v' w : Value} {xs ys : List Value} {i j : TableId}

lemma relabeled_refl (v : Value) : v.Relabeled v := by
  induction v using componentInduction with
  | _ v ih =>
  have each {xs : List Value} (hmem : ∀ x ∈ xs, x ∈ v.components) : List.Forall₂ Relabeled xs xs :=
    List.forall₂_same.mpr fun x hx => ih x (hmem x hx)
  cases v with
  | int n => exact .int n
  | real x => exact .real x
  | str s => exact .str s
  | loc l => exact .loc l
  | object ty payload => exact .object payload (Ty.equivalent_refl ty)
  | tuple ty xs => exact .tuple (Ty.equivalent_refl ty) (each fun x hx => hx)
  | list ty xs => exact .list (Ty.equivalent_refl ty) (each fun x hx => hx)
  | set ty xs => exact .set (Ty.equivalent_refl ty) (each fun x hx => hx) (.refl _)
  | map ty table es =>
    exact .map (Ty.equivalent_refl ty) (each fun x hx => List.mem_append_left _ hx)
      (each fun x hx => List.mem_append_right _ hx) (.refl _ _)
  | node ty xs as =>
    exact .node (Ty.equivalent_refl ty) (each fun x hx => List.mem_append_left _ hx) rfl
      (each fun x hx => List.mem_append_right _ hx) (.refl _ _)

/-- Relabeling keeps the contents. -/
lemma Relabeled.sameContents_eq (h : v.Relabeled v') : v.sameContents = v'.sameContents := by
  induction v using componentInduction generalizing v' with
  | _ v ih =>
  have each {xs ys : List Value} (hmem : ∀ x ∈ xs, x ∈ v.components)
      (hxs : List.Forall₂ Relabeled xs ys) : xs.map sameContents = ys.map sameContents :=
    map_eq_map_of_forall₂ hxs fun x hx y _ hxy => ih x (hmem x hx) hxy
  rw [← sameContents_iff]
  cases h with
  | int | real | str | loc => exact sameContents_self _
  | object payload => rw [sameContents, beq_self_eq_true]
  | tuple hty hxs | list hty hxs =>
    rw [sameContents, sameEach_iff fun x _ => sameContents_iff x]
    exact each (fun x hx => hx) hxs
  | @set s t xs ys zs hty hxs horder =>
    rw [sameContents, sameInAnyOrder_iff fun x _ => sameContents_iff x, @each xs ys (fun x hx => hx) hxs]
    exact horder.map _
  | @map s t i j es fs gs hty hkeys hvalues horder =>
    have hentries : es.map entryContents = fs.map entryContents := by
      apply map_eq_map_of_forall₂ (forall₂_of_fst_snd hkeys hvalues)
      intro e he f _ hef
      obtain ⟨hkey, hvalue⟩ := mem_components_of_entry s i he
      rw [entryContents, entryContents, ih _ hkey hef.1, ih _ hvalue hef.2]
    rw [sameContents, sameEntries_iff fun e _ => ⟨sameContents_iff e.1, sameContents_iff e.2⟩, hentries]
    exact horder.1.map _
  | node hty hxs =>
    rw [sameContents, Ty.name?_resolved_of_equivalent hty, beq_self_eq_true, Bool.true_and,
      sameEach_iff fun x _ => sameContents_iff x]
    exact each (fun x hx => List.mem_append_left _ hx) hxs

/-! ### Copies -/

mutual
/-- A copy in which all tables have one name. -/
def withTable (i : TableId) : Value → Value
  | .tuple ty xs => .tuple ty (eachWithTable i xs)
  | .list ty xs => .list ty (eachWithTable i xs)
  | .set ty xs => .set ty (eachWithTable i xs)
  | .map ty _ es => .map ty i (entriesWithTable i es)
  | .node ty xs as => .node ty (eachWithTable i xs) (annotationsWithTable i as)
  | v => v

def eachWithTable (i : TableId) : List Value → List Value
  | [] => []
  | x :: xs => x.withTable i :: eachWithTable i xs

def entriesWithTable (i : TableId) : List (Value × Value) → List (Value × Value)
  | [] => []
  | (k, v) :: es => (k.withTable i, v.withTable i) :: entriesWithTable i es

def annotationsWithTable (i : TableId) : List (String × Value) → List (String × Value)
  | [] => []
  | (label, v) :: as => (label, v.withTable i) :: annotationsWithTable i as
end

/-- Equality without the shortcut for maps that share a table: that of copies which share none. -/
def equalByContents (a b : Value) : Bool := (a.withTable 0).equal (b.withTable 1)

lemma eachWithTable_eq (xs : List Value) : eachWithTable i xs = xs.map (withTable i) := by
  induction xs with
  | nil => rw [eachWithTable, List.map_nil]
  | cons x xs ih => rw [eachWithTable, ih, List.map_cons]

lemma entriesWithTable_eq (es : List (Value × Value)) :
    entriesWithTable i es = es.map (Prod.map (withTable i) (withTable i)) := by
  induction es with
  | nil => rw [entriesWithTable, List.map_nil]
  | cons e es ih => rw [entriesWithTable, ih, List.map_cons, Prod.map]

lemma annotationsWithTable_eq (as : List (String × Value)) :
    annotationsWithTable i as = as.map (Prod.map id (withTable i)) := by
  induction as with
  | nil => rw [annotationsWithTable, List.map_nil]
  | cons a as ih => rw [annotationsWithTable, ih, List.map_cons, Prod.map, id]

lemma components_withTable (v : Value) : (v.withTable i).components = v.components.map (withTable i) := by
  cases v <;> simp [withTable, components, eachWithTable_eq, entriesWithTable_eq,
    annotationsWithTable_eq, Function.comp_def]

/-- A copy differs in the names of its tables only. -/
lemma relabeled_withTable (v : Value) : v.Relabeled (v.withTable i) := by
  induction v using componentInduction with
  | _ v ih =>
  have each {xs : List Value} (hmem : ∀ x ∈ xs, x ∈ v.components) :
      List.Forall₂ Relabeled xs (xs.map (withTable i)) :=
    List.forall₂_map_right_iff.mpr (List.forall₂_same.mpr fun x hx => ih x (hmem x hx))
  cases v with
  | int n => exact .int n
  | real x => exact .real x
  | str s => exact .str s
  | loc l => exact .loc l
  | object ty payload => exact .object payload (Ty.equivalent_refl ty)
  | tuple ty xs =>
    rw [withTable, eachWithTable_eq]
    exact .tuple (Ty.equivalent_refl ty) (each fun x hx => hx)
  | list ty xs =>
    rw [withTable, eachWithTable_eq]
    exact .list (Ty.equivalent_refl ty) (each fun x hx => hx)
  | set ty xs =>
    rw [withTable, eachWithTable_eq]
    exact .set (Ty.equivalent_refl ty) (each fun x hx => hx) (.refl _)
  | map ty j es =>
    rw [withTable, entriesWithTable_eq]
    refine .map (Ty.equivalent_refl ty) ?_ ?_ (.refl _ _)
    · simpa [Function.comp_def] using @each (es.map (·.1)) fun x hx => List.mem_append_left _ hx
    · simpa [Function.comp_def] using @each (es.map (·.2)) fun x hx => List.mem_append_right _ hx
  | node ty xs as =>
    rw [withTable, eachWithTable_eq, annotationsWithTable_eq]
    refine .node (Ty.equivalent_refl ty) (each fun x hx => List.mem_append_left _ hx) ?_ ?_ (.refl _ _)
    · simp [Function.comp_def]
    · simpa [Function.comp_def] using @each (as.map (·.2)) fun x hx => List.mem_append_right _ hx

lemma Relabeled.withTable (h : v.Relabeled v') : (v.withTable i).Relabeled (v'.withTable i) := by
  induction v using componentInduction generalizing v' with
  | _ v ih =>
  have each {xs ys : List Value} (hmem : ∀ x ∈ xs, x ∈ v.components)
      (hxs : List.Forall₂ Relabeled xs ys) :
      List.Forall₂ Relabeled (xs.map (Value.withTable i)) (ys.map (Value.withTable i)) :=
    List.forall₂_map_left_iff.mpr (List.forall₂_map_right_iff.mpr
      ((forall₂_mem hxs).imp fun x y ⟨hx, _, hxy⟩ => ih x (hmem x hx) hxy))
  cases h with
  | int n => exact .int n
  | real x => exact .real x
  | str s => exact .str s
  | loc l => exact .loc l
  | object payload hty => exact .object payload hty
  | tuple hty hxs =>
    rw [Value.withTable, Value.withTable, eachWithTable_eq, eachWithTable_eq]
    exact .tuple hty (each (fun x hx => hx) hxs)
  | list hty hxs =>
    rw [Value.withTable, Value.withTable, eachWithTable_eq, eachWithTable_eq]
    exact .list hty (each (fun x hx => hx) hxs)
  | set hty hxs horder =>
    rw [Value.withTable, Value.withTable, eachWithTable_eq, eachWithTable_eq]
    exact .set hty (each (fun x hx => hx) hxs) (horder.map _)
  | map hty hkeys hvalues horder =>
    rw [Value.withTable, Value.withTable, entriesWithTable_eq, entriesWithTable_eq]
    have hsame (key k : Value) : key.sameContents (k.withTable i) = key.sameContents k := by
      rw [sameContents_comm, sameContents_comm key, (relabeled_withTable k).sameContents_eq]
    refine .map hty ?_ ?_ (horder.map hsame _)
    · simpa [Function.comp_def] using each (fun x hx => List.mem_append_left _ hx) hkeys
    · simpa [Function.comp_def] using each (fun x hx => List.mem_append_right _ hx) hvalues
  | node hty hxs hlabels has horder =>
    rw [Value.withTable, Value.withTable, eachWithTable_eq, eachWithTable_eq, annotationsWithTable_eq,
      annotationsWithTable_eq]
    refine .node hty (each (fun x hx => List.mem_append_left _ hx) hxs) ?_ ?_ (horder.map (fun _ _ => rfl) _)
    · simpa [Function.comp_def] using hlabels
    · simpa [Function.comp_def] using each (fun x hx => List.mem_append_right _ hx) has

/-- No map within the one shares its table with one within the other, unless both are empty. -/
def Apart (a b : Value) : Prop := ∀ s t i es fs,
  (map s i es).PartOf a → (map t i fs).PartOf b → es = [] ∧ fs = []

lemma Apart.symm (h : Apart a b) : Apart b a :=
  fun s t i es fs hes hfs => (h t s i fs es hfs hes).symm

lemma Apart.inside (h : Apart a b) {c : Value} (hc : c ∈ a.components) : Apart c b :=
  fun s t i es fs hes hfs => h s t i es fs (.inside hc hes) hfs

lemma Apart.components (h : Apart a b) {c d : Value} (hc : c ∈ a.components) (hd : d ∈ b.components) :
    Apart c d :=
  ((h.inside hc).symm.inside hd).symm

lemma table_of_partOf_withTable {t : Ty} {es : List (Value × Value)}
    (h : (map t j es).PartOf (v.withTable i)) : j = i := by
  induction v using componentInduction with
  | _ v ih =>
  generalize hu : v.withTable i = u at h
  cases h with
  | self =>
    cases v <;> simp only [withTable, reduceCtorEq, map.injEq] at hu
    exact hu.2.1.symm
  | inside hc h =>
    rw [← hu, components_withTable] at hc
    obtain ⟨d, hd, rfl⟩ := List.mem_map.mp hc
    exact ih d hd h

lemma apart_withTable (hij : i ≠ j) : Apart (v.withTable i) (w.withTable j) := by
  intro s t k es fs hes hfs
  exact absurd ((table_of_partOf_withTable hes).symm.trans (table_of_partOf_withTable hfs)) hij

end Value
end TypedValues
