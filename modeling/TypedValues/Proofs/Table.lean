import Mathlib
import TypedValues.Table

/-!
# Entries of a table

What looking up, replacing and removing do to the first entry of a table and to the rest.
-/

namespace TypedValues.Table

variable {κ ν : Type} (same : κ → Bool)

@[simp] lemma binding?_nil : binding? same ([] : Table κ ν) = none := rfl

lemma binding?_cons (e : κ × ν) (t : Table κ ν) :
    binding? same (e :: t) = if same e.1 then some e else binding? same t := by
  rw [binding?, List.find?_cons]
  split <;> simp [*, binding?]

@[simp] lemma put_nil (key : κ) (value : ν) : put same key value [] = [(key, value)] := rfl

lemma put_cons (key : κ) (value : ν) (e : κ × ν) (t : Table κ ν) :
    put same key value (e :: t) =
      if same e.1 then (key, value) :: t else e :: put same key value t := rfl

@[simp] lemma erase_nil : erase same ([] : Table κ ν) = [] := rfl

lemma erase_cons (e : κ × ν) (t : Table κ ν) :
    erase same (e :: t) = if same e.1 then t else e :: erase same t := by
  rw [erase, List.eraseP_cons]
  cases same e.1 <;> rfl

lemma length_erase (t : Table κ ν) :
    (erase same t).length + (if (binding? same t).isSome then 1 else 0) = t.length := by
  induction t with
  | nil => simp
  | cons e t ih =>
    rw [erase_cons, binding?_cons]
    by_cases h : same e.1 = true
    · simp [h]
    · rw [if_neg h, if_neg h, List.length_cons, List.length_cons, ← ih]
      omega

lemma mem_of_mem_erase {e : κ × ν} {t : Table κ ν} (h : e ∈ erase same t) : e ∈ t :=
  List.mem_of_mem_eraseP h

/-- The key that has just been put in is the one that is found. -/
lemma binding?_put_self {key : κ} (hkey : same key = true) (value : ν) (t : Table κ ν) :
    binding? same (put same key value t) = some (key, value) := by
  induction t with
  | nil => rw [put_nil, binding?_cons, if_pos hkey]
  | cons e t ih =>
    rw [put_cons]
    split
    · rw [binding?_cons, if_pos hkey]
    · next hother => rw [binding?_cons, if_neg hother, ih]

/-- A new entry that is removed again leaves the table as it was. -/
lemma erase_put_self {key : κ} (hkey : same key = true) (value : ν) {t : Table κ ν}
    (hnew : binding? same t = none) : erase same (put same key value t) = t := by
  induction t with
  | nil => rw [put_nil, erase_cons, if_pos hkey]
  | cons e t ih =>
    rw [binding?_cons] at hnew
    split at hnew
    · cases hnew
    · next hother => rw [put_cons, if_neg hother, erase_cons, if_neg hother, ih hnew]

/-- A key that no entry has goes to the end. -/
lemma put_of_new {t : Table κ ν} (hnew : binding? same t = none) (key : κ) (value : ν) :
    put same key value t = t ++ [(key, value)] := by
  induction t with
  | nil => rfl
  | cons e t ih =>
    rw [binding?_cons] at hnew
    split at hnew
    · cases hnew
    · next hother => rw [put_cons, if_neg hother, ih hnew, List.cons_append]

/-- Up to their order, the entries are the new one and those that it does not replace. -/
lemma put_perm (key : κ) (value : ν) (t : Table κ ν) :
    (put same key value t).Perm ((key, value) :: erase same t) := by
  induction t with
  | nil => exact .refl _
  | cons e t ih =>
    rw [put_cons, erase_cons]
    split
    · exact .refl _
    · exact (ih.cons e).trans (.swap _ _ _)

lemma mem_put {key : κ} {value : ν} {e : κ × ν} {t : Table κ ν} (h : e ∈ put same key value t) :
    e = (key, value) ∨ e ∈ t :=
  (List.mem_cons.mp ((put_perm same key value t).subset h)).imp_right (mem_of_mem_erase same)

lemma length_put (key : κ) (value : ν) (t : Table κ ν) :
    (put same key value t).length = t.length + if (binding? same t).isSome then 0 else 1 := by
  have hrest := length_erase same t
  rw [(put_perm same key value t).length_eq, List.length_cons]
  cases hfound : (binding? same t).isSome <;> simpa [hfound] using hrest

lemma mem_of_binding? {e : κ × ν} {t : Table κ ν} (h : binding? same t = some e) : e ∈ t :=
  List.mem_of_find?_eq_some h

lemma same_of_binding? {e : κ × ν} {t : Table κ ν} (h : binding? same t = some e) :
    same e.1 = true :=
  List.find?_some (p := fun d : κ × ν => same d.1) h

/-- The only entry that passes is the first that does. -/
lemma binding?_eq_some_of_unique {e : κ × ν} {t : Table κ ν} (he : e ∈ t) (hsame : same e.1 = true)
    (hone : ∀ d ∈ t, same d.1 = true → d = e) : binding? same t = some e := by
  have hsome : (binding? same t).isSome = true := List.find?_isSome.mpr ⟨e, he, hsame⟩
  obtain ⟨d, hd⟩ := Option.isSome_iff_exists.mp hsome
  rw [hd, hone d (mem_of_binding? same hd) (same_of_binding? same hd)]

section Keys

variable [BEq κ] [LawfulBEq κ] {key : κ} {t : Table κ ν}

lemma get?_eq_none_iff : get? (· == key) t = none ↔ ∀ e ∈ t, e.1 ≠ key := by
  rw [get?, Option.map_eq_none_iff, binding?, List.find?_eq_none]
  simp

lemma nodup_keys_append {value : ν} (h : (t.map (·.1)).Nodup) (hnew : get? (· == key) t = none) :
    ((t ++ [(key, value)]).map (·.1)).Nodup := by
  rw [List.map_append, List.nodup_append]
  refine ⟨h, List.nodup_singleton _, fun k hk k' hk' => ?_⟩
  obtain ⟨e, he, rfl⟩ := List.mem_map.mp hk
  obtain rfl : k' = key := List.mem_singleton.mp hk'
  exact get?_eq_none_iff.mp hnew e he

lemma nodup_keys_put (value : ν) (h : (t.map (·.1)).Nodup) :
    ((put (· == key) key value t).map (·.1)).Nodup := by
  induction t with
  | nil => simp
  | cons e t ih =>
    have he : e.1 ∉ t.map (·.1) := (List.nodup_cons.mp h).1
    have ht : (t.map (·.1)).Nodup := (List.nodup_cons.mp h).2
    rw [put_cons]
    split
    · rename_i hsame
      rw [eq_of_beq hsame] at he
      exact List.nodup_cons.mpr ⟨he, ht⟩
    · rename_i hother
      refine List.nodup_cons.mpr ⟨?_, ih ht⟩
      intro hmem
      obtain ⟨d, hd, hde⟩ := List.mem_map.mp hmem
      rcases mem_put _ hd with rfl | hd
      · exact hother (beq_iff_eq.mpr hde.symm)
      · exact he (List.mem_map.mpr ⟨d, hd, hde⟩)

/-- An entry behind the others is found if none of them is. -/
lemma get?_concat [DecidableEq κ] (k key : κ) (value : ν) (t : Table κ ν) :
    get? (· == k) (t ++ [(key, value)]) = (get? (· == k) t).or (if key = k then some value else none) := by
  rw [get?, binding?, List.find?_append, Option.map_or]
  by_cases h : key = k <;> simp [get?, binding?, h]

lemma get?_put [DecidableEq κ] (k key : κ) (value : ν) (t : Table κ ν) :
    get? (· == k) (put (· == key) key value t) =
      if key = k then some value else get? (· == k) t := by
  induction t with
  | nil => by_cases h : key = k <;> simp [get?, binding?_cons, h]
  | cons e t ih =>
    unfold get? at ih ⊢
    rw [put_cons]
    by_cases he : e.1 = key
    · by_cases h : key = k <;> simp [binding?_cons, he, h]
    · by_cases h : key = k
      · subst h
        simpa [binding?_cons, he] using ih
      · by_cases hk : e.1 = k <;> simp_all [binding?_cons]

lemma mem_of_get? {value : ν} (h : get? (· == key) t = some value) : (key, value) ∈ t := by
  obtain ⟨e, he, rfl⟩ := Option.map_eq_some_iff.mp h
  obtain rfl : e.1 = key := eq_of_beq (same_of_binding? (· == key) he)
  exact mem_of_binding? _ he

lemma mem_iff_get? {value : ν} (h : (t.map (·.1)).Nodup) :
    (key, value) ∈ t ↔ get? (· == key) t = some value := by
  refine ⟨fun hmem => ?_, mem_of_get?⟩
  have hfound : binding? (· == key) t = some (key, value) :=
    binding?_eq_some_of_unique (· == key) hmem BEq.rfl fun d hd hkey =>
      List.inj_on_of_nodup_map h hd hmem (eq_of_beq hkey)
  rw [get?, hfound, Option.map_some]

lemma get?_reverse (h : (t.map (·.1)).Nodup) : get? (· == key) t.reverse = get? (· == key) t := by
  have hreverse : (t.reverse.map (·.1)).Nodup := by
    rw [List.map_reverse]
    exact List.nodup_reverse.mpr h
  ext value
  rw [← mem_iff_get? hreverse, ← mem_iff_get? h, List.mem_reverse]

omit [LawfulBEq κ] in
lemma get?_flatMap {α : Type} (key : κ) (xs : List α) (f : α → Table κ ν) :
    get? (· == key) (xs.flatMap f) = xs.findSome? fun x => get? (· == key) (f x) := by
  rw [get?, binding?, List.find?_flatMap, List.map_findSome?]
  rfl

/-- Of the entries that are written into a table one after the other, the last one of a key is found. -/
lemma get?_foldl_put [DecidableEq κ] (k : κ) (es t : Table κ ν) :
    get? (· == k) (es.foldl (fun t e => put (· == e.1) e.1 e.2 t) t) =
      (get? (· == k) es.reverse).or (get? (· == k) t) := by
  induction es generalizing t with
  | nil => rfl
  | cons e es ih =>
    rw [List.foldl_cons, ih, get?_put, List.reverse_cons, get?_concat, Option.or_assoc]
    split <;> rfl

lemma nodup_keys_foldl_put (es : Table κ ν) (h : (t.map (·.1)).Nodup) :
    ((es.foldl (fun t e => put (· == e.1) e.1 e.2 t) t).map (·.1)).Nodup := by
  induction es generalizing t with
  | nil => exact h
  | cons e es ih => exact ih (nodup_keys_put e.2 h)

omit [BEq κ] [LawfulBEq κ] in
lemma nodup_keys_erase (h : (t.map (·.1)).Nodup) : ((erase same t).map (·.1)).Nodup :=
  h.sublist (List.eraseP_sublist.map _)

end Keys

end TypedValues.Table
