import Mathlib
import TypedValues.Ty.Join

/-!
# Chains of aliases

The aliases that two types both pass through are the chain of one alias: the nearest one they share.
-/

namespace TypedValues.Ty

variable {a b t x y : Ty} {h : UniverseId} {n : String}

@[simp] lemma resolved_aliasOf : (aliasOf h n t).resolved = t.resolved := rfl

@[simp] lemma resolved_void : void.resolved = .void := rfl

@[simp] lemma resolved_value : value.resolved = .value := rfl

@[simp] lemma aliasChain_aliasOf : (aliasOf h n t).aliasChain = .aliasOf h n t :: t.aliasChain := rfl

lemma isAlias_iff : t.isAlias = true ↔ ∃ h n s, t = .aliasOf h n s := by
  cases t <;> simp [isAlias]

@[simp] lemma isAlias_resolved (t : Ty) : t.resolved.isAlias = false := by
  fun_induction resolved t with
  | case1 h n t ih => exact ih
  | case2 t ht =>
    rw [Bool.eq_false_iff, Ne, isAlias_iff]
    rintro ⟨h, n, s, rfl⟩
    exact ht h n s rfl

lemma resolved_of_not_alias (ht : t.isAlias = false) : t.resolved = t := by
  cases t <;> first | rfl | simp [isAlias] at ht

@[simp] lemma resolved_resolved (t : Ty) : t.resolved.resolved = t.resolved :=
  resolved_of_not_alias (isAlias_resolved t)

lemma aliasChain_of_not_alias (ht : t.isAlias = false) : t.aliasChain = [] := by
  cases t <;> first | rfl | simp [isAlias] at ht

lemma mem_aliasChain_self (ht : t.isAlias = true) : t ∈ t.aliasChain := by
  obtain ⟨h, n, s, rfl⟩ := isAlias_iff.mp ht
  simp

lemma aliasChain_subset (hx : x ∈ t.aliasChain) : x.aliasChain ⊆ t.aliasChain := by
  fun_induction aliasChain t with
  | case1 h n t ih =>
    rcases List.mem_cons.mp hx with rfl | hx
    · exact List.Subset.refl _
    · exact List.subset_cons_of_subset _ (ih hx)
  | case2 => simp at hx

lemma resolved_of_mem (hx : x ∈ t.aliasChain) : x.resolved = t.resolved := by
  fun_induction aliasChain t with
  | case1 h n t ih =>
    rcases List.mem_cons.mp hx with rfl | hx
    · rfl
    · exact ih hx
  | case2 => simp at hx

lemma sizeOf_le_of_mem_aliasChain (hx : x ∈ t.aliasChain) : sizeOf x ≤ sizeOf t := by
  fun_induction aliasChain t with
  | case1 h n t ih =>
    rcases List.mem_cons.mp hx with rfl | hx
    · exact Nat.le_refl _
    · have := ih hx
      simp only [aliasOf.sizeOf_spec]
      omega
  | case2 => simp at hx

lemma eq_of_mem_aliasChain (hx : x ∈ y.aliasChain) (hy : y ∈ x.aliasChain) : x = y := by
  cases y with
  | aliasOf h n t =>
    rcases List.mem_cons.mp hx with rfl | hx
    · rfl
    · -- further down the chain types are smaller
      have h₁ := sizeOf_le_of_mem_aliasChain hx
      have h₂ := sizeOf_le_of_mem_aliasChain hy
      simp only [aliasOf.sizeOf_spec] at h₂
      omega
  | _ => simp [aliasChain] at hx

/-- Of two aliases on one chain the one further down is on the chain of the other. -/
lemma mem_aliasChain_total (hx : x ∈ t.aliasChain) (hy : y ∈ t.aliasChain) :
    x ∈ y.aliasChain ∨ y ∈ x.aliasChain := by
  fun_induction aliasChain t with
  | case1 h n t ih =>
    rcases List.mem_cons.mp hx with rfl | hx'
    · exact Or.inr hy
    · rcases List.mem_cons.mp hy with rfl | hy'
      · exact Or.inl hx
      · exact ih hx' hy'
  | case2 => simp at hx

lemma isAlias_of_mem_aliasChain (hx : x ∈ t.aliasChain) : t.isAlias = true := by
  by_contra ht
  rw [aliasChain_of_not_alias (by simpa using ht)] at hx
  simp at hx

lemma exists_void_alias (ht : t.isAlias = true) (hv : t.resolved = .void) :
    ∃ h n, .aliasOf h n .void ∈ t.aliasChain := by
  fun_induction aliasChain t with
  | case1 h n t ih =>
    rcases Bool.eq_false_or_eq_true t.isAlias with hs | hs
    · obtain ⟨k, m, hm⟩ := ih hs hv
      exact ⟨k, m, List.mem_cons_of_mem _ hm⟩
    · rw [resolved_aliasOf, resolved_of_not_alias hs] at hv
      exact ⟨h, n, by rw [hv]; exact List.mem_cons_self⟩
  | case2 t hne =>
    obtain ⟨h, n, s, rfl⟩ := isAlias_iff.mp ht
    exact absurd rfl (hne h n s)

/-- The chain of this alias holds the aliases that both types pass through. -/
def Shares (a b t : Ty) : Prop :=
  t.isAlias = true ∧ ∀ x, x ∈ t.aliasChain ↔ x ∈ a.aliasChain ∧ x ∈ b.aliasChain

namespace Shares

lemma mem (hs : Shares a b t) : t ∈ a.aliasChain ∧ t ∈ b.aliasChain :=
  (hs.2 t).mp (mem_aliasChain_self hs.1)

lemma symm (hs : Shares a b t) : Shares b a t := ⟨hs.1, fun x => (hs.2 x).trans and_comm⟩

lemma unique (hx : Shares a b x) (hy : Shares a b y) : x = y :=
  eq_of_mem_aliasChain ((hy.2 x).mpr hx.mem) ((hx.2 y).mpr hy.mem)

lemma resolved_left (hs : Shares a b t) : t.resolved = a.resolved := resolved_of_mem hs.mem.1

lemma resolved_right (hs : Shares a b t) : t.resolved = b.resolved := resolved_of_mem hs.mem.2

/-- The nearest alias of three is found from either end. -/
lemma assoc {c : Ty} (hx : Shares a b x) (hy : Shares b c y) : ∃ t, Shares x c t ∧ Shares a y t := by
  rcases mem_aliasChain_total hx.mem.2 hy.mem.1 with hxy | hyx
  · have hsub := aliasChain_subset hxy
    refine ⟨x, ⟨hx.1, fun z => ⟨fun hz => ⟨hz, ((hy.2 z).mp (hsub hz)).2⟩, And.left⟩⟩, hx.1,
      fun z => ?_⟩
    constructor
    · exact fun hz => ⟨((hx.2 z).mp hz).1, hsub hz⟩
    · exact fun hz => (hx.2 z).mpr ⟨hz.1, ((hy.2 z).mp hz.2).1⟩
  · have hsub := aliasChain_subset hyx
    refine ⟨y, ⟨hy.1, fun z => ?_⟩, hy.1,
      fun z => ⟨fun hz => ⟨((hx.2 z).mp (hsub hz)).1, hz⟩, And.right⟩⟩
    constructor
    · exact fun hz => ⟨hsub hz, ((hy.2 z).mp hz).2⟩
    · exact fun hz => (hy.2 z).mpr ⟨((hx.2 z).mp hz.1).2, hz.2⟩

end Shares

lemma sharedAlias?_eq_none : sharedAlias? a b = none ↔ ∀ x ∈ a.aliasChain, x ∉ b.aliasChain := by
  simp [sharedAlias?]

lemma sharedAlias?_aliasOf : sharedAlias? (.aliasOf h n t) b =
    if .aliasOf h n t ∈ b.aliasChain then some (.aliasOf h n t) else sharedAlias? t b := by
  by_cases hb : aliasOf h n t ∈ b.aliasChain <;> simp [sharedAlias?, hb]

lemma shares_of_sharedAlias? (hs : sharedAlias? a b = some t) : Shares a b t := by
  fun_induction aliasChain a with
  | case1 h n s ih =>
    rw [sharedAlias?_aliasOf] at hs
    split_ifs at hs with hb
    · obtain rfl : aliasOf h n s = t := by simpa using hs
      exact ⟨rfl, fun x => ⟨fun hx => ⟨hx, aliasChain_subset hb hx⟩, And.left⟩⟩
    · have st := ih hs
      refine ⟨st.1, fun x => (st.2 x).trans ?_⟩
      constructor
      · exact fun hx => ⟨List.mem_cons_of_mem _ hx.1, hx.2⟩
      · rintro ⟨hx, hxb⟩
        rcases List.mem_cons.mp hx with rfl | hx
        · exact absurd hxb hb
        · exact ⟨hx, hxb⟩
  | case2 a ha => simp [sharedAlias?, aliasChain] at hs

lemma sharedAlias?_of_shares (hs : Shares a b t) : sharedAlias? a b = some t := by
  cases hf : sharedAlias? a b with
  | none => exact absurd hs.mem.2 (sharedAlias?_eq_none.mp hf t hs.mem.1)
  | some s => rw [(shares_of_sharedAlias? hf).unique hs]

lemma sharedAlias?_comm (a b : Ty) : sharedAlias? a b = sharedAlias? b a := by
  cases hs : sharedAlias? a b with
  | some t => exact (sharedAlias?_of_shares (shares_of_sharedAlias? hs).symm).symm
  | none =>
    symm
    rw [sharedAlias?_eq_none] at hs ⊢
    exact fun x hb ha => hs x ha hb

lemma sharedAlias?_eq_none_of_shares {c : Ty} (hs : Shares a b t) (hn : sharedAlias? b c = none) :
    sharedAlias? t c = none := by
  rw [sharedAlias?_eq_none] at hn ⊢
  exact fun x hx => hn x ((hs.2 x).mp hx).2

lemma sharedAlias?_eq_none_of_left (ha : a.isAlias = false) : sharedAlias? a b = none := by
  simp [sharedAlias?, aliasChain_of_not_alias ha]

lemma sharedAlias?_self (ha : a.isAlias = true) : sharedAlias? a a = some a :=
  sharedAlias?_of_shares ⟨ha, fun _ => (and_self_iff).symm⟩

end TypedValues.Ty
