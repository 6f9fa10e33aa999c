import TypedValues.Proofs.Classes
import TypedValues.Proofs.Value.Equality

/-!
# Equality from the other side

Equality of sets and maps counts the elements and looks each of the one up in the other. This says the
same from either side, and finds the same contents, unless two elements of the one are answered by a
single element of the other.
-/

namespace TypedValues

section Matching

variable {α β : Type} {r : α → β → Prop} {xs : List α} {ys : List β}

/-- Lists of one length can be matched when each element of the first has a partner in the second and no
two of them have the same. -/
lemma exists_perm_forall₂ (hlen : xs.length = ys.length) (hr : ∀ x ∈ xs, ∃ y ∈ ys, r x y)
    (hone : ∀ y ∈ ys, xs.Pairwise fun x x' => ¬ (r x y ∧ r x' y)) :
    ∃ zs, zs.Perm ys ∧ List.Forall₂ r xs zs := by
  induction xs generalizing ys with
  | nil =>
    have hys : ys = [] := List.length_eq_zero_iff.mp hlen.symm
    exact ⟨[], by rw [hys], .nil⟩
  | cons x xs ih =>
    obtain ⟨y, hy, hxy⟩ := hr x List.mem_cons_self
    obtain ⟨pre, post, rfl⟩ := List.append_of_mem hy
    have hothers := (List.pairwise_cons.mp (hone y hy)).1
    have hlen' : xs.length = (pre ++ post).length := by
      simp only [List.length_cons, List.length_append] at hlen ⊢
      omega
    have hmem : ∀ z, z ∈ pre ++ post → z ∈ pre ++ y :: post := by
      intro z hz
      exact List.perm_middle.mem_iff.mpr (List.mem_cons_of_mem y hz)
    have hr' : ∀ x' ∈ xs, ∃ z ∈ pre ++ post, r x' z := by
      intro x' hx'
      obtain ⟨z, hz, hxz⟩ := hr x' (List.mem_cons_of_mem x hx')
      rcases List.mem_cons.mp (List.perm_middle.mem_iff.mp hz) with rfl | hz
      · exact absurd ⟨hxy, hxz⟩ (hothers x' hx')
      · exact ⟨z, hz, hxz⟩
    obtain ⟨zs, hperm, hzs⟩ := ih hlen' hr' fun z hz =>
      (List.pairwise_cons.mp (hone z (hmem z hz))).2
    exact ⟨y :: zs, (hperm.cons y).trans List.perm_middle.symm, .cons hxy hzs⟩

lemma map_eq_map_of_forall₂ {γ : Type} {f : α → γ} {g : β → γ} (h : List.Forall₂ r xs ys)
    (hfg : ∀ x ∈ xs, ∀ y ∈ ys, r x y → f x = g y) : xs.map f = ys.map g := by
  induction h with
  | nil => rfl
  | @cons x y xs ys hxy _ ih =>
    rw [List.map_cons, List.map_cons, hfg x List.mem_cons_self y List.mem_cons_self hxy]
    congr 1
    apply ih
    intro x' hx' y' hy'
    exact hfg x' (List.mem_cons_of_mem x hx') y' (List.mem_cons_of_mem y hy')

lemma eq_of_pairwise_not_both {p : α → Prop} (h : xs.Pairwise fun x x' => ¬ (p x ∧ p x')) {x x' : α}
    (hx : x ∈ xs) (hx' : x' ∈ xs) (hpx : p x) (hpx' : p x') : x = x' := by
  induction h with
  | nil => exact absurd hx List.not_mem_nil
  | @cons z xs hz _ ih =>
    rcases List.mem_cons.mp hx with hxz | hxs
    · rcases List.mem_cons.mp hx' with hxz' | hxs'
      · exact hxz.trans hxz'.symm
      · exact absurd ⟨hxz ▸ hpx, hpx'⟩ (hz x' hxs')
    · rcases List.mem_cons.mp hx' with hxz' | hxs'
      · exact absurd ⟨hxz' ▸ hpx', hpx⟩ (hz x hxs)
      · exact ih hxs hxs'

end Matching

namespace Value

/-- If the first value equals the second, the second equals the first and has the same contents. -/
def Mirrored (a b : Value) : Prop :=
  a.equal b = true → b.equal a = true ∧ a.sameContents b = true

variable {s t : Ty} {i j : TableId} {xs ys : List Value} {es fs : List (Value × Value)}
  {as bs : List (String × Value)} {a b x y : Value}

section Composites

lemma Mirrored.answers (h : Mirrored y x) (hyx : y.answers x = true) : x.answers y = true := by
  obtain ⟨hsame, hequal⟩ := answers_iff.mp hyx
  rw [sameContents_comm] at hsame
  exact answers_iff.mpr ⟨hsame, (h hequal).1⟩

lemma forall₂_mirrored (h : ∀ x ∈ xs, ∀ y ∈ ys, Mirrored x y)
    (heq : List.Forall₂ (fun x y => x.equal y = true) xs ys) :
    List.Forall₂ (fun y x => y.equal x = true) ys xs ∧ sameEach xs ys = true := by
  induction heq with
  | nil => exact ⟨.nil, by rw [sameEach]⟩
  | @cons x y xs ys hxy _ ih =>
    obtain ⟨hyx, hsame⟩ := h x List.mem_cons_self y List.mem_cons_self hxy
    obtain ⟨hback, heach⟩ := ih fun x' hx' y' hy' =>
      h x' (List.mem_cons_of_mem x hx') y' (List.mem_cons_of_mem y hy')
    exact ⟨.cons hyx hback, by rw [sameEach, hsame, heach]; rfl⟩

lemma InOrder.mirrored (hab : InOrder a b s t xs ys) (hba : InOrder b a t s ys xs)
    (h : ∀ x ∈ xs, ∀ y ∈ ys, Mirrored x y) : Mirrored a b := by
  intro heq
  obtain ⟨hcomparable, heach⟩ := hab.equal_iff.mp heq
  obtain ⟨hback, hsame⟩ := forall₂_mirrored h heach
  rw [Ty.comparable_comm] at hcomparable
  exact ⟨hba.equal_iff.mpr ⟨hcomparable, hback⟩, by rw [hab.sameContents_eq, hsame]⟩

lemma mirrored_set (h : ∀ x ∈ xs, ∀ y ∈ ys, Mirrored y x)
    (hone : ∀ y ∈ ys, xs.Pairwise fun x x' => ¬ (y.answers x = true ∧ y.answers x' = true)) :
    Mirrored (set s xs) (set t ys) := by
  intro heq
  obtain ⟨hcomparable, hlen, hanswers⟩ := equal_set.mp heq
  obtain ⟨zs, hperm, hzs⟩ := exists_perm_forall₂ hlen hanswers hone
  constructor
  · rw [Ty.comparable_comm] at hcomparable
    refine equal_set.mpr ⟨hcomparable, hlen.symm, ?_⟩
    intro y hy
    obtain ⟨x, hx, hyx⟩ := exists_left_of_forall₂ hzs (hperm.symm.subset hy)
    exact ⟨x, hx, (h x hx y hy).answers hyx⟩
  · have hmap : xs.map sameContents = zs.map sameContents := by
      apply map_eq_map_of_forall₂ hzs
      intro x _ z _ hzx
      exact ((sameContents_iff z x).mp (answers_iff.mp hzx).1).symm
    rw [sameContents, sameInAnyOrder_iff fun x _ => sameContents_iff x, hmap]
    exact hperm.map sameContents

lemma mirrored_map (htable : i = j → es = fs)
    (h : ∀ e ∈ es, ∀ f ∈ fs, Mirrored e.1 f.1 ∧ Mirrored f.1 e.1 ∧ Mirrored f.2 e.2)
    (hone : ∀ f ∈ fs,
      es.Pairwise fun e e' => ¬ (f.1.answers e.1 = true ∧ f.1.answers e'.1 = true)) :
    Mirrored (map s i es) (map t j fs) := by
  intro heq
  obtain ⟨hcomparable, hentries⟩ := equal_map.mp heq
  rw [Ty.comparable_comm] at hcomparable
  rcases hentries with hij | ⟨hlen, hfound⟩
  · have hself := sameContents_self (map s i es)
    rw [sameContents, htable hij] at hself
    rw [sameContents, htable hij]
    exact ⟨equal_map.mpr ⟨hcomparable, Or.inl hij.symm⟩, hself⟩
  · have hpartner : ∀ e ∈ es, ∃ f ∈ fs, f.1.answers e.1 = true ∧ f.2.equal e.2 = true := by
      intro e he
      obtain ⟨f, hf, hequal⟩ := hfound e he
      exact ⟨f, Table.mem_of_binding? _ hf,
        Table.same_of_binding? (fun key : Value => key.answers e.1) hf, hequal⟩
    obtain ⟨gs, hperm, hgs⟩ := exists_perm_forall₂ hlen hpartner fun f hf =>
      (hone f hf).imp fun hnot hboth => hnot ⟨hboth.1.1, hboth.2.1⟩
    constructor
    · refine equal_map.mpr ⟨hcomparable, Or.inr ⟨hlen.symm, ?_⟩⟩
      intro f hf
      obtain ⟨e, he, hkey, hvalue⟩ := exists_left_of_forall₂ hgs (hperm.symm.subset hf)
      obtain ⟨hef, hfe, hvalues⟩ := h e he f hf
      refine ⟨e, ?_, (hvalues hvalue).1⟩
      apply Table.binding?_eq_some_of_unique (·.answers f.1) he (hfe.answers hkey)
      intro e' he' hanswers
      have hkey' := (h e' he' f hf).1.answers hanswers
      exact eq_of_pairwise_not_both (hone f hf) he' he hkey' hkey
    · have hmap : es.map entryContents = gs.map entryContents := by
        apply map_eq_map_of_forall₂ hgs
        intro e he g hg hge
        have hkeys := (sameContents_iff g.1 e.1).mp (answers_iff.mp hge.1).1
        have hvalues := ((h e he g (hperm.subset hg)).2.2 hge.2).2
        rw [entryContents, entryContents, hkeys, (sameContents_iff g.2 e.2).mp hvalues]
      rw [sameContents, sameEntries_iff fun e _ => ⟨sameContents_iff e.1, sameContents_iff e.2⟩, hmap]
      exact hperm.map entryContents

lemma mirrored_node (hs : s.isConstructor = true) (ht : t.isConstructor = true)
    (h : ∀ x ∈ xs, ∀ y ∈ ys, Mirrored x y) (hlabels : (as.map (·.1)).Nodup)
    (has : ∀ c ∈ as, ∀ d ∈ bs, Mirrored c.2 d.2) :
    Mirrored (node s xs as) (node t ys bs) := by
  intro heq
  obtain ⟨hcomparable, heach, hlen, hfound⟩ := equal_node.mp heq
  obtain ⟨hback, hsame⟩ := forall₂_mirrored h heach
  have hname := Ty.name?_eq_of_comparable hs ht hcomparable
  rw [Ty.comparable_comm] at hcomparable
  have hdistinct : ∀ label : String, as.Pairwise fun c c' => ¬ (label = c.1 ∧ label = c'.1) := by
    intro label
    exact (List.pairwise_map.mp hlabels).imp fun hne hboth => hne (hboth.1.symm.trans hboth.2)
  have hpartner : ∀ c ∈ as, ∃ d ∈ bs, d.1 = c.1 ∧ c.2.equal d.2 = true := by
    intro c hc
    obtain ⟨d, hd, hequal⟩ := hfound c hc
    exact ⟨d, Table.mem_of_binding? _ hd, eq_of_beq (Table.same_of_binding? (· == c.1) hd), hequal⟩
  obtain ⟨ds, hperm, hds⟩ := exists_perm_forall₂ hlen hpartner fun d _ =>
    (hdistinct d.1).imp fun hnot hboth => hnot ⟨hboth.1.1, hboth.2.1⟩
  constructor
  · refine equal_node.mpr ⟨hcomparable, hback, hlen.symm, ?_⟩
    intro d hd
    obtain ⟨c, hc, hlabel, hequal⟩ := exists_left_of_forall₂ hds (hperm.symm.subset hd)
    refine ⟨c, ?_, (has c hc d hd hequal).1⟩
    apply Table.binding?_eq_some_of_unique (· == d.1) hc (beq_iff_eq.mpr hlabel.symm)
    intro c' hc' hsame'
    exact eq_of_pairwise_not_both (hdistinct d.1) hc' hc (eq_of_beq hsame').symm hlabel
  · rw [sameContents, hname, hsame, beq_self_eq_true]
    rfl

end Composites

end Value
end TypedValues
