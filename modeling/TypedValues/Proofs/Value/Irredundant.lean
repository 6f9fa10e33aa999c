import TypedValues.Proofs.Value.Members
import TypedValues.Proofs.Value.Origin

/-!
# Sets without repetition

However a set has come about, none of its elements answers to a later one. Two elements of the same contents
are then unequal, which only their types can make them.
-/

namespace TypedValues

namespace Value

/-- No element of a set within the value answers to a later one of the same set. -/
def Irredundant (v : Value) : Prop :=
  ∀ p : Value, p.PartOf v → ∀ ty xs, p = set ty xs → xs.Pairwise fun x y => x.answers y = false

end Value

open Value (Irredundant)

variable {held : List Value}

lemma SetValue.irredundant_elements {s : SetValue} (hs : (s : Value).Irredundant) :
    s.elements.Pairwise fun x y => x.answers y = false := hs s .self s.ty s.elements rfl

lemma SetValue.Made.irredundant {s : SetValue} (hheld : ∀ v ∈ held, v.Irredundant) (hs : s.Made held) :
    s.elements.Pairwise fun x y => x.answers y = false := by
  have helements {s : SetValue} (hs : (s : Value) ∈ held) :
      s.elements.Pairwise fun x y => x.answers y = false := irredundant_elements (hheld s hs)
  cases hs with
  | of | product | carrier | listCarrier => exact Members.pairwise_ofList _
  | empty => exact .nil
  | insert home hs hv => exact Members.pairwise_insert (helements hs)
  | erase hs hv => exact (helements hs).sublist List.eraseP_sublist
  | union home hs ht => exact Members.pairwise_union (helements hs) (helements ht)
  | inter home hs ht => exact Members.pairwise_inter (helements hs) (helements ht)
  | diff hs ht => exact Members.pairwise_diff (helements hs)
  | select hr h =>
    obtain ⟨e, vs, -, rfl⟩ := Relation.select_eq_ok.mp h
    exact Members.pairwise_ofList vs
  | compose hr hs h =>
    obtain ⟨-, -, fields, -, rfl⟩ := Relation.compose_eq_ok.mp h
    exact Members.pairwise_ofList _
  | closure hr h =>
    obtain ⟨-, fields, -, rfl⟩ := Relation.closure_eq_ok.mp h
    exact Members.pairwise_ofList _

/-- What is written to a set is inserted element by element. -/
lemma Writer.Written.irredundant {w x : Writer} (hw : w.current.Irredundant) (hx : w.Written held x) :
    ∀ ty xs, x.current = .set ty xs → xs.Pairwise fun x y => x.answers y = false := by
  have hcontents {w : SetWriter} {contents : List Value} (hp : w.phase = .filling contents)
      (hw : (Writer.set w).current.Irredundant) : contents.Pairwise fun x y => x.answers y = false := by
    refine hw _ .self w.ty contents ?_
    rw [Writer.current, SetWriter.finish, hp]
    rfl
  cases hx with
  | setInsert hv h =>
    obtain ⟨contents, hp, -, rfl⟩ := Phase.write_eq_ok.mp h
    rintro ty xs ⟨⟩
    exact Members.pairwise_insert (hcontents hp hw)
  | setInsertAll hvs h =>
    obtain ⟨contents, hp, -, rfl⟩ := Phase.write_eq_ok.mp h
    rintro ty xs ⟨⟩
    exact Members.pairwise_insertAll (hcontents hp hw)
  | _ =>
    intro ty xs heq
    cases heq

namespace Session

variable {s : Session} {n : Value}

lemma Added.irredundant (hs : ∀ r ∈ s.roots, r.Irredundant) (h : s.Added n) :
    ∀ ty xs, n = .set ty xs → xs.Pairwise fun x y => x.answers y = false := by
  cases h with
  | made hv =>
    have hvalues : ∀ v ∈ s.values, v.Irredundant := fun v hv => hs v (s.values_subset_roots hv)
    cases hv with
    | set hset =>
      rintro ty xs ⟨⟩
      exact hset.irredundant hvalues
    | component hv hc => exact hvalues _ hv _ (.inside hc .self)
    | _ => exact nofun
  | opened hw =>
    intro ty xs heq
    have hnil := hw.components_eq_nil
    rw [heq] at hnil
    rw [show xs = [] from hnil]
    exact .nil
  | written hw hx => exact hx.irredundant (hs _ hw)
  | kept hn => exact hs _ hn _ .self

/-- No set within a session that can be reached holds an element that answers to a later one. -/
theorem Reached.irredundant (hs : s.Reached) : ∀ r ∈ s.roots, r.Irredundant :=
  hs.forall_partOf (fun _ _ => nofun) fun _ _ hheld hn => hn.irredundant hheld

end Session
end TypedValues
