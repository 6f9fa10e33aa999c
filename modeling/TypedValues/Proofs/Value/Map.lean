import Mathlib
import TypedValues.Proofs.Table
import TypedValues.Proofs.Value.WellTyped
import TypedValues.Value.Map

/-!
# Well-typed maps

A map widens its types for every binding it takes in.
-/

namespace TypedValues

namespace Bindings

variable {b : Bindings} {fresh : TableId} {key v : Value} {e : Value × Value}

lemma mem_put (he : e ∈ (b.put fresh key v).entries) : e ∈ b.entries ∨ e = (key, v) := by
  have written (he : e ∈ Table.put (·.answers key) key v b.entries) :
      e ∈ b.entries ∨ e = (key, v) := (Table.mem_put _ he).symm
  unfold put at he
  dsimp only at he
  split at he
  · split_ifs at he
    · exact Or.inl he
    · exact written he
  · exact written he

lemma mem_putAll {es : List (Value × Value)} (he : e ∈ (b.putAll fresh es).entries) :
    e ∈ b.entries ∨ e ∈ es := by
  induction es generalizing b with
  | nil => exact Or.inl he
  | cons f es ih =>
    rcases ih he with he | he
    · rcases mem_put he with he | rfl
      · exact Or.inl he
      · exact Or.inr List.mem_cons_self
    · exact Or.inr (List.mem_cons_of_mem f he)

/-- Where no key answers, there is nothing to remove. -/
lemma entries_erase : (b.erase fresh key).entries = Table.erase (·.answers key) b.entries := by
  unfold erase
  split
  · rfl
  · next hnone =>
    rw [binding?, Table.binding?, List.find?_isSome] at hnone
    exact (List.eraseP_of_forall_not fun e he hanswers => hnone ⟨e, he, hanswers⟩).symm

lemma mem_of_mem_erase (he : e ∈ (b.erase fresh key).entries) : e ∈ b.entries := by
  rw [entries_erase] at he
  exact Table.mem_of_mem_erase (·.answers key) he

end Bindings

namespace MapValue

variable {home : UniverseId} {fresh : TableId} {m n : MapValue} {b : Bindings} {k v : Field}
  {key value : Value}

/-- All keys and values belong to these fields. -/
def EntriesFit (k v : Field) (es : List (Value × Value)) : Prop :=
  ∀ e ∈ es, e.1.Inhabits k.item ∧ e.2.Inhabits v.item

lemma wellTyped_iff : (m : Value).WellTyped ↔
    ∃ k v, m.ty.mapFields? = some (k, v) ∧ EntriesFit k v m.entries :=
  Value.wellTyped_map

lemma EntriesFit.mono {k' v' : Field} {es : List (Value × Value)} (he : EntriesFit k v es)
    (hk : k.item.subtype k'.item = true) (hv : v.item.subtype v'.item = true) :
    EntriesFit k' v' es :=
  fun e hmem => ⟨(he e hmem).1.mono hk, (he e hmem).2.mono hv⟩

lemma EntriesFit.put (hb : EntriesFit k v b.entries) (hk : key.Inhabits k.item)
    (hv : value.Inhabits v.item) : EntriesFit k v (b.put fresh key value).entries := by
  intro e he
  rcases Bindings.mem_put he with he | rfl
  · exact hb e he
  · exact ⟨hk, hv⟩

lemma EntriesFit.putAll {es : List (Value × Value)} (hb : EntriesFit k v b.entries)
    (hes : EntriesFit k v es) : EntriesFit k v (b.putAll fresh es).entries := by
  intro e he
  rcases Bindings.mem_putAll he with he | he
  · exact hb e he
  · exact hes e he

lemma wellTyped_empty (s t : Ty) : (empty home s t : Value).WellTyped :=
  wellTyped_iff.mpr ⟨.plain s, .plain t, rfl, nofun⟩

/-- The widened type is one of maps that hold the old entries and the one added. -/
lemma widened_spec (home : UniverseId) (hm : m.ty.mapFields? = some (k, v))
    (addedKey addedValue : Ty) :
    ∃ k' v', (m.widened home addedKey addedValue).mapFields? = some (k', v') ∧
      (k.item.subtype k'.item = true ∧ addedKey.subtype k'.item = true) ∧
      v.item.subtype v'.item = true ∧ addedValue.subtype v'.item = true := by
  have hk := Ty.subtype_join_right home k.item addedKey
  have hv := Ty.subtype_join_right home v.item addedValue
  simp only [widened, hm]
  split_ifs with hj
  · rw [hj.1] at hk
    rw [hj.2] at hv
    exact ⟨k, v, hm, ⟨Ty.subtype_refl _, hk⟩, Ty.subtype_refl _, hv⟩
  · exact ⟨_, _, rfl, ⟨Ty.subtype_join_left home k.item addedKey, hk⟩,
      Ty.subtype_join_left home v.item addedValue, hv⟩

lemma wellTyped_put (hm : (m : Value).WellTyped) (hk : key.WellTyped) (hv : value.WellTyped) :
    (m.put home fresh key value : Value).WellTyped := by
  obtain ⟨k, v, hty, hes⟩ := wellTyped_iff.mp hm
  obtain ⟨k', v', hw, ⟨hkk, hka⟩, hvv, hva⟩ :=
    widened_spec home hty key.runtimeType value.runtimeType
  exact wellTyped_iff.mpr
    ⟨k', v', hw, (hes.mono hkk hvv : EntriesFit k' v' m.bindings.entries).put ⟨hka, hk⟩ ⟨hva, hv⟩⟩

lemma wellTyped_erase (hm : (m : Value).WellTyped) : (m.erase fresh key : Value).WellTyped := by
  obtain ⟨k, v, hty, hes⟩ := wellTyped_iff.mp hm
  exact wellTyped_iff.mpr ⟨k, v, hty, fun e he => hes e (Bindings.mem_of_mem_erase he)⟩

lemma wellTyped_join (hm : (m : Value).WellTyped) (hn : (n : Value).WellTyped) :
    (m.join home fresh n : Value).WellTyped := by
  obtain ⟨k, v, hmt, hme⟩ := wellTyped_iff.mp hm
  obtain ⟨k', v', hnt, hne⟩ := wellTyped_iff.mp hn
  obtain ⟨k'', v'', hj⟩ := Ty.exists_mapFields_join home hmt hnt
  obtain ⟨hkk, hvv⟩ := Ty.mapFields_subtype (Ty.subtype_join_left home m.ty n.ty) hmt hj
  obtain ⟨hkk', hvv'⟩ := Ty.mapFields_subtype (Ty.subtype_join_right home m.ty n.ty) hnt hj
  exact wellTyped_iff.mpr ⟨k'', v'', hj,
    (hme.mono hkk hvv : EntriesFit k'' v'' m.bindings.entries).putAll (hne.mono hkk' hvv')⟩

end MapValue
end TypedValues
