import Mathlib
import TypedValues.Proofs.Value.Node
import TypedValues.Proofs.Value.Relation
import TypedValues.Proofs.Value.Session
import TypedValues.Proofs.Value.Writer

/-!
# Well-typed sessions

Every value of a session is well typed, and so is whatever its writers would hand out: each call keeps
this, and a session starts with nothing.
-/

namespace TypedValues

variable {held : List Value}

/-! ### One call -/

lemma TupleValue.Made.wellTyped {t : TupleValue} (hh : ∀ v ∈ held, v.WellTyped)
    (ht : t.Made held) : (t : Value).WellTyped := by
  cases ht with
  | of home hvs => exact wellTyped_of fun v hv => hh v (hvs hv)
  | ofType hvs h => exact wellTyped_ofType (fun v hv => hh v (hvs hv)) h
  | set ht hv h => exact wellTyped_set (hh _ ht) (hh _ hv) h
  | setLabel ht hv h => exact wellTyped_setLabel (hh _ ht) (hh _ hv) h
  | select ht h => exact wellTyped_select (hh _ ht) h
  | selectLabels ht h => exact wellTyped_selectLabels (hh _ ht) h

lemma ListValue.Made.wellTyped {l : ListValue} (hh : ∀ v ∈ held, v.WellTyped)
    (hl : l.Made held) : (l : Value).WellTyped := by
  cases hl with
  | of home hvs => exact wellTyped_of fun v hv => hh v (hvs hv)
  | empty home t => exact wellTyped_empty t
  | cons home hl hv => exact wellTyped_cons (hh _ hl) (hh _ hv)
  | concat home hl hv => exact wellTyped_concat (hh _ hl) (hh _ hv)
  | append home hl hm => exact wellTyped_append (hh _ hl) (hh _ hm)
  | reverse hl => exact wellTyped_reverse (hh _ hl)
  | select hr h => exact ListRelation.wellTyped_select (hh _ hr) h
  | compose hr hs h => exact ListRelation.wellTyped_compose (hh _ hr) (hh _ hs) h

lemma SetValue.Made.wellTyped {s : SetValue} (hh : ∀ v ∈ held, v.WellTyped)
    (hs : s.Made held) : (s : Value).WellTyped := by
  cases hs with
  | of home hvs => exact wellTyped_of fun v hv => hh v (hvs hv)
  | empty home t => exact wellTyped_empty t
  | insert home hs hv => exact wellTyped_insert (hh _ hs) (hh _ hv)
  | erase hs hv => exact wellTyped_erase (hh _ hs)
  | union home hs ht => exact wellTyped_union (hh _ hs) (hh _ ht)
  | inter home hs ht => exact wellTyped_inter (hh _ hs) (hh _ ht)
  | diff hs ht => exact wellTyped_diff (hh _ hs)
  | product home hs ht => exact Relation.wellTyped_product (hh _ hs) (hh _ ht)
  | select hr h => exact Relation.wellTyped_select (hh _ hr) h
  | compose hr hs h => exact Relation.wellTyped_compose (hh _ hr) (hh _ hs) h
  | closure hr h => exact Relation.wellTyped_closure (hh _ hr) h
  | carrier home hr => exact Relation.wellTyped_carrier (hh _ hr)
  | listCarrier home hr => exact ListRelation.wellTyped_carrier (hh _ hr)

lemma MapValue.Made.wellTyped {m : MapValue} (hh : ∀ v ∈ held, v.WellTyped)
    (hm : m.Made held) : (m : Value).WellTyped := by
  cases hm with
  | empty home s t => exact wellTyped_empty s t
  | put home fresh hm hk hv => exact wellTyped_put (hh _ hm) (hh _ hk) (hh _ hv)
  | erase fresh hm hk => exact wellTyped_erase (hh _ hm)
  | join home fresh hm hn => exact wellTyped_join (hh _ hm) (hh _ hn)

lemma NodeValue.Made.wellTyped {n : NodeValue} (hh : ∀ v ∈ held, v.WellTyped)
    (hn : n.Made held) : (n : Value).WellTyped := by
  cases hn with
  | of hvs h => exact wellTyped_of (fun v hv => hh v (hvs hv)) h
  | named hvs h => exact wellTyped_named (fun v hv => hh v (hvs hv)) h
  | set hn hv h => exact wellTyped_set (hh _ hn) (hh _ hv) h
  | setLabel hn hv h => exact wellTyped_setLabel (hh _ hn) (hh _ hv) h
  | annotate hn hv h => exact wellTyped_annotate (hh _ hn) (hh _ hv) h
  | unannotate label hn => exact wellTyped_unannotate (hh _ hn)

lemma Value.Made.wellTyped {v : Value} (hh : ∀ v ∈ held, v.WellTyped) (hv : v.Made held) :
    v.WellTyped := by
  cases hv with
  | int n => exact wellTyped_leaf trivial rfl
  | real x => exact wellTyped_leaf trivial rfl
  | str s => exact wellTyped_leaf trivial rfl
  | loc l => exact wellTyped_leaf trivial rfl
  | object home kind payload => exact wellTyped_leaf ⟨home, kind, rfl⟩ rfl
  | tuple ht => exact ht.wellTyped hh
  | list hl => exact hl.wellTyped hh
  | set hs => exact hs.wellTyped hh
  | map hm => exact hm.wellTyped hh
  | node hn => exact hn.wellTyped hh
  | component hv hc => exact (hh _ hv).part (.inside hc .self)

/-! ### Writers -/

namespace Writer

/-- The collection that the writer would hand out now is well typed. -/
def WellTyped : Writer → Prop
  | .list w => w.WellTyped
  | .set w => w.WellTyped
  | .map w => w.WellTyped

lemma Opened.wellTyped {w : Writer} (hw : w.Opened) : w.WellTyped := by
  cases hw with
  | list home t => exact ListWriter.wellTyped_new home t
  | listRelation home ts => exact ListWriter.wellTyped_new home (.tupleOf home ts)
  | set home t => exact SetWriter.wellTyped_new home t
  | setOfType h => exact SetWriter.wellTyped_ofType h
  | relation home ts => exact SetWriter.wellTyped_new home (.tupleOf home ts)
  | map home s t => exact MapWriter.wellTyped_new home s t
  | mapOfType h => exact MapWriter.wellTyped_ofType h

lemma Written.wellTyped {w x : Writer} (hh : ∀ v ∈ held, v.WellTyped) (hw : w.WellTyped)
    (hx : w.Written held x) : x.WellTyped := by
  cases hx with
  | listInsert hv h => exact ListWriter.wellTyped_insert hw (hh _ hv) h
  | listAppend hv h => exact ListWriter.wellTyped_append hw (hh _ hv) h
  | listInsertAll hvs h => exact ListWriter.wellTyped_insertAll hw (fun v hv => hh v (hvs hv)) h
  | setInsert hv h => exact SetWriter.wellTyped_insert hw (hh _ hv) h
  | setInsertAll hvs h => exact SetWriter.wellTyped_insertAll hw (fun v hv => hh v (hvs hv)) h
  | mapPut hk hv h => exact MapWriter.wellTyped_put hw (hh _ hk) (hh _ hv) h
  | mapPutAll hes h =>
    exact MapWriter.wellTyped_putAll hw (fun e he => ⟨hh _ (hes e he).1, hh _ (hes e he).2⟩) h

lemma Finished.wellTyped {w x : Writer} {v : Option Value} (hw : w.WellTyped)
    (hx : w.Finished v x) : (∀ u ∈ v, u.WellTyped) ∧ x.WellTyped := by
  cases hx with
  | @list w => exact ⟨fun u hu => Option.some.inj hu ▸ hw, ListWriter.wellTyped_finish hw⟩
  | listRelation h =>
    obtain ⟨hr, rfl⟩ := Prod.mk.inj h
    refine ⟨fun u hu => ?_, ListWriter.wellTyped_finish hw⟩
    rw [← Option.some.inj hu, ListValue.toList_of_asListRelation hr]
    exact hw
  | noListRelation h =>
    obtain ⟨-, rfl⟩ := Prod.mk.inj h
    exact ⟨nofun, ListWriter.wellTyped_finish hw⟩
  | set => exact ⟨fun u hu => Option.some.inj hu ▸ hw, SetWriter.wellTyped_finish hw⟩
  | relation h =>
    obtain ⟨hr, rfl⟩ := Prod.mk.inj h
    refine ⟨fun u hu => ?_, SetWriter.wellTyped_finish hw⟩
    rw [← Option.some.inj hu, SetValue.toSet_of_asRelation hr]
    exact hw
  | noRelation h =>
    obtain ⟨-, rfl⟩ := Prod.mk.inj h
    exact ⟨nofun, SetWriter.wellTyped_finish hw⟩
  | map => exact ⟨fun u hu => Option.some.inj hu ▸ hw, MapWriter.wellTyped_finish hw⟩

end Writer

namespace Session

/-- All values held are well typed, and so are all writers. -/
structure WellTyped (s : Session) : Prop where
  values : ∀ v ∈ s.values, v.WellTyped
  writers : ∀ w ∈ s.writers, w.WellTyped

lemma wellTyped_empty : empty.WellTyped := ⟨nofun, nofun⟩

variable {s t : Session}

lemma Step.wellTyped (hs : s.WellTyped) (ht : s.Step t) : t.WellTyped := by
  have replaced {i : ℕ} {x : Writer} (hx : x.WellTyped) :
      ∀ w ∈ s.writers.set i x, w.WellTyped := fun w hw => by
    rcases List.mem_or_eq_of_mem_set hw with hw | rfl
    · exact hs.writers w hw
    · exact hx
  cases ht with
  | make hv =>
    exact ⟨List.forall_mem_cons.mpr ⟨hv.wellTyped hs.values, hs.values⟩, hs.writers⟩
  | openWriter hw =>
    exact ⟨hs.values, List.forall_mem_append.mpr
      ⟨hs.writers, List.forall_mem_singleton.mpr hw.wellTyped⟩⟩
  | write hw hx =>
    exact ⟨hs.values, replaced (hx.wellTyped hs.values (hs.writers _ (List.mem_of_getElem? hw)))⟩
  | finish hw hx =>
    obtain ⟨hv, hx⟩ := hx.wellTyped (hs.writers _ (List.mem_of_getElem? hw))
    exact ⟨List.forall_mem_append.mpr ⟨fun u hu => hv u (by simpa using hu), hs.values⟩,
      replaced hx⟩

lemma Reached.wellTyped (hs : s.Reached) : s.WellTyped := by
  induction hs with
  | start => exact wellTyped_empty
  | step _ ht ih => exact ht.wellTyped ih

end Session

/-! ### Relations -/

/-- In every session that can be reached, the values held fit their types at every depth. So the
elements of a relation or list relation in them are tuples of its arity. -/
theorem reached_wellTyped {s : Session} {v : Value} (hs : s.Reached) (hv : v ∈ s.values) :
    (∀ p : Value, p.PartOf v → p.Typed) ∧
    (∀ r : Relation, (r.toSet : Value).PartOf v →
      Lossless r.toSet.elements r.tuples r.pairs r.arity) ∧
    ∀ r : ListRelation, (r.toList : Value).PartOf v →
      Lossless r.toList.elements r.tuples r.pairs r.arity := by
  have hw : v.WellTyped := hs.wellTyped.values v hv
  refine ⟨hw, fun r hr => ?_, fun r hr => ?_⟩
  · exact (Relation.rows (hw.part hr)).lossless r.arity_eq
  · exact (ListRelation.rows (hw.part hr)).lossless r.arity_eq

theorem reached_wellTyped_singleton :
    let pair : TupleValue := .of 0 [.int 1, .int 2]
    let relation : SetValue := .of 0 [pair]
    let s : Session := ⟨[relation, pair, .int 2, .int 1], []⟩
    s.Reached ∧ (relation : Value) ∈ s.values ∧
      (∀ p : Value, p.PartOf relation → p.Typed) ∧
      (∀ r : Relation, (r.toSet : Value).PartOf relation →
        Lossless r.toSet.elements r.tuples r.pairs r.arity) ∧
      ∀ r : ListRelation, (r.toList : Value).PartOf relation →
        Lossless r.toList.elements r.tuples r.pairs r.arity := by
  intro pair relation s
  have h₁ : (⟨[.int 1], []⟩ : Session).Reached := .step .start (.make (.int 1))
  have h₂ : (⟨[.int 2, .int 1], []⟩ : Session).Reached := .step h₁ (.make (.int 2))
  have h₃ : (⟨[pair, .int 2, .int 1], []⟩ : Session).Reached :=
    .step h₂ (.make (.tuple (.of 0 (by simp))))
  have h₄ : s.Reached := .step h₃ (.make (.set (.of 0 (by simp))))
  have hmem : (relation : Value) ∈ s.values := List.mem_cons_self
  exact ⟨h₄, hmem, reached_wellTyped h₄ hmem⟩

end TypedValues
