import Mathlib
import TypedValues.Proofs.Outcome
import TypedValues.Proofs.Value.List
import TypedValues.Proofs.Value.Map
import TypedValues.Proofs.Value.Set
import TypedValues.Value.Writer

/-!
# Well-typed writers

A writer is well typed when the collection that it would hand out now is. What passes the checks of a
writer keeps it well typed.
-/

namespace TypedValues

lemma Phase.contents_eq_ok {γ ω : Type} {p : Phase γ ω} {operation : String} {c : γ} :
    p.contents operation = .ok c ↔ p = .filling c := by
  cases p <;> simp [contents]

/-- A write goes to a writer that is not sealed, and what it writes passes the check. -/
lemma Phase.write_eq_ok {α γ ω : Type} {p : Phase γ ω} {operation : String} {check : Except Error Unit}
    {write : γ → α} {a : α} :
    (do let contents ← p.contents operation; check; return write contents) = .ok a ↔
      ∃ contents, p = .filling contents ∧ check = .ok () ∧ a = write contents := by
  rw [bind_eq_ok]
  simp only [check_eq_ok, contents_eq_ok]

lemma Value.checkBound_eq_ok {operation : String} {t : Ty} {v : Value} :
    v.checkBound operation t = .ok () ↔ v.hasType t = true := by
  unfold checkBound
  by_cases hv : v.hasType t = true <;> simp [hv]

lemma ListValue.toList_of_asListRelation {l : ListValue} {r : ListRelation}
    (h : l.asListRelation = .ok r) : r.toList = l := by
  unfold asListRelation at h
  split_ifs at h
  rw [← Except.ok.inj h]

lemma SetValue.toSet_of_asRelation {s : SetValue} {r : Relation} (h : s.asRelation = .ok r) :
    r.toSet = s := by
  unfold asRelation at h
  split_ifs at h
  rw [← Except.ok.inj h]

namespace ListWriter

variable {home : UniverseId} {w x : ListWriter} {v : Value} {vs : List Value}

/-- The list that the writer would hand out now is well typed. -/
def WellTyped (w : ListWriter) : Prop := (w.finish.1 : Value).WellTyped

lemma wellTyped_new (home : UniverseId) (t : Ty) : (new home t).WellTyped :=
  ListValue.wellTyped_iff.mpr ⟨rfl, nofun⟩

lemma wellTyped_finish (hw : w.WellTyped) : w.finish.2.WellTyped := hw

lemma wellTyped_filling {contents : List Value} (hp : w.phase = .filling contents) :
    w.WellTyped ↔ w.ty.isList = true ∧ ∀ v ∈ contents, v.Inhabits w.elementType := by
  rw [WellTyped, finish, hp]
  exact ListValue.wellTyped_iff

lemma wellTyped_insert (hw : w.WellTyped) (hv : v.WellTyped) (h : w.insert v = .ok x) :
    x.WellTyped := by
  obtain ⟨contents, hp, hb, rfl⟩ := Phase.write_eq_ok.mp h
  obtain ⟨hty, hes⟩ := (wellTyped_filling hp).mp hw
  exact (wellTyped_filling rfl).mpr
    ⟨hty, List.forall_mem_cons.mpr ⟨⟨Value.checkBound_eq_ok.mp hb, hv⟩, hes⟩⟩

lemma wellTyped_append (hw : w.WellTyped) (hv : v.WellTyped) (h : w.append v = .ok x) :
    x.WellTyped := by
  obtain ⟨contents, hp, hb, rfl⟩ := Phase.write_eq_ok.mp h
  obtain ⟨hty, hes⟩ := (wellTyped_filling hp).mp hw
  refine (wellTyped_filling rfl).mpr ⟨hty, List.forall_mem_append.mpr ⟨hes, ?_⟩⟩
  exact List.forall_mem_singleton.mpr ⟨Value.checkBound_eq_ok.mp hb, hv⟩

lemma wellTyped_insertAll (hw : w.WellTyped) (hvs : ∀ v ∈ vs, v.WellTyped)
    (h : w.insertAll vs = .ok x) : x.WellTyped := by
  obtain ⟨contents, hp, hb, rfl⟩ := Phase.write_eq_ok.mp h
  obtain ⟨hty, hes⟩ := (wellTyped_filling hp).mp hw
  refine (wellTyped_filling rfl).mpr ⟨hty, List.forall_mem_append.mpr ⟨fun v hv => ?_, hes⟩⟩
  exact ⟨Value.checkBound_eq_ok.mp (forM_eq_ok.mp hb v hv), hvs v hv⟩

end ListWriter

namespace SetWriter

variable {home : UniverseId} {w x : SetWriter} {v : Value} {vs : List Value} {t : Ty}

/-- The set that the writer would hand out now is well typed. -/
def WellTyped (w : SetWriter) : Prop := (w.finish.1 : Value).WellTyped

lemma wellTyped_new (home : UniverseId) (t : Ty) : (new home t).WellTyped :=
  SetValue.wellTyped_iff.mpr ⟨rfl, nofun⟩

lemma ofType_eq_ok : ofType t = .ok w ↔ t.isSet = true ∧ w = ⟨t, .filling []⟩ := by
  unfold ofType
  split_ifs with ht <;> simp [ht, eq_comm]

lemma wellTyped_ofType (h : ofType t = .ok w) : w.WellTyped := by
  obtain ⟨ht, rfl⟩ := ofType_eq_ok.mp h
  exact SetValue.wellTyped_iff.mpr ⟨ht, nofun⟩

lemma wellTyped_finish (hw : w.WellTyped) : w.finish.2.WellTyped := hw

lemma wellTyped_filling {contents : List Value} (hp : w.phase = .filling contents) :
    w.WellTyped ↔ w.ty.isSet = true ∧ ∀ v ∈ contents, v.Inhabits w.elementType := by
  rw [WellTyped, finish, hp]
  exact SetValue.wellTyped_iff

lemma wellTyped_insert (hw : w.WellTyped) (hv : v.WellTyped) (h : w.insert v = .ok x) :
    x.WellTyped := by
  obtain ⟨contents, hp, hb, rfl⟩ := Phase.write_eq_ok.mp h
  obtain ⟨hty, hes⟩ := (wellTyped_filling hp).mp hw
  refine (wellTyped_filling rfl).mpr ⟨hty, fun y hy => ?_⟩
  rcases Members.mem_insert hy with hy | rfl
  · exact hes y hy
  · exact ⟨Value.checkBound_eq_ok.mp hb, hv⟩

lemma wellTyped_insertAll (hw : w.WellTyped) (hvs : ∀ v ∈ vs, v.WellTyped)
    (h : w.insertAll vs = .ok x) : x.WellTyped := by
  obtain ⟨contents, hp, hb, rfl⟩ := Phase.write_eq_ok.mp h
  obtain ⟨hty, hes⟩ := (wellTyped_filling hp).mp hw
  refine (wellTyped_filling rfl).mpr ⟨hty, fun y hy => ?_⟩
  rcases Members.mem_insertAll hy with hy | hy
  · exact hes y hy
  · exact ⟨Value.checkBound_eq_ok.mp (forM_eq_ok.mp hb y hy), hvs y hy⟩

end SetWriter

namespace MapWriter

variable {home : UniverseId} {fresh : TableId} {w x : MapWriter} {key v : Value} {t : Ty}
  {es : List (Value × Value)}

/-- The map that the writer would hand out now is well typed. -/
def WellTyped (w : MapWriter) : Prop := (w.finish.1 : Value).WellTyped

lemma wellTyped_new (home : UniverseId) (s t : Ty) : (new home s t).WellTyped :=
  MapValue.wellTyped_iff.mpr ⟨.plain s, .plain t, rfl, nofun⟩

lemma ofType_eq_ok : ofType t = .ok w ↔ t.isMap = true ∧ w = ⟨t, .filling .empty⟩ := by
  unfold ofType
  split_ifs with ht <;> simp [ht, eq_comm]

lemma wellTyped_ofType (h : ofType t = .ok w) : w.WellTyped := by
  obtain ⟨ht, rfl⟩ := ofType_eq_ok.mp h
  obtain ⟨k, f, g, hr⟩ := Ty.isMap_iff.mp ht
  exact MapValue.wellTyped_iff.mpr ⟨f, g, Ty.mapFields?_eq_some.mpr ⟨k, hr⟩, nofun⟩

lemma wellTyped_finish (hw : w.WellTyped) : w.finish.2.WellTyped := hw

lemma wellTyped_filling {contents : Bindings} (hp : w.phase = .filling contents) :
    w.WellTyped ↔ ∃ k v, w.ty.mapFields? = some (k, v) ∧
      MapValue.EntriesFit k v contents.entries := by
  rw [WellTyped, finish, hp]
  exact MapValue.wellTyped_iff

/-- What a writer lets in fits its declared types. -/
lemma checkEntry_eq_ok {operation : String} {f g : Field} (ht : w.ty.mapFields? = some (f, g)) :
    w.checkEntry operation key v = .ok () ↔
      key.hasType f.item = true ∧ v.hasType g.item = true := by
  have hk : w.keyType = f.item := by simp [keyType, Ty.keyType?, ht]
  have hv : w.valueType = g.item := by simp [valueType, Ty.valueType?, ht]
  rw [checkEntry, bind_eq_ok, hk, hv, Value.checkBound_eq_ok]
  exact ⟨fun ⟨_, hk, hv⟩ => ⟨Value.checkBound_eq_ok.mp hk, hv⟩,
    fun ⟨hk, hv⟩ => ⟨(), Value.checkBound_eq_ok.mpr hk, hv⟩⟩

lemma wellTyped_put (hw : w.WellTyped) (hk : key.WellTyped) (hv : v.WellTyped)
    (h : w.put fresh key v = .ok x) : x.WellTyped := by
  obtain ⟨contents, hp, hc, rfl⟩ := Phase.write_eq_ok.mp h
  obtain ⟨f, g, hty, hes⟩ := (wellTyped_filling hp).mp hw
  obtain ⟨hkf, hvg⟩ := (checkEntry_eq_ok hty).mp hc
  exact (wellTyped_filling rfl).mpr ⟨f, g, hty, hes.put ⟨hkf, hk⟩ ⟨hvg, hv⟩⟩

lemma wellTyped_putAll (hw : w.WellTyped) (hes : ∀ e ∈ es, e.1.WellTyped ∧ e.2.WellTyped)
    (h : w.putAll fresh es = .ok x) : x.WellTyped := by
  obtain ⟨contents, hp, hc, rfl⟩ := Phase.write_eq_ok.mp h
  obtain ⟨f, g, hty, hcs⟩ := (wellTyped_filling hp).mp hw
  refine (wellTyped_filling rfl).mpr ⟨f, g, hty, hcs.putAll fun e he => ?_⟩
  obtain ⟨hkf, hvg⟩ := (checkEntry_eq_ok hty).mp (forM_eq_ok.mp hc e he)
  exact ⟨⟨hkf, (hes e he).1⟩, hvg, (hes e he).2⟩

end MapWriter
end TypedValues
