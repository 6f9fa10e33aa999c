import Mathlib
import TypedValues.Proofs.Universe.Rebuild

/-!
# Moving types to another universe

Types that are described in one universe and rebuilt in a fresh one stand there as they stood before. The
fresh universe mirrors at all times a part of the declarations of the first one, so that no declaration is
refused, whatever the order.
-/

namespace TypedValues.Universe
open Ty

variable {u v : Universe} {n : String} {t q : Ty} {home : UniverseId}

/-- Everything that one universe has declared is the copy of a declaration of another universe. -/
structure Mirrors (u v : Universe) : Prop where
  consistent : v.Consistent
  aliases : ∀ n t, v.alias? n = some t → ∃ s, u.alias? n = some s ∧ t = s.rehomed v.id
  sorts : ∀ n, v.sort? n ≠ none → u.sort? n ≠ none
  constructors : ∀ n c, c ∈ v.constructorsOf (.sort v.id n) →
    ∃ b ∈ u.constructorsOf (.sort u.id n), c = b.rehomed v.id

lemma mirrors_empty (u : Universe) (id : UniverseId) : u.Mirrors (.empty id) where
  consistent := consistent_empty id
  aliases n t h := nomatch h
  sorts n h := absurd rfl h
  constructors n c h := by simp [constructorsOf, signature?, empty, Table.get?] at h

/-! ### What is mirrored is declared without a refusal -/

lemma name?_rehomed (t : Ty) : (t.rehomed home).name? = t.name? := by
  cases t <;> rfl

lemma Mirrors.adopt_alias (hu : u.Consistent) (hv : u.Mirrors v)
    (hq : u.alias? n = some (.aliasOf u.id n t)) :
    ∃ w, v.declareAlias n (t.rehomed v.id) = .ok (.aliasOf v.id n (t.rehomed v.id), w) ∧ u.Mirrors w := by
  have hname : Text.isIdentifier n = true := hu.alias_name n (by rw [hq]; nofun)
  cases hknown : v.alias? n with
  | some s =>
    obtain ⟨s', hs', rfl⟩ := hv.aliases n s hknown
    obtain rfl : .aliasOf u.id n t = s' := Option.some.inj (hq.symm.trans hs')
    exact ⟨v, declareAlias_eq_ok.mpr ⟨hname, rfl, .inl ⟨hknown, rfl⟩⟩, hv⟩
  | none =>
    have hsort : v.sort? n = none := by
      by_contra hsort
      have hnone := hu.apart n (hv.sorts n hsort)
      rw [hq] at hnone
      cases hnone
    have hdeclare : v.declareAlias n (t.rehomed v.id) =
        .ok (.aliasOf v.id n (t.rehomed v.id), v.withAlias n (t.rehomed v.id)) :=
      declareAlias_eq_ok.mpr ⟨hname, rfl, .inr ⟨hknown, hsort, rfl⟩⟩
    refine ⟨_, hdeclare, (growth_of_declareAlias hdeclare).consistent hv.consistent, fun m s hs => ?_,
      hv.sorts, hv.constructors⟩
    rw [alias?_withAlias] at hs
    cases hm : v.alias? m with
    | some r =>
      obtain rfl : r = s := by simpa [hm] using hs
      exact hv.aliases m r hm
    | none =>
      obtain ⟨rfl, rfl⟩ : n = m ∧ .aliasOf v.id n (t.rehomed v.id) = s := by simpa [hm] using hs
      exact ⟨_, hq, rfl⟩

lemma Mirrors.adopt_sort (hu : u.Consistent) (hv : u.Mirrors v) (hq : u.sort? n ≠ none) :
    ∃ w, v.declareSort n = .ok (.sort v.id n, w) ∧ u.Mirrors w := by
  have hname : Text.isIdentifier n = true := hu.sort_name n hq
  cases hknown : v.sort? n with
  | some s =>
    obtain ⟨-, rfl⟩ := sort?_eq_some.mp hknown
    exact ⟨v, declareSort_eq_ok.mpr ⟨hname, rfl, .inl ⟨hknown, rfl⟩⟩, hv⟩
  | none =>
    have halias : v.alias? n = none := by
      by_contra halias
      obtain ⟨s, hs⟩ := Option.ne_none_iff_exists'.mp halias
      obtain ⟨r, hr, -⟩ := hv.aliases n s hs
      rw [hu.apart n hq] at hr
      cases hr
    have hdeclare : v.declareSort n = .ok (.sort v.id n, v.withSort n) :=
      declareSort_eq_ok.mpr ⟨hname, rfl, .inr ⟨hknown, halias, rfl⟩⟩
    refine ⟨_, hdeclare, (growth_of_declareSort hdeclare).consistent hv.consistent, hv.aliases,
      fun m hm => ?_, fun m c hc => hv.constructors m c (constructorsOf_withSort _ ▸ hc)⟩
    rw [sort?_withSort] at hm
    by_cases hmn : n = m
    · exact hmn ▸ hq
    · rw [if_neg hmn, Option.or_none] at hm
      exact hv.sorts m hm

lemma Mirrors.adopt_constructor {cname : Option String} {d : UniverseId} {fs : List Field}
    (hu : u.Consistent) (hv : u.Mirrors v) (hsort : v.sort? n = some (.sort v.id n))
    (hq : .constructor u.id cname n d fs ∈ u.constructorsOf (.sort u.id n)) :
    ∃ w, v.declareConstructor (.sort v.id n) cname (.tuple v.id (fs.map (rehomedField v.id))) =
      .ok ((Ty.constructor u.id cname n d fs).rehomed v.id, w) ∧ u.Mirrors w := by
  obtain ⟨cname', d', fs', heq, hnames⟩ := hu.constructor n _ hq
  obtain ⟨-, rfl, -, rfl, rfl⟩ := Ty.constructor.inj heq
  have hconstructor : v.constructorOf (.sort v.id n) cname (.tuple v.id (fs.map (rehomedField v.id))) =
      .ok ((Ty.constructor u.id cname n d fs).rehomed v.id) :=
    constructorOf_eq_ok.mpr ⟨n, _, _, rfl, hsort, rfl, hnames, rehomed_constructor ..⟩
  by_cases hlisted : (Ty.constructor u.id cname n d fs).rehomed v.id ∈ v.constructorsOf (.sort v.id n)
  · exact ⟨v, declareConstructor_eq_ok.mpr ⟨hconstructor, addConstructor_eq_ok.mpr
      ⟨rfl, .inl ⟨hlisted, rfl⟩⟩⟩, hv⟩
  · have hone : cname = none → ∀ old ∈ v.constructorsOf (.sort v.id n), old.name? ≠ none := by
      rintro rfl old hold hnone
      obtain ⟨b, hb, rfl⟩ := hv.constructors n old hold
      rw [name?_rehomed] at hnone
      rw [hu.anonymous n b _ hb hq hnone rfl] at hold
      exact hlisted hold
    have hdeclare : v.declareConstructor (.sort v.id n) cname (.tuple v.id (fs.map (rehomedField v.id))) =
        .ok ((Ty.constructor u.id cname n d fs).rehomed v.id, v.withConstructor n _) :=
      declareConstructor_eq_ok.mpr ⟨hconstructor, addConstructor_eq_ok.mpr
        ⟨rfl, .inr ⟨hlisted, fun h => hone (by simpa [name?] using h), rfl⟩⟩⟩
    refine ⟨_, hdeclare, (growth_of_declareConstructor hdeclare).consistent hv.consistent, hv.aliases,
      fun m hm => hv.sorts m (by rwa [sort?_withConstructor hsort] at hm), fun m c hc => ?_⟩
    rw [show (v.withConstructor n _).id = v.id from rfl, constructorsOf_withConstructor] at hc
    split at hc
    · next heq =>
      subst heq
      rcases List.mem_append.mp hc with hc | hc
      · exact hv.constructors n c hc
      · exact ⟨_, hq, List.mem_singleton.mp hc⟩
    · exact hv.constructors m c hc

/-- The copy of a declared type can be handed out once its components can. -/
lemma Mirrors.adopt (hu : u.Consistent) (hv : u.Mirrors v) (hq : u.Declares q)
    (hcs : ∀ c ∈ (q.rehomed v.id).components, v.Owns c) :
    ∃ w, v.adopt (q.rehomed v.id) = .ok (q.rehomed v.id, w) ∧ u.Mirrors w := by
  cases q with
  | aliasOf home n t =>
    obtain rfl : home = u.id := home_of_declares hq
    exact hv.adopt_alias hu hq
  | sort home n => exact hv.adopt_sort hu (by rw [hq]; nofun)
  | constructor home cname n d fs =>
    obtain ⟨hlisted, rfl, rfl⟩ := hq
    have hsort : v.sort? n = some (.sort v.id n) := hcs (.sort v.id n) (by simp [components]) _ .self
    obtain ⟨w, hw, hmirrors⟩ := hv.adopt_constructor hu hsort hlisted
    rw [rehomed_constructor] at hw ⊢
    exact ⟨w, hw, hmirrors⟩
  | tuple home fs =>
    rw [rehomed_tuple]
    exact ⟨v, rfl, hv⟩
  | _ => exact ⟨v, rfl, hv⟩

/-! ### A sequence of types -/

/-- Whatever a universe has declared in a mirror, the copies of its types are accepted there. -/
lemma accepts_rehomed (hu : u.Consistent) (ht : u.Owns t) :
    Accepts (fun v => v.id = home ∧ u.Mirrors v) (t.rehomed home) := by
  rintro v p ⟨rfl, hv⟩ hp hcs
  obtain ⟨q, hq, rfl⟩ := exists_part_of_rehomed hp
  obtain ⟨w, hw, hmirrors⟩ := hv.adopt hu (ht q hq) hcs
  exact ⟨w, hw, (growth_of_adopt hw).extends.id_eq, hmirrors⟩

lemma succeeds_rebuildAll (hu : u.Consistent) (ts : List Ty) (hts : ∀ t ∈ ts, u.Owns t)
    (hv : v.id = home ∧ u.Mirrors v) :
    Succeeds ((ts.map descriptor).mapM rebuild) v fun rs w => rs = ts.map (rehomed home) ∧
      (∀ r ∈ rs, w.Owns r) ∧ (w.id = home ∧ u.Mirrors w) ∧ v.Extends w := by
  induction ts generalizing v with
  | nil => exact succeeds_pure ⟨rfl, nofun, hv, .refl v⟩
  | cons t ts ih =>
    obtain ⟨ht, hts⟩ := List.forall_mem_cons.mp hts
    rw [List.map_cons, List.mapM_cons]
    refine (succeeds_rebuild (fun w hw => hw.1) t.descriptor v hv (accepts_rehomed hu ht)).bind
      fun r w ⟨hr, ho, hw, hext⟩ => (ih hts hw).bind fun rs x ⟨hrs, hos, hx, hext'⟩ => succeeds_pure ?_
    subst hr
    exact ⟨by rw [hrs]; rfl, List.forall_mem_cons.mpr ⟨hext'.owns ho, hos⟩, hx, hext.trans hext'⟩

/-- Types of one universe can be moved to a fresh one through their descriptors, in any order and with
repetitions. No declaration is refused, and the types stand there as they stood before: the same ones are
equal, the same ones are subtypes of others, and joins are described alike. -/
theorem transfer_preserves_order (hu : u.Reached) (target : UniverseId) (ts : List Ty)
    (hts : ∀ t ∈ ts, u.Owns t) :
    ∃ rs v, ((ts.map descriptor).mapM rebuild).run (.empty target) = (.ok rs, v) ∧
      rs.length = ts.length ∧ v.id = target ∧ (∀ r ∈ rs, v.Owns r) ∧
      ∀ a r, (a, r) ∈ ts.zip rs → r.descriptor = a.descriptor ∧ ∀ b s, (b, s) ∈ ts.zip rs →
        (r = s ↔ a = b) ∧ (r.subtype s = true ↔ a.subtype b = true) ∧
          (join v.id r s).descriptor = (join u.id a b).descriptor := by
  obtain ⟨_, v, hrun, rfl, howns, ⟨rfl, -⟩, -⟩ :=
    succeeds_rebuildAll hu.consistent ts hts ⟨rfl, mirrors_empty u target⟩
  refine ⟨_, v, hrun, List.length_map _, rfl, howns, fun a r har => ?_⟩
  have copy {t s : Ty} (h : (t, s) ∈ ts.zip (ts.map (rehomed v.id))) : t ∈ ts ∧ s = t.rehomed v.id := by
    rw [← List.map_prod_left_eq_zip] at h
    obtain ⟨t, ht, heq⟩ := List.mem_map.mp h
    obtain ⟨rfl, rfl⟩ := Prod.mk.inj heq
    exact ⟨ht, rfl⟩
  obtain ⟨ha, rfl⟩ := copy har
  refine ⟨descriptor_rehomed _ a, fun b s hbs => ?_⟩
  obtain ⟨hb, rfl⟩ := copy hbs
  have hwa := (hts a ha).within
  have hwb := (hts b hb).within
  refine ⟨rehomed_eq_rehomed.trans ⟨eq_of_descriptor hwa hwb, fun h => h ▸ rfl⟩,
    subtype_rehomed v.id (aligned_of_within hwa hwb), ?_⟩
  rw [← rehomed_join u.id v.id (aligned_of_within hwa hwb), descriptor_rehomed]

/-- Two constructors of one sort, moved to a universe that has not heard of the sort. -/
theorem transfer_preserves_order_constructors :
    let nil : Descriptor := .constructor none "Expr" []
    let age : Descriptor := .constructor (some "age") "Expr" [⟨.aliasOf "Age" .int, some "of"⟩]
    let u := ((Universe.empty 0).ofDescriptor (.tuple [⟨nil, none⟩, ⟨age, none⟩])).2
    let ts := [age.typeIn 0, nil.typeIn 0, age.typeIn 0]
    let rs := [age.typeIn 7, nil.typeIn 7, age.typeIn 7]
    u.Reached ∧ (∀ t ∈ ts, u.Owns t) ∧
      ∃ v, ((ts.map descriptor).mapM rebuild).run (.empty 7) = (.ok rs, v) ∧
        (join v.id (age.typeIn 7) (nil.typeIn 7)).descriptor =
          (join u.id (age.typeIn 0) (nil.typeIn 0)).descriptor := by
  intro nil age u ts rs
  have hu : u.Reached := .rebuild _ (.start 0)
  have hpair : (Universe.empty 0).ofDescriptor (.tuple [⟨nil, none⟩, ⟨age, none⟩]) =
      (.ok (.tuple 0 [⟨nil.typeIn 0, none⟩, ⟨age.typeIn 0, none⟩]), u) := rfl
  have howns := (ofDescriptor_eq_ok hpair).2.2
  have hnil : u.Owns (nil.typeIn 0) := (owns_iff.mp howns).2 _ (by simp [components])
  have hage : u.Owns (age.typeIn 0) := (owns_iff.mp howns).2 _ (by simp [components])
  have hts : ∀ t ∈ ts, u.Owns t := by simp [ts, hnil, hage]
  obtain ⟨rs', v, hrun, -, -, -, horder⟩ := transfer_preserves_order hu 7 ts hts
  obtain rfl : rs = rs' := Except.ok.inj (Prod.mk.inj hrun).1
  refine ⟨hu, hts, v, hrun, ?_⟩
  exact ((horder (age.typeIn 0) (age.typeIn 7) (by simp [ts, rs])).2 (nil.typeIn 0) (nil.typeIn 7)
    (by simp [ts, rs])).2.2

end TypedValues.Universe
