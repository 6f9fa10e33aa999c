import Mathlib
import TypedValues.Proofs.Outcome
import TypedValues.Proofs.Table
import TypedValues.Proofs.Ty.Parts
import TypedValues.Universe.Declare

/-!
# Declarations

What a declaration checks, what it adds, and what the declarations of a universe keep true: names are
identifiers, no name is both an alias and a sort, and each sort lists its own constructors, at most one of
them anonymous.
-/

namespace TypedValues

namespace Universe

variable {u v w : Universe} {n name : String} {s t c p : Ty}

/-- The universe with one more alias. -/
def withAlias (u : Universe) (n : String) (t : Ty) : Universe :=
  { u with aliases := u.aliases ++ [(n, t)] }

/-- The universe with one more sort. -/
def withSort (u : Universe) (n : String) : Universe :=
  { u with sorts := u.sorts ++ [(n, [])] }

/-- The universe with one more constructor listed under a sort. -/
def withConstructor (u : Universe) (sortName : String) (c : Ty) : Universe where
  __ := u
  sorts := Table.put (· == sortName) sortName (u.constructorsOf (.sort u.id sortName) ++ [c]) u.sorts

lemma alias?_eq_none : u.alias? n = none ↔ Table.get? (· == n) u.aliases = none :=
  Option.map_eq_none_iff

lemma sort?_eq_none : u.sort? n = none ↔ Table.get? (· == n) u.sorts = none :=
  Option.map_eq_none_iff

lemma sort?_eq_some : u.sort? n = some t ↔
    (∃ cs, Table.get? (· == n) u.sorts = some cs) ∧ .sort u.id n = t := by
  rw [sort?, Option.map_eq_some_iff]
  exact ⟨fun ⟨cs, h, ht⟩ => ⟨⟨cs, h⟩, ht⟩, fun ⟨⟨cs, h⟩, ht⟩ => ⟨cs, h, ht⟩⟩

lemma signature?_sort : u.signature? (.sort u.id n) = Table.get? (· == n) u.sorts := if_pos rfl

lemma constructorsOf_sort :
    u.constructorsOf (.sort u.id n) = (Table.get? (· == n) u.sorts).getD [] := by
  rw [constructorsOf, signature?_sort]

/-! ### What a declaration checks and adds -/

lemma checkIdentifier_eq_ok : checkIdentifier name = .ok () ↔ Text.isIdentifier name = true := by
  unfold checkIdentifier
  split <;> simp [*]

/-- What follows the check of a name. -/
lemma checkIdentifier_bind_eq_ok {α : Type} {x : Except DeclarationError α} {a : α} :
    (do checkIdentifier name; x) = .ok a ↔ Text.isIdentifier name = true ∧ x = .ok a := by
  rw [bind_eq_ok, ← checkIdentifier_eq_ok]
  exact ⟨fun ⟨_, h⟩ => h, fun h => ⟨(), h⟩⟩

/-- An alias that is known already must stand for the same type, and a new one must not bear the name of
a sort. -/
lemma declareAlias_eq_ok : u.declareAlias name t = .ok (s, v) ↔
    Text.isIdentifier name = true ∧ s = .aliasOf u.id name t ∧
      (u.alias? name = some (.aliasOf u.id name t) ∧ v = u ∨
        u.alias? name = none ∧ u.sort? name = none ∧
          v = u.withAlias name t) := by
  rw [declareAlias, checkIdentifier_bind_eq_ok]
  refine and_congr_right fun _ => ?_
  cases ha : Table.get? (· == name) u.aliases with
  | some existing =>
    simp only [ite_throw_eq_ok, pure_eq_ok, Prod.mk.injEq, alias?, ha, Option.map_some,
      Option.some.injEq, Ty.aliasOf.injEq, true_and, reduceCtorEq, false_and, or_false]
    constructor
    · rintro ⟨rfl, rfl, rfl⟩
      exact ⟨rfl, rfl, rfl⟩
    · rintro ⟨rfl, rfl, rfl⟩
      exact ⟨rfl, rfl, rfl⟩
  | none =>
    simp only [throw_bind_eq_ok, pure_eq_ok, Prod.mk.injEq, alias?, ha, Option.map_none,
      Option.not_isSome_iff_eq_none, reduceCtorEq, false_and, true_and, false_or]
    constructor
    · rintro ⟨hs, rfl, rfl⟩
      exact ⟨rfl, hs, rfl⟩
    · rintro ⟨rfl, hs, rfl⟩
      exact ⟨hs, rfl, rfl⟩

/-- A sort may be declared any number of times, but not under the name of an alias. -/
lemma declareSort_eq_ok : u.declareSort name = .ok (s, v) ↔
    Text.isIdentifier name = true ∧ s = .sort u.id name ∧
      (u.sort? name = some (.sort u.id name) ∧ v = u ∨
        u.sort? name = none ∧ u.alias? name = none ∧
          v = u.withSort name) := by
  rw [declareSort, checkIdentifier_bind_eq_ok]
  refine and_congr_right fun _ => ?_
  cases hs : Table.get? (· == name) u.sorts with
  | some cs =>
    simp only [sort?, hs, Option.map_some, Option.isSome_some, if_true, pure_eq_ok, Prod.mk.injEq,
      true_and, reduceCtorEq, false_and, or_false]
    exact and_congr eq_comm eq_comm
  | none =>
    simp only [sort?, hs, Option.map_none, Option.isSome_none, Bool.false_eq_true, if_false,
      throw_bind_eq_ok, pure_eq_ok, Prod.mk.injEq, Option.not_isSome_iff_eq_none, reduceCtorEq,
      false_and, true_and, false_or]
    constructor
    · rintro ⟨ha, rfl, rfl⟩
      exact ⟨rfl, ha, rfl⟩
    · rintro ⟨rfl, ha, rfl⟩
      exact ⟨ha, rfl, rfl⟩

lemma signature?_known {sort : Ty} :
    ¬ (u.signature? sort).isNone = true ↔ ∃ n, sort = .sort u.id n ∧ u.sort? n = some sort := by
  rw [Bool.not_eq_true, Option.isNone_eq_false_iff]
  constructor
  · intro h
    cases sort with
    | sort home n =>
      by_cases hid : home = u.id
      · subst hid
        rw [signature?_sort, Option.isSome_iff_exists] at h
        exact ⟨n, rfl, sort?_eq_some.mpr ⟨h, rfl⟩⟩
      · simp [signature?, hid] at h
    | _ => simp [signature?] at h
  · rintro ⟨n, rfl, hn⟩
    rw [signature?_sort, Option.isSome_iff_exists]
    exact (sort?_eq_some.mp hn).1

/-- A constructor belongs to a sort of the universe and has a tuple of children. -/
lemma constructorOf_eq_ok {sort children : Ty} {cname : Option String} :
    u.constructorOf sort cname children = .ok c ↔ ∃ sortName d fs,
      sort = .sort u.id sortName ∧ u.sort? sortName = some sort ∧ children = .tuple d fs ∧
        (∀ n ∈ cname, Text.isIdentifier n = true) ∧ c = .constructor u.id cname sortName d fs := by
  have names : cname.forM checkIdentifier = .ok () ↔ ∀ n ∈ cname, Text.isIdentifier n = true := by
    cases cname <;> simp [Option.forM, checkIdentifier_eq_ok, pure_eq_ok]
  constructor
  · intro h
    unfold constructorOf at h
    split at h
    case h_1 home sortName d fs =>
      obtain ⟨_, hnames, h⟩ := bind_eq_ok.mp h
      obtain ⟨hsort, hc⟩ := throw_bind_eq_ok.mp h
      obtain ⟨n, hn, hsort⟩ := signature?_known.mp hsort
      obtain ⟨rfl, rfl⟩ := Ty.sort.inj hn
      exact ⟨_, d, fs, rfl, hsort, rfl, names.mp hnames, (pure_eq_ok.mp hc).symm⟩
    case h_2 => cases h
    case h_3 => cases h
  · rintro ⟨sortName, d, fs, rfl, hsort, rfl, hnames, rfl⟩
    refine bind_eq_ok.mpr ⟨(), names.mpr hnames, throw_bind_eq_ok.mpr ⟨?_, rfl⟩⟩
    exact signature?_known.mpr ⟨sortName, rfl, hsort⟩

/-- A sort may list an anonymous constructor only if it has none yet. -/
lemma addConstructor_eq_ok {sortName : String} :
    u.addConstructor (.sort u.id sortName) c = .ok (s, v) ↔
      s = c ∧ (c ∈ u.constructorsOf (.sort u.id sortName) ∧ v = u ∨
        c ∉ u.constructorsOf (.sort u.id sortName) ∧
          (c.name? = none → ∀ old ∈ u.constructorsOf (.sort u.id sortName), old.name? ≠ none) ∧
            v = u.withConstructor sortName c) := by
  unfold addConstructor
  dsimp only
  split
  case isTrue hc =>
    rw [List.contains_iff_mem] at hc
    simp only [Except.ok.injEq, Prod.mk.injEq, hc, true_and, not_true, false_and, or_false]
    exact and_congr eq_comm eq_comm
  case isFalse hc =>
    rw [List.contains_iff_mem] at hc
    split
    case isTrue hone =>
      simp only [Bool.and_eq_true, Option.isNone_iff_eq_none, List.any_eq_true] at hone
      obtain ⟨hname, old, hold, hname'⟩ := hone
      simp only [reduceCtorEq, hc, false_and, false_or, false_iff, not_and]
      exact fun _ _ h _ => h hname old hold hname'
    case isFalse hone =>
      have hnone (hname : c.name? = none) :
          ∀ old ∈ u.constructorsOf (.sort u.id sortName), old.name? ≠ none := by
        intro old hold hname'
        simp [hname, List.any_eq_true] at hone
        exact hone old hold hname'
      simp only [Except.ok.injEq, Prod.mk.injEq, hc, false_and, not_false_eq_true, true_and, false_or]
      exact ⟨fun ⟨h, h'⟩ => ⟨h.symm, hnone, h'.symm⟩, fun ⟨h, _, h'⟩ => ⟨h.symm, h'.symm⟩⟩

/-! ### Growth -/

/-- What one call can do to the declarations: nothing, or it adds one that contradicts no other. -/
inductive Growth (u : Universe) : Universe → Prop
  | same : Growth u u
  | newAlias {n : String} {t : Ty} (hname : Text.isIdentifier n = true) (hnew : u.alias? n = none)
      (hsort : u.sort? n = none) : Growth u (u.withAlias n t)
  | newSort {n : String} (hname : Text.isIdentifier n = true) (hnew : u.sort? n = none)
      (halias : u.alias? n = none) : Growth u (u.withSort n)
  | newConstructor {cname : Option String} {n : String} {d : UniverseId} {fs : List Field}
      (hname : ∀ m ∈ cname, Text.isIdentifier m = true) (hsort : u.sort? n = some (.sort u.id n))
      (hone : cname = none → ∀ old ∈ u.constructorsOf (.sort u.id n), old.name? ≠ none) :
      Growth u (u.withConstructor n (.constructor u.id cname n d fs))
  | annotated {table : Table Ty (Table String Ty)} : Growth u { u with annotated := table }

lemma growth_of_declareAlias (h : u.declareAlias name t = .ok (s, v)) : Growth u v := by
  obtain ⟨hname, -, ⟨-, rfl⟩ | ⟨hnew, hsort, rfl⟩⟩ := declareAlias_eq_ok.mp h
  · exact .same
  · exact .newAlias hname hnew hsort

lemma growth_of_declareSort (h : u.declareSort name = .ok (s, v)) : Growth u v := by
  obtain ⟨hname, -, ⟨-, rfl⟩ | ⟨hnew, halias, rfl⟩⟩ := declareSort_eq_ok.mp h
  · exact .same
  · exact .newSort hname hnew halias

lemma declareConstructor_eq_ok {sort children : Ty} {cname : Option String} :
    u.declareConstructor sort cname children = .ok (s, v) ↔
      u.constructorOf sort cname children = .ok s ∧ u.addConstructor sort s = .ok (s, v) := by
  rw [declareConstructor, bind_eq_ok]
  constructor
  · rintro ⟨c, hc, h⟩
    obtain ⟨sortName, d, fs, rfl, -⟩ := constructorOf_eq_ok.mp hc
    obtain rfl := (addConstructor_eq_ok.mp h).1
    exact ⟨hc, h⟩
  · rintro ⟨hc, h⟩
    exact ⟨s, hc, h⟩

lemma growth_of_declareConstructor {sort children : Ty} {cname : Option String}
    (h : u.declareConstructor sort cname children = .ok (s, v)) : Growth u v := by
  obtain ⟨hc, h⟩ := declareConstructor_eq_ok.mp h
  obtain ⟨sortName, d, fs, rfl, hsort, -, hnames, rfl⟩ := constructorOf_eq_ok.mp hc
  obtain ⟨-, ⟨-, rfl⟩ | ⟨-, hone, rfl⟩⟩ := addConstructor_eq_ok.mp h
  · exact .same
  · exact .newConstructor hnames hsort hone

lemma growth_of_annotate {on : Ty} (h : u.annotate on name t = .ok v) : Growth u v := by
  unfold annotate at h
  obtain ⟨-, h⟩ := checkIdentifier_bind_eq_ok.mp h
  split at h
  · obtain ⟨-, h⟩ := ite_throw_eq_ok.mp h
    obtain rfl := pure_eq_ok.mp h
    exact .same
  · obtain rfl := pure_eq_ok.mp h
    exact .annotated

lemma growth_of_adopt (h : u.adopt p = .ok (s, v)) : Growth u v := by
  cases p with
  | aliasOf home n t => exact growth_of_declareAlias h
  | sort home n => exact growth_of_declareSort h
  | constructor home cname n d fs => exact growth_of_declareConstructor h
  | _ =>
    cases h
    exact .same

/-- The declarations of one universe are kept by another one, which may have more of them. -/
structure Extends (u v : Universe) : Prop where
  id_eq : v.id = u.id
  aliases : ∀ n t, u.alias? n = some t → v.alias? n = some t
  sorts : ∀ n t, u.sort? n = some t → v.sort? n = some t
  constructors : ∀ s c, c ∈ u.constructorsOf s → c ∈ v.constructorsOf s

lemma Extends.refl (u : Universe) : u.Extends u :=
  ⟨rfl, fun _ _ h => h, fun _ _ h => h, fun _ _ h => h⟩

lemma Extends.trans (h : u.Extends v) (h' : v.Extends w) : u.Extends w where
  id_eq := h'.id_eq.trans h.id_eq
  aliases n t ht := h'.aliases n t (h.aliases n t ht)
  sorts n t ht := h'.sorts n t (h.sorts n t ht)
  constructors s c hc := h'.constructors s c (h.constructors s c hc)

lemma alias?_withAlias : (u.withAlias n t).alias? name =
    (u.alias? name).or (if n = name then some (.aliasOf u.id n t) else none) := by
  rw [alias?, withAlias, Table.get?_concat, Option.map_or]
  by_cases h : n = name <;> simp [alias?, h]

lemma sort?_withSort : (u.withSort n).sort? name =
    (u.sort? name).or (if n = name then some (.sort u.id n) else none) := by
  rw [sort?, withSort, Table.get?_concat, Option.map_or]
  by_cases h : n = name <;> simp [sort?, h]

/-- A sort has no constructors at first. -/
lemma constructorsOf_withSort (s : Ty) : (u.withSort n).constructorsOf s = u.constructorsOf s := by
  cases s with
  | sort home m =>
    by_cases hid : home = u.id
    · subst hid
      have happend : (u.withSort n).constructorsOf (.sort u.id m) =
          (Table.get? (· == m) (u.withSort n).sorts).getD [] := constructorsOf_sort
      rw [happend, withSort, Table.get?_concat, constructorsOf_sort]
      cases Table.get? (· == m) u.sorts with
      | some cs => rfl
      | none => by_cases h : n = m <;> simp [h]
    · simp [constructorsOf, signature?, withSort, hid]
  | _ => rfl

lemma sort?_withConstructor (h : u.sort? n = some t) :
    (u.withConstructor n c).sort? name = u.sort? name := by
  obtain ⟨⟨cs, hcs⟩, -⟩ := sort?_eq_some.mp h
  unfold sort? withConstructor
  rw [Table.get?_put]
  split
  · next heq =>
    rw [← heq, hcs]
    rfl
  · rfl

lemma constructorsOf_withConstructor :
    (u.withConstructor n c).constructorsOf (.sort u.id name) =
      if n = name then u.constructorsOf (.sort u.id n) ++ [c] else u.constructorsOf (.sort u.id name) := by
  have hput : (u.withConstructor n c).constructorsOf (.sort u.id name) =
      (Table.get? (· == name) (u.withConstructor n c).sorts).getD [] := constructorsOf_sort
  rw [hput, withConstructor, Table.get?_put, constructorsOf_sort, constructorsOf_sort]
  split <;> rfl

/-- Only the sorts of a universe have constructors there. -/
lemma sort_of_mem_constructorsOf (h : c ∈ u.constructorsOf s) : ∃ n, s = .sort u.id n := by
  cases s with
  | sort home n =>
    by_cases hid : home = u.id
    · exact ⟨n, by rw [hid]⟩
    · simp [constructorsOf, signature?, hid] at h
  | _ => simp [constructorsOf, signature?] at h

lemma sort?_of_mem_constructorsOf (h : c ∈ u.constructorsOf (.sort u.id n)) :
    u.sort? n = some (.sort u.id n) := by
  rw [constructorsOf_sort] at h
  cases hs : Table.get? (· == n) u.sorts with
  | some cs => exact sort?_eq_some.mpr ⟨⟨cs, hs⟩, rfl⟩
  | none => simp [hs] at h

lemma Growth.extends (h : u.Growth v) : u.Extends v := by
  cases h with
  | same => exact .refl u
  | newAlias hname hnew hsort =>
    refine ⟨rfl, fun m t ht => ?_, fun _ _ h => h, fun _ _ h => h⟩
    rw [alias?_withAlias, ht, Option.some_or]
  | newSort hname hnew halias =>
    refine ⟨rfl, fun _ _ h => h, fun m t ht => ?_, fun s c hc => ?_⟩
    · rw [sort?_withSort, ht, Option.some_or]
    · rwa [constructorsOf_withSort]
  | @newConstructor cname n d fs hname hsort hone =>
    refine ⟨rfl, fun _ _ h => h, fun m t ht => ?_, fun s c hc => ?_⟩
    · rwa [sort?_withConstructor hsort]
    · obtain ⟨m, rfl⟩ := sort_of_mem_constructorsOf hc
      rw [constructorsOf_withConstructor]
      split
      · next heq => exact List.mem_append_left _ (heq ▸ hc)
      · exact hc
  | annotated => exact ⟨rfl, fun _ _ h => h, fun _ _ h => h, fun _ _ h => h⟩

/-! ### Consistent declarations -/

/-- No name is declared twice, and what is listed under a sort are constructors of this sort, at most one
of them anonymous. -/
structure Consistent (u : Universe) : Prop where
  aliases_nodup : (u.aliases.map (·.1)).Nodup
  sorts_nodup : (u.sorts.map (·.1)).Nodup
  apart : ∀ n, u.sort? n ≠ none → u.alias? n = none
  alias_name : ∀ n, u.alias? n ≠ none → Text.isIdentifier n = true
  sort_name : ∀ n, u.sort? n ≠ none → Text.isIdentifier n = true
  constructor : ∀ n c, c ∈ u.constructorsOf (.sort u.id n) → ∃ cname d fs,
    c = .constructor u.id cname n d fs ∧ ∀ m ∈ cname, Text.isIdentifier m = true
  anonymous : ∀ n c c', c ∈ u.constructorsOf (.sort u.id n) → c' ∈ u.constructorsOf (.sort u.id n) →
    c.name? = none → c'.name? = none → c = c'

lemma consistent_empty (id : UniverseId) : (Universe.empty id).Consistent where
  aliases_nodup := .nil
  sorts_nodup := .nil
  apart _ h := absurd rfl h
  alias_name _ h := absurd rfl h
  sort_name _ h := absurd rfl h
  constructor n c h := by simp [constructorsOf, signature?, empty, Table.get?] at h
  anonymous n c c' h := by simp [constructorsOf, signature?, empty, Table.get?] at h

lemma Growth.consistent (h : u.Growth v) (hu : u.Consistent) : v.Consistent := by
  cases h with
  | same => exact hu
  | @newAlias n t hname hnew hsort =>
    have alias_or {m : String} (hm : (u.withAlias n t).alias? m ≠ none) : u.alias? m ≠ none ∨ n = m := by
      by_contra! h
      exact hm (by rw [alias?_withAlias, h.1, if_neg h.2, Option.none_or])
    exact {
      aliases_nodup := Table.nodup_keys_append hu.aliases_nodup (alias?_eq_none.mp hnew)
      sorts_nodup := hu.sorts_nodup
      apart m hm := by
        by_contra halias
        rcases alias_or halias with h | rfl
        · exact h (hu.apart m hm)
        · exact hm hsort
      alias_name m hm := (alias_or hm).elim (hu.alias_name m) (fun h => h ▸ hname)
      sort_name := hu.sort_name
      constructor := hu.constructor
      anonymous := hu.anonymous }
  | @newSort n hname hnew halias =>
    have sort_or {m : String} (hm : (u.withSort n).sort? m ≠ none) : u.sort? m ≠ none ∨ n = m := by
      by_contra! h
      exact hm (by rw [sort?_withSort, h.1, if_neg h.2, Option.none_or])
    exact {
      aliases_nodup := hu.aliases_nodup
      sorts_nodup := Table.nodup_keys_append hu.sorts_nodup (sort?_eq_none.mp hnew)
      apart m hm := (sort_or hm).elim (hu.apart m) (fun h => h ▸ halias)
      alias_name := hu.alias_name
      sort_name m hm := (sort_or hm).elim (hu.sort_name m) (fun h => h ▸ hname)
      constructor m c hc := hu.constructor m c (by rwa [constructorsOf_withSort] at hc)
      anonymous m c c' hc hc' := hu.anonymous m c c' (by rwa [constructorsOf_withSort] at hc)
        (by rwa [constructorsOf_withSort] at hc') }
  | @newConstructor cname n d fs hname hsort hone =>
    have listed_or {m : String} {c : Ty}
        (hc : c ∈ (u.withConstructor n (.constructor u.id cname n d fs)).constructorsOf (.sort u.id m)) :
        c ∈ u.constructorsOf (.sort u.id m) ∨ n = m ∧ c = .constructor u.id cname n d fs := by
      rw [constructorsOf_withConstructor] at hc
      split at hc
      · next heq =>
        rcases List.mem_append.mp hc with h | h
        · exact .inl (heq ▸ h)
        · exact .inr ⟨heq, List.mem_singleton.mp h⟩
      · exact .inl hc
    exact {
      aliases_nodup := hu.aliases_nodup
      sorts_nodup := Table.nodup_keys_put _ hu.sorts_nodup
      apart m hm := hu.apart m (by rwa [sort?_withConstructor hsort] at hm)
      alias_name := hu.alias_name
      sort_name m hm := hu.sort_name m (by rwa [sort?_withConstructor hsort] at hm)
      constructor m c hc := by
        rcases listed_or hc with h | ⟨rfl, rfl⟩
        · exact hu.constructor m c h
        · exact ⟨cname, d, fs, rfl, hname⟩
      anonymous m c c' hc hc' hcn hcn' := by
        rcases listed_or hc with h | ⟨rfl, rfl⟩ <;> rcases listed_or hc' with h' | ⟨heq, rfl⟩
        · exact hu.anonymous m c c' h h' hcn hcn'
        · subst heq
          exact absurd hcn (hone hcn' c h)
        · exact absurd hcn' (hone hcn c' h')
        · rfl }
  | annotated => exact { hu with }

/-! ### Registered types -/

/-- A leaf, a type made by the universe, or a type that it has declared. The children of a constructor may
come from another universe. -/
def Registers (u : Universe) : Ty → Prop
  | .object home _ | .tuple home _ | .list home _ | .set home _ | .map home _ _ => home = u.id
  | .aliasOf home name t => u.alias? name = some (.aliasOf home name t)
  | .sort home name => u.sort? name = some (.sort home name)
  | .constructor home name sortName childHome children =>
    home = u.id ∧
      .constructor home name sortName childHome children ∈ u.constructorsOf (.sort u.id sortName)
  | _ => True

lemma Registers.home_eq (h : u.Registers t) : ∀ home ∈ t.home?, home = u.id := by
  cases t with
  | aliasOf home n t => exact fun _ hk => (Option.some.inj hk) ▸ home_of_declares h
  | sort home n => exact fun _ hk => (Option.some.inj hk) ▸ (Ty.sort.inj (sort?_eq_some.mp h).2).1.symm
  | constructor home cname n d fs => exact fun _ hk => (Option.some.inj hk) ▸ h.1
  | object | tuple | list | set | map => exact fun _ hk => (Option.some.inj hk) ▸ h
  | _ => exact fun _ hk => nomatch hk

lemma Declares.registers (h : u.Declares t) : u.Registers t := by
  cases t with
  | constructor home name sortName d fs => exact ⟨h.2.1, h.1⟩
  | _ => exact h

lemma Registers.declares (h : u.Registers t) (hcs : ∀ c ∈ t.components, u.Declares c) :
    u.Declares t := by
  cases t with
  | constructor home name sortName d fs => exact ⟨h.2, h.1, hcs (.tuple d fs) (by simp [Ty.components])⟩
  | _ => exact h

lemma Extends.registers (h : u.Extends v) (ht : u.Registers t) : v.Registers t := by
  cases t with
  | aliasOf home name t => exact h.aliases name _ ht
  | sort home name => exact h.sorts name _ ht
  | constructor home name sortName d fs =>
    refine ⟨ht.1.trans h.id_eq.symm, ?_⟩
    rw [h.id_eq]
    exact h.constructors _ _ ht.2
  | object | tuple | list | set | map => exact Eq.trans ht h.id_eq.symm
  | _ => trivial

lemma Extends.declares (h : u.Extends v) (ht : u.Declares t) : v.Declares t := by
  cases t with
  | constructor home name sortName d fs =>
    obtain ⟨hid, hmem⟩ := h.registers ht.registers
    exact ⟨hmem, hid, ht.2.2.trans h.id_eq.symm⟩
  | _ => exact h.registers ht.registers

lemma Extends.owns (h : u.Extends v) (ht : u.Owns t) : v.Owns t :=
  fun p hp => h.declares (ht p hp)

/-- What a call hands out is registered afterwards. -/
lemma registers_of_adopt (h : u.adopt p = .ok (s, v)) : v.Registers s := by
  have hextends := (growth_of_adopt h).extends
  cases p with
  | aliasOf home n t =>
    obtain ⟨-, rfl, ⟨hknown, rfl⟩ | ⟨hnew, -, rfl⟩⟩ := declareAlias_eq_ok.mp h
    · exact hknown
    · exact (alias?_withAlias (n := n)).trans (by rw [hnew, if_pos rfl, Option.none_or])
  | sort home n =>
    obtain ⟨-, rfl, ⟨hknown, rfl⟩ | ⟨hnew, -, rfl⟩⟩ := declareSort_eq_ok.mp h
    · exact hknown
    · exact (sort?_withSort (n := n)).trans (by rw [hnew, if_pos rfl, Option.none_or])
  | constructor home cname n d fs =>
    obtain ⟨hc, h⟩ := declareConstructor_eq_ok.mp h
    obtain ⟨sortName, d', fs', hs, -, -, -, rfl⟩ := constructorOf_eq_ok.mp hc
    obtain ⟨rfl, rfl⟩ := Ty.sort.inj hs
    obtain ⟨-, ⟨hlisted, rfl⟩ | ⟨-, -, rfl⟩⟩ := addConstructor_eq_ok.mp h
    · exact ⟨rfl, hlisted⟩
    · refine ⟨rfl, ?_⟩
      rw [show (u.withConstructor n _).id = u.id from rfl, constructorsOf_withConstructor, if_pos rfl]
      exact List.mem_append_right _ List.mem_cons_self
  | _ =>
    cases h
    trivial

/-- The type of a universe for a shape. A constructor must be asked for in its own universe. -/
def typeFor (id : UniverseId) : Ty → Ty
  | .object _ kind => .object id kind
  | .tuple _ fields => .tuple id fields
  | .list _ element => .list id element
  | .set _ element => .set id element
  | .map _ k v => .map id k v
  | .aliasOf _ name t => .aliasOf id name t
  | .sort _ name => .sort id name
  | t => t

/-- What a call hands out has the shape asked for. -/
lemma eq_typeFor_of_adopt (h : u.adopt p = .ok (s, v)) : s = typeFor u.id p := by
  cases p with
  | aliasOf home n t => exact (declareAlias_eq_ok.mp h).2.1
  | sort home n => exact (declareSort_eq_ok.mp h).2.1
  | constructor home cname n d fs =>
    obtain ⟨sortName, d', fs', hs, -, hc, -, rfl⟩ :=
      constructorOf_eq_ok.mp (declareConstructor_eq_ok.mp h).1
    obtain ⟨rfl, rfl⟩ := Ty.sort.inj hs
    obtain ⟨rfl, rfl⟩ := Ty.tuple.inj hc
    rfl
  | _ =>
    cases h
    rfl

lemma components_of_adopt (h : u.adopt p = .ok (s, v)) : s.components = p.components := by
  rw [eq_typeFor_of_adopt h]
  cases p <;> rfl

/-- Asking for a registered type again hands it out and leaves the declarations as they are. -/
lemma adopt_of_registers (hu : u.Consistent) (ht : u.Registers t) : u.adopt t = .ok (t, u) := by
  cases t with
  | aliasOf home n t =>
    have hid : home = u.id := home_of_declares ht
    subst hid
    exact declareAlias_eq_ok.mpr ⟨hu.alias_name n (by rw [ht]; nofun), rfl, .inl ⟨ht, rfl⟩⟩
  | sort home n =>
    have hid : home = u.id := (Ty.sort.inj (sort?_eq_some.mp ht).2).1.symm
    subst hid
    exact declareSort_eq_ok.mpr ⟨hu.sort_name n (by rw [ht]; nofun), rfl, .inl ⟨ht, rfl⟩⟩
  | constructor home cname n d fs =>
    obtain ⟨rfl, hlisted⟩ := ht
    obtain ⟨cname', d', fs', heq, hnames⟩ := hu.constructor n _ hlisted
    obtain ⟨-, rfl, -, rfl, rfl⟩ := Ty.constructor.inj heq
    refine declareConstructor_eq_ok.mpr ⟨constructorOf_eq_ok.mpr ?_, addConstructor_eq_ok.mpr ?_⟩
    · exact ⟨n, d, fs, rfl, sort?_of_mem_constructorsOf hlisted, rfl, hnames, rfl⟩
    · exact ⟨rfl, .inl ⟨hlisted, rfl⟩⟩
  | object home k => rw [adopt, show home = u.id from ht]
  | tuple home fs => rw [adopt, show home = u.id from ht]
  | list home e => rw [adopt, show home = u.id from ht]
  | set home e => rw [adopt, show home = u.id from ht]
  | map home k v => rw [adopt, show home = u.id from ht]
  | _ => rfl

end Universe
end TypedValues
