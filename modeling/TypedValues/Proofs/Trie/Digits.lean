import Mathlib
import TypedValues.Trie.Basic

/-!
# Digits and positions

The thirteen digits of a hash determine it. A branch keeps its children in the order of the digits
in its bitmap, so that `position` counts the children before a digit.
-/

namespace TypedValues.Trie

lemma digit_lt (hash : UInt64) (level : Nat) : digit hash level < 32 :=
  Nat.mod_lt _ (by decide)

lemma testBit_digit (hash : UInt64) (level i : Nat) (hi : i < 5) :
    (digit hash level).testBit i = hash.toNat.testBit (5 * level + i) := by
  have h32 : 32 = 2 ^ 5 := rfl
  unfold digit
  rw [h32, Nat.testBit_mod_two_pow, Nat.testBit_shiftRight]
  simp [hi]

lemma eq_of_digits {a b : UInt64} (h : ∀ level < levels, digit a level = digit b level) : a = b := by
  apply UInt64.toNat.inj
  apply Nat.eq_of_testBit_eq
  intro n
  by_cases hn : n < 64
  · have hlevel : n / 5 < levels := by unfold levels; omega
    have hi : n % 5 < 5 := Nat.mod_lt _ (by decide)
    have hd := congrArg (fun d => d.testBit (n % 5)) (h (n / 5) hlevel)
    simp only [testBit_digit _ _ _ hi, Nat.div_add_mod] at hd
    exact hd
  · have hle : 2 ^ 64 ≤ 2 ^ n := Nat.pow_le_pow_right (by decide) (by omega)
    rw [Nat.testBit_lt_two_pow (lt_of_lt_of_le a.toNat_lt hle),
      Nat.testBit_lt_two_pow (lt_of_lt_of_le b.toNat_lt hle)]

/-- The digits a branch has children for, in ascending order. -/
def digits (bitmap : Nat) : List Nat := (List.range 32).filter bitmap.testBit

/-- The digits of a branch before the given one. -/
def digitsBelow (bitmap d : Nat) : List Nat := (List.range d).filter bitmap.testBit

/-- The digits of a branch after the given one. -/
def digitsAbove (bitmap d : Nat) : List Nat := (List.range' (d + 1) (31 - d)).filter bitmap.testBit

lemma mem_digits {bitmap d : Nat} : d ∈ digits bitmap ↔ d < 32 ∧ bitmap.testBit d = true := by
  simp [digits]

lemma lt_of_mem_digitsBelow {bitmap d i : Nat} (h : i ∈ digitsBelow bitmap d) : i < d := by
  simp only [digitsBelow, List.mem_filter, List.mem_range] at h
  exact h.1

lemma lt_of_mem_digitsAbove {bitmap d i : Nat} (h : i ∈ digitsAbove bitmap d) : d < i := by
  simp only [digitsAbove, List.mem_filter, List.mem_range'_1] at h
  omega

lemma length_digitsBelow (bitmap d : Nat) : (digitsBelow bitmap d).length = position bitmap d := by
  rw [digitsBelow, position, List.countP_eq_length_filter]

lemma range_split {d : Nat} (hd : d < 32) :
    List.range 32 = List.range d ++ d :: List.range' (d + 1) (31 - d) := by
  have h32 : 32 = d + (1 + (31 - d)) := by omega
  rw [List.range_eq_range', h32, ← List.range'_append, ← List.range'_append]
  simp [List.range_eq_range']

lemma digits_split (bitmap : Nat) {d : Nat} (hd : d < 32) :
    digits bitmap =
      digitsBelow bitmap d ++ (if bitmap.testBit d then [d] else []) ++ digitsAbove bitmap d := by
  unfold digits digitsBelow digitsAbove
  rw [range_split hd, List.filter_append, List.filter_cons]
  split <;> simp

lemma digits_of_testBit {bitmap d : Nat} (hd : d < 32) (h : bitmap.testBit d = true) :
    digits bitmap = digitsBelow bitmap d ++ d :: digitsAbove bitmap d := by
  rw [digits_split bitmap hd, h]
  simp

lemma digits_of_not_testBit {bitmap d : Nat} (hd : d < 32) (h : bitmap.testBit d = false) :
    digits bitmap = digitsBelow bitmap d ++ digitsAbove bitmap d := by
  rw [digits_split bitmap hd, h]
  simp

/-- What is before and after a digit depends on the other bits only. -/
lemma digitsBelow_congr {m n d : Nat} (h : ∀ i, i ≠ d → m.testBit i = n.testBit i) :
    digitsBelow m d = digitsBelow n d := by
  apply List.filter_congr
  intro i hi
  exact h i (List.mem_range.mp hi).ne

lemma digitsAbove_congr {m n d : Nat} (h : ∀ i, i ≠ d → m.testBit i = n.testBit i) :
    digitsAbove m d = digitsAbove n d := by
  apply List.filter_congr
  intro i hi
  have := (List.mem_range'_1.mp hi).1
  exact h i (by omega)

lemma testBit_bit (d i : Nat) : (1 <<< d).testBit i = decide (i = d) := by
  rw [Nat.one_shiftLeft, Nat.testBit_two_pow]
  simp [eq_comm]

/-- Setting a bit puts its digit between those before and those after it. -/
lemma digits_setBit (bitmap : Nat) {d : Nat} (hd : d < 32) :
    digits (bitmap ||| 1 <<< d) = digitsBelow bitmap d ++ d :: digitsAbove bitmap d := by
  have hother : ∀ i, i ≠ d → (bitmap ||| 1 <<< d).testBit i = bitmap.testBit i := by
    intro i hi
    rw [Nat.testBit_or, testBit_bit]
    simp [hi]
  have hset : (bitmap ||| 1 <<< d).testBit d = true := by
    rw [Nat.testBit_or, testBit_bit]
    simp
  rw [digits_of_testBit hd hset, digitsBelow_congr hother, digitsAbove_congr hother]

lemma digits_clearBit {bitmap d : Nat} (hd : d < 32) (h : bitmap.testBit d = true) :
    digits (bitmap ^^^ 1 <<< d) = digitsBelow bitmap d ++ digitsAbove bitmap d := by
  have hother : ∀ i, i ≠ d → (bitmap ^^^ 1 <<< d).testBit i = bitmap.testBit i := by
    intro i hi
    rw [Nat.testBit_xor, testBit_bit]
    simp [hi]
  have hclear : (bitmap ^^^ 1 <<< d).testBit d = false := by
    rw [Nat.testBit_xor, testBit_bit, h]
    simp
  rw [digits_of_not_testBit hd hclear, digitsBelow_congr hother, digitsAbove_congr hother]

@[simp] lemma digits_zero : digits 0 = [] := by
  simp [digits]

lemma digitsBelow_bit {d i : Nat} (h : d < i) : digitsBelow (1 <<< d) i = [d] := by
  have hbit : (1 <<< d).testBit = fun j => decide (j = d) := funext (testBit_bit d)
  unfold digitsBelow
  rw [hbit]
  induction i with
  | zero => omega
  | succ i ih =>
    rw [List.range_succ, List.filter_append]
    by_cases hi : i = d
    · subst hi
      have hnone : (List.range i).filter (fun j => decide (j = i)) = [] := by
        simp only [List.filter_eq_nil_iff, List.mem_range, decide_eq_true_eq]
        omega
      simp [hnone]
    · rw [ih (by omega)]
      simp [hi]

lemma digitsAbove_bit {d i : Nat} (h : d ≤ i) : digitsAbove (1 <<< d) i = [] := by
  simp only [digitsAbove, List.filter_eq_nil_iff, List.mem_range'_1, testBit_bit, decide_eq_true_eq]
  omega

lemma digits_bit {d : Nat} (hd : d < 32) : digits (1 <<< d) = [d] := by
  have h := digits_setBit 0 hd
  have hbelow : digitsBelow 0 d = [] := by simp [digitsBelow]
  have habove : digitsAbove 0 d = [] := by simp [digitsAbove]
  rw [Nat.zero_or, hbelow, habove] at h
  exact h

lemma digits_two_bits {i j : Nat} (hij : i < j) (hj : j < 32) :
    digits (1 <<< i ||| 1 <<< j) = [i, j] := by
  rw [digits_setBit _ hj, digitsBelow_bit hij, digitsAbove_bit hij.le]
  rfl

lemma bit_lt {d : Nat} (hd : d < 32) : 1 <<< d < 2 ^ 32 := by
  rw [Nat.one_shiftLeft]
  exact Nat.pow_lt_pow_right (by decide) hd

end TypedValues.Trie
