/-!
# Decimal numerals and machine integers

A formula writes integers in decimal, and holds them in 64 bits: signed for
the values of cells, unsigned for the numbers of rows. Two things are said
here once for the whole library. The first is the text of an integer: its
shortest decimal numeral, after a minus sign where it is negative. The second
is **narrowing**: arithmetic is done on unbounded integers, and its result is
kept only if the machine type has it, so the exact result and the test for
overflow are one computation and one comparison.
-/

namespace FormulaColumn

namespace Numeral

/-- The decimal numeral of a natural number. -/
def ofNat (n : Nat) : List Char := Nat.toDigits 10 n

/-- The decimal numeral of an integer, after a minus sign where it is
negative. -/
def ofInt (n : Int) : List Char :=
  if n < 0 then '-' :: ofNat n.natAbs else ofNat n.natAbs

/-- The number that a run of decimal digits writes. Leading zeros are
allowed. -/
def value (digits : List Char) : Nat := Nat.ofDigitChars 10 digits 0

/-- **A numeral reads back.** -/
@[simp] theorem value_ofNat (n : Nat) : value (ofNat n) = n :=
  Nat.ofDigitChars_toDigits (by decide) (by decide)

theorem isDigit_of_mem_ofNat {n : Nat} {c : Char} (h : c ∈ ofNat n) :
    c.isDigit = true :=
  Nat.isDigit_of_mem_toDigits (by decide) (by decide) h

theorem ofNat_ne_nil (n : Nat) : ofNat n ≠ [] := Nat.toDigits_ne_nil

theorem ofInt_of_nonneg {n : Int} (h : 0 ≤ n) : ofInt n = ofNat n.natAbs :=
  if_neg (Int.not_lt.mpr h)

theorem ofInt_of_neg {n : Int} (h : n < 0) :
    ofInt n = '-' :: ofNat n.natAbs :=
  if_pos h

theorem exists_ofInt_eq_cons (n : Int) :
    ∃ c cs, ofInt n = c :: cs ∧ (c = '-' ∨ c.isDigit = true) := by
  by_cases hn : n < 0
  · exact ⟨_, _, ofInt_of_neg hn, Or.inl rfl⟩
  · obtain ⟨c, cs, hcs⟩ := List.exists_cons_of_ne_nil (ofNat_ne_nil n.natAbs)
    refine ⟨c, cs, (ofInt_of_nonneg (Int.not_lt.mp hn)).trans hcs, Or.inr ?_⟩
    exact isDigit_of_mem_ofNat (hcs ▸ List.mem_cons_self)

/-- **A numeral has no leading zero.** -/
theorem head?_ofNat_ne {n : Nat} (h : 0 < n) : (ofNat n).head? ≠ some '0' := by
  induction n using Nat.strongRecOn with
  | ind n ih =>
    unfold ofNat at ih ⊢
    by_cases hn : n < 10
    · rw [Nat.toDigits_of_lt_base hn]
      have hall : ∀ m < 10, 0 < m → [m.digitChar].head? ≠ some '0' := by decide
      exact hall n hn h
    · -- the first digit is the one of the number without its last digit
      have hfirst := ih (n / 10) (by omega) (by omega)
      obtain ⟨c, cs, hcs⟩ := List.exists_cons_of_ne_nil (ofNat_ne_nil (n / 10))
      unfold ofNat at hcs
      rw [Nat.toDigits_of_base_le (by decide) (Nat.not_lt.mp hn), hcs]
      rwa [hcs] at hfirst

/-- **Integers with the same numeral** are the same. -/
theorem ofInt_injective : Function.Injective ofInt := by
  have hsign : ∀ k cs, ofNat k ≠ '-' :: cs := by
    intro k cs h
    have hdigit : '-'.isDigit = true :=
      isDigit_of_mem_ofNat (n := k) (h ▸ List.mem_cons_self)
    exact absurd hdigit (by decide)
  have hdigits : ∀ k l, ofNat k = ofNat l → k = l := by
    intro k l h
    rw [← value_ofNat k, h, value_ofNat]
  intro n m h
  by_cases hn : n < 0 <;> by_cases hm : m < 0
  · rw [ofInt_of_neg hn, ofInt_of_neg hm] at h
    have habs := hdigits _ _ (List.cons.inj h).2
    omega
  · rw [ofInt_of_neg hn, ofInt_of_nonneg (Int.not_lt.mp hm)] at h
    exact absurd h.symm (hsign _ _)
  · rw [ofInt_of_nonneg (Int.not_lt.mp hn), ofInt_of_neg hm] at h
    exact absurd h (hsign _ _)
  · rw [ofInt_of_nonneg (Int.not_lt.mp hn),
      ofInt_of_nonneg (Int.not_lt.mp hm)] at h
    have habs := hdigits _ _ h
    omega

end Numeral

/-! ## Narrowing -/

/-- The signed 64-bit integer of value `n`, if there is one. -/
def int64? (n : Int) : Option Int64 :=
  if Int64.minValue.toInt ≤ n ∧ n ≤ Int64.maxValue.toInt then
    some (Int64.ofInt n)
  else
    none

/-- The unsigned 64-bit integer of value `n`, if there is one. -/
def uint64? (n : Nat) : Option UInt64 :=
  if n < UInt64.size then some (UInt64.ofNat n) else none

/-- **Narrowing keeps the value**, and fails only where no 64-bit integer
has it. -/
theorem int64?_eq_some_iff {n : Int} {x : Int64} :
    int64? n = some x ↔ x.toInt = n := by
  unfold int64?
  rw [Int64.toInt_minValue, Int64.toInt_maxValue]
  constructor
  · intro h
    split at h
    next hn =>
      rw [← Option.some.inj h]
      exact Int64.toInt_ofInt_of_le hn.1 (by omega)
    next => exact absurd h (by simp)
  · rintro rfl
    have hlo := x.le_toInt
    have hhi := x.toInt_lt
    rw [if_pos ⟨hlo, by omega⟩, Int64.ofInt_toInt]

/-- Narrowing fails outside the range of the 64-bit integers. -/
theorem int64?_eq_none_iff {n : Int} :
    int64? n = none
      ↔ n < Int64.minValue.toInt ∨ Int64.maxValue.toInt < n := by
  unfold int64?
  by_cases h : Int64.minValue.toInt ≤ n ∧ n ≤ Int64.maxValue.toInt
  · rw [if_pos h]
    exact iff_of_false (by simp) (by omega)
  · rw [if_neg h]
    exact iff_of_true rfl (by omega)

/-- **Narrowing keeps the value**, and fails only where no 64-bit integer
has it. -/
theorem uint64?_eq_some_iff {n : Nat} {x : UInt64} :
    uint64? n = some x ↔ x.toNat = n := by
  unfold uint64?
  constructor
  · intro h
    split at h
    next hn =>
      rw [← Option.some.inj h]
      exact UInt64.toNat_ofNat_of_lt' hn
    next => exact absurd h (by simp)
  · rintro rfl
    rw [if_pos x.toNat_lt, UInt64.ofNat_toNat]

/-- Narrowing fails outside the range of the 64-bit integers. -/
theorem uint64?_eq_none_iff {n : Nat} :
    uint64? n = none ↔ UInt64.size ≤ n := by
  unfold uint64?
  by_cases h : n < UInt64.size
  · rw [if_pos h]
    exact iff_of_false (by simp) (Nat.not_le.mpr h)
  · rw [if_neg h]
    exact iff_of_true rfl (Nat.not_lt.mp h)

end FormulaColumn
