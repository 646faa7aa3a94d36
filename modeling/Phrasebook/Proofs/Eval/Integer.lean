/-
  Phrasebook.Proofs.Eval.Integer
  ────────────────────────────────
  **OPERATORS ON INTEGERS.**

  Arithmetic stays with integers exactly where 64 bits hold the result, with
  one exception: the remainder of the least integer by minus one is zero, but
  it is computed along with a quotient that does not fit, and so as a float.
  Comparisons always go through floats: they tell two integers apart exactly
  if their nearest floats differ.

      Fits, Kept   —  an integer of 64 bits; a result that is one if it can be
      integers_calculate
                   —  the five operators of arithmetic, and the minus sign
      ComparesAs   —  the answers of the six comparisons
      integers_compare
                   —  they are those on the nearest floats, exact as soon as
                      one side is below `2 ^ 53`
-/
import Phrasebook.Eval.Operator
import Phrasebook.Proofs.Number.Conversion

namespace Phrasebook

/-! ## §1. Integers that fit. -/

/-- The integer is one of 64 bits. -/
def Fits (n : Int) : Prop :=
  ∃ m : Int64, m.toInt = n

theorem fits_iff {n : Int} : Fits n ↔ -2 ^ 63 ≤ n ∧ n < 2 ^ 63 := by
  constructor
  · rintro ⟨m, rfl⟩
    exact ⟨m.le_toInt, m.toInt_lt⟩
  · rintro ⟨hlow, hhigh⟩
    exact ⟨Int64.ofInt n, Int64.toInt_ofInt_of_le hlow hhigh⟩

instance (n : Int) : Decidable (Fits n) :=
  decidable_of_iff _ fits_iff.symm

/-- Only the opposite of the least integer does not fit. -/
theorem fits_neg_iff {a : Int64} : Fits (-a.toInt) ↔ a ≠ Int64.minValue := by
  have hlow := a.le_toInt
  have hhigh := a.toInt_lt
  have hmin : a = Int64.minValue ↔ a.toInt = -2 ^ 63 := Int64.toInt_inj.symm
  rw [fits_iff, Ne, hmin]
  omega

/-- Only the opposite of the least integer is a quotient that does not fit. -/
theorem fits_tdiv_iff {a b : Int64} (hb : b.toInt ≠ 0) :
    Fits (a.toInt.tdiv b.toInt) ↔ ¬ (a = Int64.minValue ∧ b = -1) := by
  have hlow := a.le_toInt
  have hhigh := a.toInt_lt
  by_cases hone : b = -1
  · have htdiv : a.toInt.tdiv b.toInt = -a.toInt := by
      rw [hone]
      show a.toInt.tdiv (-1) = _
      rw [Int.tdiv_neg, Int.tdiv_one]
    rw [htdiv, fits_neg_iff]
    simp only [hone, and_true, Ne]
  · refine iff_of_true ?_ fun h => hone h.2
    have hsize := Int.natAbs_tdiv_le_natAbs a.toInt b.toInt
    by_cases hmin : a.toInt = -2 ^ 63
    · -- only a divisor of size one leaves the least integer its size, and
      -- one leaves it its sign too
      by_cases hunit : b.toInt = 1
      · rw [hunit, Int.tdiv_one]
        exact ⟨a, rfl⟩
      · have hneg : b.toInt ≠ -1 := fun h => hone (Int64.toInt_inj.1 h)
        have hhalf : (a.toInt.tdiv b.toInt).natAbs ≤ a.toInt.natAbs / 2 := by
          rw [Int.natAbs_tdiv]
          exact Nat.div_le_div_left (by omega) (by decide)
        rw [fits_iff]
        omega
    · rw [fits_iff]
      omega

/-- A remainder is never larger than the dividend. -/
theorem fits_tmod (a b : Int64) : Fits (a.toInt.tmod b.toInt) := by
  have hlow := a.le_toInt
  have hhigh := a.toInt_lt
  have hsize := Int.natAbs_tmod a.toInt b.toInt
  have hle := Nat.mod_le a.toInt.natAbs b.toInt.natAbs
  rw [fits_iff]
  -- the remainder has the sign of the dividend, which the least integer needs
  by_cases hsign : 0 ≤ a.toInt
  · have := Int.tmod_nonneg b.toInt hsign
    omega
  · have := Int.tmod_nonneg b.toInt (Int.neg_nonneg_of_nonpos (Int.le_of_not_le hsign))
    rw [Int.neg_tmod] at this
    omega

theorem int64?_of_fits {n : Int} (h : Fits n) : ∃ m, m.toInt = n ∧ int64? n = some m := by
  obtain ⟨hlow, hhigh⟩ := fits_iff.1 h
  refine ⟨Int64.ofInt n, Int64.toInt_ofInt_of_le hlow hhigh, if_pos ⟨hlow, ?_⟩⟩
  exact Int.le_of_lt_add_one hhigh

theorem int64?_of_not_fits {n : Int} (h : ¬ Fits n) : int64? n = none :=
  if_neg fun hn => h (fits_iff.2 ⟨hn.1, Int.lt_add_one_of_le hn.2⟩)

/-! ## §2. Arithmetic. -/

/-- The result is the integer `n` if 64 bits hold it, and the float `x` if
they do not. -/
structure Kept (n : Int) (x : Float) (result : Except EvalError Value) : Prop where
  fits : Fits n → ∃ m : Int64, m.toInt = n ∧ result = .ok (.number m)
  spills : ¬ Fits n → result = .ok (.float x)

section

variable {a b : Int64}

theorem Arithmetic.apply_of_some (f : Arithmetic) (op : BinaryOp) {m : Int64}
    (h : f.integers a b = some m) : f.apply op (.number a) (.number b) = .ok (.number m) := by
  simp only [Arithmetic.apply, h]

theorem Arithmetic.apply_of_none (f : Arithmetic) (op : BinaryOp) (h : f.integers a b = none) :
    f.apply op (.number a) (.number b)
      = .ok (.float (f.floats (Float.ofInt a.toInt) (Float.ofInt b.toInt))) := by
  simp only [Arithmetic.apply, h, Value.asFloat]

/-- An operator that keeps its result if it fits. -/
theorem Arithmetic.apply_kept (f : Arithmetic) (op : BinaryOp) {n : Int}
    (h : f.integers a b = int64? n) :
    Kept n (f.floats (Float.ofInt a.toInt) (Float.ofInt b.toInt))
      (f.apply op (.number a) (.number b)) where
  fits hn := by
    obtain ⟨m, hm, hsome⟩ := int64?_of_fits hn
    exact ⟨m, hm, f.apply_of_some op (h.trans hsome)⟩
  spills hn := f.apply_of_none op (h.trans (int64?_of_not_fits hn))

theorem isZero_number (b : Int64) : (Value.number b).isZero = decide (b.toInt = 0) := by
  -- zero is the float of an integer, too
  show (Float.ofInt b.toInt == Float.ofInt (0 : Int64).toInt) = _
  rw [ofInt_beq_ofInt, Bool.eq_iff_iff, decide_eq_true_eq, decide_eq_true_eq]
  show nearest b.toInt = nearest 0 ↔ _
  rw [nearest_eq_zero_iff.2 rfl, nearest_eq_zero_iff]

theorem divideValues_of_ne_zero (f : Arithmetic) (op : BinaryOp) (hb : b.toInt ≠ 0) :
    divideValues f op (.number a) (.number b) = f.apply op (.number a) (.number b) := by
  rw [divideValues, isZero_number, decide_eq_false hb]
  rfl

theorem divideValues_of_zero (f : Arithmetic) (op : BinaryOp) (hb : b.toInt = 0) :
    divideValues f op (.number a) (.number b) = .error .divisionByZero := by
  rw [divideValues, isZero_number, decide_eq_true hb]
  rfl

theorem exactQuotient_of_dvd (hb : b.toInt ≠ 0) (h : b.toInt ∣ a.toInt) :
    exactQuotient a b = int64? (a.toInt / b.toInt) := by
  rw [exactQuotient, if_neg, Int.tdiv_eq_ediv_of_dvd h]
  rintro (hzero | hrest)
  · exact hb hzero
  · exact hrest (Int.dvd_iff_tmod_eq_zero.1 h)

theorem exactQuotient_of_not_dvd (h : ¬ b.toInt ∣ a.toInt) : exactQuotient a b = none :=
  if_pos (.inr fun hrest => h (Int.dvd_iff_tmod_eq_zero.2 hrest))

theorem exactRemainder_of_fits (hb : b.toInt ≠ 0) (h : Fits (a.toInt.tdiv b.toInt)) :
    ∃ m, m.toInt = a.toInt.tmod b.toInt ∧ exactRemainder a b = some m := by
  obtain ⟨_, _, hquotient⟩ := int64?_of_fits h
  obtain ⟨hlow, hhigh⟩ := fits_iff.1 (fits_tmod a b)
  refine ⟨_, Int64.toInt_ofInt_of_le hlow hhigh, ?_⟩
  rw [exactRemainder, if_neg hb, hquotient]
  rfl

/-- There is no quotient to compute it along with. -/
theorem remainder_least :
    BinaryOp.remainder.apply (.number Int64.minValue) (.number (-1)) = .ok (.float (-0.0)) := by
  have hnone : Arithmetic.remainder.integers Int64.minValue (-1) = none := by decide
  have hfloat : Arithmetic.remainder.floats (Float.ofInt Int64.minValue.toInt)
      (Float.ofInt (-1 : Int64).toInt) = -0.0 := by decide +kernel
  rw [BinaryOp.apply, divideValues_of_ne_zero _ _ (by decide),
    Arithmetic.remainder.apply_of_none .remainder hnone, hfloat]

end

/-- What arithmetic makes of two integers. -/
structure Calculated (a b : Int64) : Prop where
  sum : Kept (a.toInt + b.toInt) (Float.ofInt a.toInt + Float.ofInt b.toInt)
    (BinaryOp.add.apply (.number a) (.number b))
  difference : Kept (a.toInt - b.toInt) (Float.ofInt a.toInt - Float.ofInt b.toInt)
    (BinaryOp.subtract.apply (.number a) (.number b))
  product : Kept (a.toInt * b.toInt) (Float.ofInt a.toInt * Float.ofInt b.toInt)
    (BinaryOp.multiply.apply (.number a) (.number b))
  quotient : b.toInt ≠ 0 → b.toInt ∣ a.toInt →
    Kept (a.toInt / b.toInt) (Float.ofInt a.toInt / Float.ofInt b.toInt)
      (BinaryOp.divide.apply (.number a) (.number b))
  fraction : b.toInt ≠ 0 → ¬ b.toInt ∣ a.toInt →
    BinaryOp.divide.apply (.number a) (.number b)
      = .ok (.float (Float.ofInt a.toInt / Float.ofInt b.toInt))
  /-- The remainder is exact but for one pair of operands. -/
  remainder : b.toInt ≠ 0 → ¬ (a = Int64.minValue ∧ b = -1) →
    ∃ m : Int64, m.toInt = a.toInt.tmod b.toInt ∧
      BinaryOp.remainder.apply (.number a) (.number b) = .ok (.number m)
  negativeZero : a = Int64.minValue → b = -1 →
    BinaryOp.remainder.apply (.number a) (.number b) = .ok (.float (-0.0))
  byZero : b.toInt = 0 →
    BinaryOp.divide.apply (.number a) (.number b) = .error .divisionByZero ∧
      BinaryOp.remainder.apply (.number a) (.number b) = .error .divisionByZero
  opposite : a ≠ Int64.minValue →
    ∃ m : Int64, m.toInt = -a.toInt ∧ UnaryOp.minus.apply (.number a) = .ok (.number m)
  leastOpposite : a = Int64.minValue →
    UnaryOp.minus.apply (.number a) = .ok (.float (-Float.ofInt a.toInt))

/-- **Arithmetic on integers is exact wherever the result is an integer that
fits, but for one remainder.**  Sums, differences and products are integers
exactly if 64 bits hold them, and so are quotients without a rest; what does
not fit, and every other quotient, is computed on floats.  A remainder always
fits, and is an integer unless the least integer is divided by minus one.
Division by zero is refused, and the sign of all integers but the least can be
turned round. -/
theorem integers_calculate (a b : Int64) : Calculated a b where
  sum := Arithmetic.sum.apply_kept .add rfl
  difference := Arithmetic.difference.apply_kept .subtract rfl
  product := Arithmetic.product.apply_kept .multiply rfl
  quotient hb hdvd := by
    rw [BinaryOp.apply, divideValues_of_ne_zero _ _ hb]
    exact Arithmetic.quotient.apply_kept .divide (exactQuotient_of_dvd hb hdvd)
  fraction hb hdvd := by
    rw [BinaryOp.apply, divideValues_of_ne_zero _ _ hb]
    exact Arithmetic.quotient.apply_of_none .divide (exactQuotient_of_not_dvd hdvd)
  remainder hb hpair := by
    obtain ⟨m, hm, hsome⟩ := exactRemainder_of_fits hb ((fits_tdiv_iff hb).2 hpair)
    refine ⟨m, hm, ?_⟩
    rw [BinaryOp.apply, divideValues_of_ne_zero _ _ hb]
    exact Arithmetic.remainder.apply_of_some .remainder hsome
  negativeZero ha hb := by
    rw [ha, hb]
    exact remainder_least
  byZero hb := ⟨divideValues_of_zero _ _ hb, divideValues_of_zero _ _ hb⟩
  opposite ha := by
    obtain ⟨m, hm, hsome⟩ := int64?_of_fits (fits_neg_iff.2 ha)
    exact ⟨m, hm, by simp only [UnaryOp.apply, hsome]⟩
  leastOpposite ha := by
    have hnone := int64?_of_not_fits fun h => fits_neg_iff.1 h ha
    simp only [UnaryOp.apply, hnone]

/-- At the least integer and minus one, quotient and opposite are floats, the
product too, and the sum still does not fit. -/
theorem least_calculates :
    BinaryOp.divide.apply (.number Int64.minValue) (.number (-1))
        = .ok (.float (Float.ofInt (-2 ^ 63) / Float.ofInt (-1)))
      ∧ BinaryOp.multiply.apply (.number Int64.minValue) (.number (-1))
        = .ok (.float (Float.ofInt (-2 ^ 63) * Float.ofInt (-1)))
      ∧ BinaryOp.add.apply (.number Int64.minValue) (.number (-1))
        = .ok (.float (Float.ofInt (-2 ^ 63) + Float.ofInt (-1)))
      ∧ UnaryOp.minus.apply (.number Int64.minValue) = .ok (.float (-Float.ofInt (-2 ^ 63))) :=
  have least := integers_calculate Int64.minValue (-1)
  ⟨(least.quotient (by decide) (by decide)).spills (by decide), least.product.spills (by decide),
    least.sum.spills (by decide), least.leastOpposite rfl⟩

/-- The remainder is zero, and what `%` makes of it is a negative zero. -/
theorem least_remainder_spills :
    Int64.minValue.toInt.tmod (-1 : Int64).toInt = (0 : Int64).toInt
      ∧ BinaryOp.remainder.apply (.number Int64.minValue) (.number (-1)) = .ok (.float (-0.0))
      ∧ ¬ ∀ a b : Int64, b.toInt ≠ 0 → ∃ m : Int64, m.toInt = a.toInt.tmod b.toInt ∧
          BinaryOp.remainder.apply (.number a) (.number b) = .ok (.number m) := by
  refine ⟨by decide, remainder_least, fun exact => ?_⟩
  obtain ⟨m, -, hm⟩ := exact Int64.minValue (-1) (by decide)
  rw [remainder_least] at hm
  exact nomatch hm

/-! ## §3. Comparisons. -/

/-- The six comparisons of `a` and `b` answer as the integers `x` and `y`
compare. -/
structure ComparesAs (a b : Int64) (x y : Int) : Prop where
  less : BinaryOp.less.apply (.number a) (.number b) = .ok (.bool (decide (x < y)))
  greater : BinaryOp.greater.apply (.number a) (.number b) = .ok (.bool (decide (y < x)))
  lessEqual : BinaryOp.lessEqual.apply (.number a) (.number b) = .ok (.bool (decide (x ≤ y)))
  greaterEqual :
    BinaryOp.greaterEqual.apply (.number a) (.number b) = .ok (.bool (decide (y ≤ x)))
  equal : BinaryOp.equal.apply (.number a) (.number b) = .ok (.bool (decide (x = y)))
  notEqual : BinaryOp.notEqual.apply (.number a) (.number b) = .ok (.bool (decide (x ≠ y)))

theorem compares_as_nearest (a b : Int64) :
    ComparesAs a b (nearest a.toInt) (nearest b.toInt) where
  less := by simp [BinaryOp.apply, OrderTest.apply, OrderTest.less, Value.asFloat, ofInt_lt_ofInt]
  greater := by
    simp [BinaryOp.apply, OrderTest.apply, OrderTest.greater, Value.asFloat, ofInt_lt_ofInt]
  lessEqual := by
    simp [BinaryOp.apply, OrderTest.apply, OrderTest.lessEqual, Value.asFloat, ofInt_le_ofInt]
  greaterEqual := by
    simp [BinaryOp.apply, OrderTest.apply, OrderTest.greaterEqual, Value.asFloat, ofInt_le_ofInt]
  equal := by simp [BinaryOp.apply, looselyEqual, Value.asFloat, ofInt_beq_ofInt]
  notEqual := by simp [BinaryOp.apply, looselyEqual, Value.asFloat, ofInt_beq_ofInt]

variable {a b : Int64}

/-- All six answers depend on which of the two integers is less. -/
theorem ComparesAs.congr {x y x' y' : Int} (h : ComparesAs a b x y) (hless : x < y ↔ x' < y')
    (hgreater : y < x ↔ y' < x') : ComparesAs a b x' y' := by
  have hle : x ≤ y ↔ x' ≤ y' := by omega
  have hge : y ≤ x ↔ y' ≤ x' := by omega
  have heq : x = y ↔ x' = y' := by omega
  constructor
  · simpa only [hless] using h.less
  · simpa only [hgreater] using h.greater
  · simpa only [hle] using h.lessEqual
  · simpa only [hge] using h.greaterEqual
  · simpa only [heq] using h.equal
  · simpa only [ne_eq, heq] using h.notEqual

/-- Of two integers, one is less or they are equal, and not both. -/
theorem ComparesAs.existsUnique {x y : Int} (h : ComparesAs a b x y) :
    ∃! op, op ∈ [BinaryOp.less, .equal, .greater] ∧
      op.apply (.number a) (.number b) = .ok (.bool true) := by
  have holds_iff : ∀ op, (op ∈ [BinaryOp.less, .equal, .greater] ∧
      op.apply (.number a) (.number b) = .ok (.bool true))
        ↔ op = .less ∧ x < y ∨ op = .equal ∧ x = y ∨ op = .greater ∧ y < x := by
    intro op
    simp only [List.mem_cons, List.not_mem_nil, or_false, or_and_right]
    refine or_congr (and_congr_right ?_) (or_congr (and_congr_right ?_) (and_congr_right ?_))
    · rintro rfl
      simp [h.less]
    · rintro rfl
      simp [h.equal]
    · rintro rfl
      simp [h.greater]
  simp only [holds_iff]
  -- which of the two is less names the operator
  rcases Int.lt_trichotomy x y with hxy | hxy | hxy
  · refine ⟨.less, .inl ⟨rfl, hxy⟩, ?_⟩
    rintro op (⟨hop, -⟩ | ⟨-, heq⟩ | ⟨-, hgt⟩)
    exacts [hop, absurd heq (by omega), absurd hgt (by omega)]
  · refine ⟨.equal, .inr (.inl ⟨rfl, hxy⟩), ?_⟩
    rintro op (⟨-, hlt⟩ | ⟨hop, -⟩ | ⟨-, hgt⟩)
    exacts [absurd hlt (by omega), hop, absurd hgt (by omega)]
  · refine ⟨.greater, .inr (.inr ⟨rfl, hxy⟩), ?_⟩
    rintro op (⟨-, hlt⟩ | ⟨-, heq⟩ | ⟨hop, -⟩)
    exacts [absurd hlt (by omega), absurd heq (by omega), hop]

theorem lt_of_nearest_lt {m n : Int} (h : nearest m < nearest n) : m < n := by
  by_contra hle
  exact absurd (nearest_mono (Int.not_lt.1 hle)) (Int.not_le.2 h)

/-- The rounding shows only where it makes two integers one. -/
theorem comparesAs_toInt_iff (a b : Int64) :
    ComparesAs a b a.toInt b.toInt ↔ a = b ∨ nearest a.toInt ≠ nearest b.toInt := by
  have rounded := compares_as_nearest a b
  constructor
  · intro exact
    by_cases hab : a.toInt = b.toInt
    · exact .inl (Int64.toInt_inj.1 hab)
    · -- one answer to `==`, read with the rounded integers and without
      have hequal := exact.equal.symm.trans rounded.equal
      rw [decide_eq_false hab] at hequal
      simp only [Except.ok.injEq, Value.bool.injEq] at hequal
      exact .inr (of_decide_eq_false hequal.symm)
  · rintro (rfl | hdistinct)
    · exact rounded.congr (by omega) (by omega)
    · have hless := @lt_of_nearest_lt a.toInt b.toInt
      have hgreater := @lt_of_nearest_lt b.toInt a.toInt
      exact rounded.congr (by omega) (by omega)

/-- No other integer is rounded to one of less than 53 digits. -/
theorem eq_of_nearest_eq {m n : Int} (hm : m.natAbs < 2 ^ 53) (h : nearest m = nearest n) :
    m = n := by
  rw [nearest_of_le (Nat.le_of_lt hm)] at h
  by_cases hn : n.natAbs ≤ 2 ^ 53
  · rw [h, nearest_of_le hn]
  · -- beyond, all are rounded to something of 54 digits
    have hlow : nearest (2 ^ 53) = 2 ^ 53 := nearest_of_le (by decide)
    have hneg : nearest (-2 ^ 53) = -2 ^ 53 := nearest_of_le (by decide)
    rcases Int.lt_or_lt_of_ne (show n ≠ 0 by omega) with hn0 | hn0
    · have := nearest_mono (show n ≤ -2 ^ 53 by omega)
      omega
    · have := nearest_mono (show 2 ^ 53 ≤ n by omega)
      omega

/-- What comparisons make of two integers. -/
structure Compared (a b : Int64) : Prop where
  /-- The floats that are compared are the nearest there are. -/
  nearest_left : IsNearest a.toInt (nearest a.toInt)
  nearest_right : IsNearest b.toInt (nearest b.toInt)
  rounded : ComparesAs a b (nearest a.toInt) (nearest b.toInt)
  trichotomy : ∃! op, op ∈ [BinaryOp.less, .equal, .greater] ∧
    op.apply (.number a) (.number b) = .ok (.bool true)
  less_sound : BinaryOp.less.apply (.number a) (.number b) = .ok (.bool true) →
    a.toInt < b.toInt
  greater_sound : BinaryOp.greater.apply (.number a) (.number b) = .ok (.bool true) →
    b.toInt < a.toInt
  exact_iff : ComparesAs a b a.toInt b.toInt ↔ a = b ∨ nearest a.toInt ≠ nearest b.toInt
  exact_of_short : a.toInt.natAbs < 2 ^ 53 ∨ b.toInt.natAbs < 2 ^ 53 →
    ComparesAs a b a.toInt b.toInt

/-- **Integers are compared by their nearest floats.**  These are nearest
among the integers of 53 digits.  The six operators answer as they compare, so
that exactly one of `<`, `==` and `>` holds, and one integer that is said to be
less or greater than another is.  All of the answers are the exact ones just if
the floats of different integers differ, as they do when one of the integers is
below `2 ^ 53`. -/
theorem integers_compare (a b : Int64) : Compared a b where
  nearest_left := nearest_isNearest _
  nearest_right := nearest_isNearest _
  rounded := compares_as_nearest a b
  trichotomy := (compares_as_nearest a b).existsUnique
  less_sound hless := by
    rw [(compares_as_nearest a b).less] at hless
    simp only [Except.ok.injEq, Value.bool.injEq, decide_eq_true_eq] at hless
    exact lt_of_nearest_lt hless
  greater_sound hgreater := by
    rw [(compares_as_nearest a b).greater] at hgreater
    simp only [Except.ok.injEq, Value.bool.injEq, decide_eq_true_eq] at hgreater
    exact lt_of_nearest_lt hgreater
  exact_iff := comparesAs_toInt_iff a b
  exact_of_short hshort := by
    rw [comparesAs_toInt_iff, Ne, ← Decidable.imp_iff_or_not]
    intro hnearest
    rcases hshort with ha | hb
    · exact Int64.toInt_inj.1 (eq_of_nearest_eq ha hnearest)
    · exact (Int64.toInt_inj.1 (eq_of_nearest_eq hb hnearest.symm)).symm

/-- One above `2 ^ 53`, the first two integers that are compared as one, and
the answers of an integer below it. -/
theorem neighbours_compare :
    ComparesAs 9007199254740993 9007199254740992 9007199254740992 9007199254740992
      ∧ ComparesAs 9007199254740993 9007199254740991 9007199254740993 9007199254740991 :=
  ⟨(integers_compare 9007199254740993 9007199254740992).rounded,
    (integers_compare 9007199254740993 9007199254740991).exact_of_short (.inr (by decide))⟩

/-- Two different integers that are said to be equal. -/
theorem neighbours_collapse :
    BinaryOp.equal.apply (.number 9007199254740993) (.number 9007199254740992)
        = .ok (.bool true)
      ∧ ¬ ∀ a b : Int64, ComparesAs a b a.toInt b.toInt := by
  have collapse : BinaryOp.equal.apply (.number 9007199254740993) (.number 9007199254740992)
      = .ok (.bool true) := (compares_as_nearest _ _).equal
  refine ⟨collapse, fun exact => ?_⟩
  have hequal := (exact 9007199254740993 9007199254740992).equal
  rw [collapse] at hequal
  exact nomatch hequal

end Phrasebook
