/-
  Phrasebook.Proofs.Number.Nearest
  ────────────────────────────────
  **INTEGERS OF 53 BINARY DIGITS.**

  A float has 53 binary digits.  Of a longer integer it keeps the nearest one
  that has no more digits than that in front of its zeros:

      roundedShift     —  an integer without its last digits, rounded
      nearest          —  the nearest integer of 53 digits; of two that are
                          equally near, the one with an even last digit
      nearest_closest  —  no integer of 53 digits is nearer
      nearest_mono     —  no two integers change their order
      nearest_of_le    —  up to 2 ^ 53 every integer is kept
-/
import Mathlib.Tactic.Ring

namespace Phrasebook

/-! ## §1. Dropping digits. -/

/-- The integer without its last `k` binary digits, rounded; half way it goes
to the even neighbour. -/
def roundedShift (n k : Nat) : Nat :=
  if 2 * (n % 2 ^ k) < 2 ^ k ∨ 2 * (n % 2 ^ k) = 2 ^ k ∧ n / 2 ^ k % 2 = 0 then n / 2 ^ k
  else n / 2 ^ k + 1

theorem roundedShift_zero (n : Nat) : roundedShift n 0 = n := by
  simp [roundedShift, Nat.mod_one]

theorem le_roundedShift (n k : Nat) : n / 2 ^ k ≤ roundedShift n k := by
  unfold roundedShift
  split <;> omega

theorem roundedShift_le (n k : Nat) : roundedShift n k ≤ n / 2 ^ k + 1 := by
  unfold roundedShift
  split <;> omega

/-- Zeros at the end make no difference if they are dropped too. -/
theorem roundedShift_mul_two_pow (n k j : Nat) :
    roundedShift (n * 2 ^ j) (k + j) = roundedShift n k := by
  have hpos : 0 < 2 ^ j := Nat.two_pow_pos j
  have hdiv : n * 2 ^ j / 2 ^ (k + j) = n / 2 ^ k := by
    rw [Nat.pow_add]
    exact Nat.mul_div_mul_right _ _ hpos
  have hmod : n * 2 ^ j % 2 ^ (k + j) = n % 2 ^ k * 2 ^ j := by
    rw [Nat.pow_add]
    exact Nat.mul_mod_mul_right _ _ _
  have hless : 2 * (n % 2 ^ k * 2 ^ j) < 2 ^ (k + j) ↔ 2 * (n % 2 ^ k) < 2 ^ k := by
    rw [Nat.pow_add, ← Nat.mul_assoc]
    exact Nat.mul_lt_mul_right hpos
  have hhalf : 2 * (n % 2 ^ k * 2 ^ j) = 2 ^ (k + j) ↔ 2 * (n % 2 ^ k) = 2 ^ k := by
    rw [Nat.pow_add, ← Nat.mul_assoc]
    exact Nat.mul_left_inj (Nat.ne_of_gt hpos)
  unfold roundedShift
  rw [hdiv, hmod]
  simp only [hless, hhalf]

theorem roundedShift_mono {m n : Nat} (k : Nat) (h : m ≤ n) :
    roundedShift m k ≤ roundedShift n k := by
  have hdiv : m / 2 ^ k ≤ n / 2 ^ k := Nat.div_le_div_right h
  rcases Nat.eq_or_lt_of_le hdiv with heq | hlt
  · -- with the same leading digits, the dropped ones decide
    have hm := Nat.div_add_mod m (2 ^ k)
    have hn := Nat.div_add_mod n (2 ^ k)
    rw [heq] at hm
    have hmod : m % 2 ^ k ≤ n % 2 ^ k := by omega
    unfold roundedShift
    rw [heq]
    split <;> split <;> omega
  · exact Nat.le_trans (roundedShift_le m k) (Nat.le_trans hlt (le_roundedShift n k))

/-- No multiple of `2 ^ k` is nearer than the rounded one. -/
theorem roundedShift_closest (n k x : Nat) :
    ((n : Int) - (roundedShift n k * 2 ^ k : Nat)).natAbs
      ≤ ((n : Int) - (x * 2 ^ k : Nat)).natAbs := by
  have hn := Nat.div_add_mod n (2 ^ k)
  rw [Nat.mul_comm] at hn
  have hmod : n % 2 ^ k < 2 ^ k := Nat.mod_lt _ (Nat.two_pow_pos k)
  have hsucc : (n / 2 ^ k + 1) * 2 ^ k = n / 2 ^ k * 2 ^ k + 2 ^ k := Nat.succ_mul _ _
  -- the other multiple lies on one side of the integer
  have hside : x * 2 ^ k ≤ n / 2 ^ k * 2 ^ k ∨ (n / 2 ^ k + 1) * 2 ^ k ≤ x * 2 ^ k := by
    rcases Nat.lt_or_ge (n / 2 ^ k) x with hx | hx
    · exact .inr (Nat.mul_le_mul_right _ hx)
    · exact .inl (Nat.mul_le_mul_right _ hx)
  unfold roundedShift
  split <;> omega

/-! ## §2. The nearest integer of 53 digits. -/

/-- How many digits of an integer stand behind the first 53. -/
def dropped (n : Nat) : Nat :=
  n.log2 - 52

/-- The nearest natural number of 53 digits. -/
def nearestNat (n : Nat) : Nat :=
  roundedShift n (dropped n) * 2 ^ dropped n

theorem dropped_eq_zero {n : Nat} (h : n < 2 ^ 53) : dropped n = 0 := by
  rcases Nat.eq_zero_or_pos n with rfl | hpos
  · rfl
  · have hlog := (Nat.log2_lt (Nat.ne_of_gt hpos)).2 h
    unfold dropped
    omega

/-- The first 53 digits of an integer that has as many. -/
theorem dropped_bounds {n : Nat} (h : 2 ^ 52 ≤ n) :
    2 ^ 52 * 2 ^ dropped n ≤ n ∧ n < 2 ^ 53 * 2 ^ dropped n := by
  have hne : n ≠ 0 := by omega
  have hlog : 52 ≤ n.log2 := (Nat.le_log2 hne).2 h
  have hlow : 52 + dropped n = n.log2 := by
    unfold dropped
    omega
  have hhigh : 53 + dropped n = n.log2 + 1 := by omega
  rw [← Nat.pow_add, ← Nat.pow_add, hlow, hhigh]
  exact ⟨Nat.log2_self_le hne, Nat.lt_log2_self⟩

theorem roundedShift_bounds {n : Nat} (h : 2 ^ 52 ≤ n) :
    2 ^ 52 ≤ roundedShift n (dropped n) ∧ roundedShift n (dropped n) ≤ 2 ^ 53 := by
  obtain ⟨hlow, hhigh⟩ := dropped_bounds h
  have hpos := Nat.two_pow_pos (dropped n)
  have hfirst : 2 ^ 52 ≤ n / 2 ^ dropped n := (Nat.le_div_iff_mul_le hpos).2 hlow
  have hlast : n / 2 ^ dropped n < 2 ^ 53 := (Nat.div_lt_iff_lt_mul hpos).2 hhigh
  exact ⟨Nat.le_trans hfirst (le_roundedShift _ _), Nat.le_trans (roundedShift_le _ _) hlast⟩

theorem nearestNat_of_lt {n : Nat} (h : n < 2 ^ 53) : nearestNat n = n := by
  unfold nearestNat
  rw [dropped_eq_zero h, roundedShift_zero, Nat.pow_zero, Nat.mul_one]

theorem dropped_mul_two_pow {n : Nat} (h : 2 ^ 52 ≤ n) (j : Nat) :
    dropped (n * 2 ^ j) = dropped n + j := by
  have hne : n ≠ 0 := by omega
  have hlog : 52 ≤ n.log2 := (Nat.le_log2 hne).2 h
  have hscaled : (n * 2 ^ j).log2 = n.log2 + j := by
    refine (Nat.log2_eq_iff (Nat.mul_ne_zero hne (Nat.ne_of_gt (Nat.two_pow_pos j)))).2 ⟨?_, ?_⟩
    · rw [Nat.pow_add]
      exact Nat.mul_le_mul_right _ (Nat.log2_self_le hne)
    · rw [Nat.add_right_comm, Nat.pow_add]
      exact Nat.mul_lt_mul_of_pos_right Nat.lt_log2_self (Nat.two_pow_pos j)
  unfold dropped
  omega

/-- Zeros at the end are no digits. -/
theorem nearestNat_mul_two_pow {n : Nat} (h : 2 ^ 52 ≤ n) (j : Nat) :
    nearestNat (n * 2 ^ j) = nearestNat n * 2 ^ j := by
  unfold nearestNat
  rw [dropped_mul_two_pow h, roundedShift_mul_two_pow, Nat.pow_add, Nat.mul_assoc]

theorem dropped_mono {m n : Nat} (h : m ≤ n) : dropped m ≤ dropped n := by
  rcases Nat.eq_zero_or_pos m with rfl | hpos
  · exact Nat.zero_le _
  · have hne : m ≠ 0 := Nat.ne_of_gt hpos
    have hlog : m.log2 ≤ n.log2 :=
      (Nat.le_log2 (by omega)).2 (Nat.le_trans (Nat.log2_self_le hne) h)
    exact Nat.sub_le_sub_right hlog 52

theorem nearestNat_le (n : Nat) : nearestNat n ≤ 2 ^ 53 * 2 ^ dropped n := by
  refine Nat.mul_le_mul_right _ ?_
  rcases Nat.lt_or_ge n (2 ^ 53) with h | h
  · rw [dropped_eq_zero h, roundedShift_zero]
    exact Nat.le_of_lt h
  · exact (roundedShift_bounds (by omega)).2

theorem nearestNat_mono {m n : Nat} (h : m ≤ n) : nearestNat m ≤ nearestNat n := by
  rcases Nat.eq_or_lt_of_le (dropped_mono h) with heq | hlt
  · unfold nearestNat
    rw [heq]
    exact Nat.mul_le_mul_right _ (roundedShift_mono _ h)
  · -- a power of two with 53 digits lies between them
    have hlong : 2 ^ 52 ≤ n := by
      rcases Nat.lt_or_ge n (2 ^ 53) with hn | hn
      · rw [dropped_eq_zero hn] at hlt
        exact absurd hlt (Nat.not_lt_zero _)
      · omega
    calc nearestNat m ≤ 2 ^ 53 * 2 ^ dropped m := nearestNat_le m
      _ = 2 ^ 52 * 2 ^ (dropped m + 1) := by ring
      _ ≤ 2 ^ 52 * 2 ^ dropped n :=
        Nat.mul_le_mul_left _ (Nat.pow_le_pow_right (by decide) hlt)
      _ ≤ nearestNat n := Nat.mul_le_mul_right _ (roundedShift_bounds hlong).1

/-- No natural number of 53 digits is nearer. -/
theorem nearestNat_closest (n : Nat) {c : Nat} (hc : c ≤ 2 ^ 53) (j : Nat) :
    ((n : Int) - nearestNat n).natAbs ≤ ((n : Int) - (c * 2 ^ j : Nat)).natAbs := by
  rcases Nat.lt_or_ge n (2 ^ 53) with hn | hn
  · rw [nearestNat_of_lt hn, Int.sub_self]
    exact Nat.zero_le _
  · have hlow := (dropped_bounds (n := n) (by omega)).1
    rcases Nat.lt_or_ge j (dropped n) with hj | hj
    · -- too short: the least number with as many digits as `n` is nearer
      have hshort : c * 2 ^ j ≤ 2 ^ 52 * 2 ^ dropped n := by
        calc c * 2 ^ j ≤ 2 ^ 53 * 2 ^ j := Nat.mul_le_mul_right _ hc
          _ = 2 ^ 52 * 2 ^ (j + 1) := by ring
          _ ≤ 2 ^ 52 * 2 ^ dropped n :=
            Nat.mul_le_mul_left _ (Nat.pow_le_pow_right (by decide) hj)
      have hclosest := roundedShift_closest n (dropped n) (2 ^ 52)
      unfold nearestNat
      omega
    · -- a multiple of the last digit that is kept
      have hsplit : c * 2 ^ j = c * 2 ^ (j - dropped n) * 2 ^ dropped n := by
        rw [Nat.mul_assoc, ← Nat.pow_add, Nat.sub_add_cancel hj]
      rw [hsplit]
      exact roundedShift_closest n (dropped n) _

/-! ## §3. With a sign. -/

/-- The nearest integer of 53 digits. -/
def nearest (n : Int) : Int :=
  n.sign * nearestNat n.natAbs

theorem nearest_natCast (n : Nat) : nearest n = nearestNat n := by
  unfold nearest
  rcases Nat.eq_zero_or_pos n with rfl | hpos
  · rfl
  · rw [Int.sign_eq_one_of_pos (Int.natCast_pos.2 hpos), Int.natAbs_natCast, Int.one_mul]

theorem nearest_neg (n : Int) : nearest (-n) = -nearest n := by
  unfold nearest
  rw [Int.sign_neg, Int.natAbs_neg, Int.neg_mul]

theorem nearest_of_nonneg {n : Int} (h : 0 ≤ n) : nearest n = nearestNat n.natAbs := by
  obtain ⟨m, rfl⟩ := Int.eq_ofNat_of_zero_le h
  rw [Int.natAbs_natCast]
  exact nearest_natCast m

theorem nearest_of_nonpos {n : Int} (h : n ≤ 0) : nearest n = -nearestNat n.natAbs := by
  have hneg : nearest (-n) = nearestNat (-n).natAbs := nearest_of_nonneg (by omega)
  rw [nearest_neg, Int.natAbs_neg] at hneg
  omega

/-- Up to `2 ^ 53` every integer is kept. -/
theorem nearest_of_le {n : Int} (h : n.natAbs ≤ 2 ^ 53) : nearest n = n := by
  have hkept : nearestNat n.natAbs = n.natAbs := by
    rcases Nat.eq_or_lt_of_le h with heq | hlt
    · rw [heq]
      decide
    · exact nearestNat_of_lt hlt
  unfold nearest
  rw [hkept]
  exact Int.sign_mul_natAbs n

theorem nearest_mono {m n : Int} (h : m ≤ n) : nearest m ≤ nearest n := by
  rcases Int.le_total 0 m with hm | hm
  · rw [nearest_of_nonneg hm, nearest_of_nonneg (Int.le_trans hm h)]
    exact Int.ofNat_le.2 (nearestNat_mono (by omega))
  · rcases Int.le_total 0 n with hn | hn
    · rw [nearest_of_nonpos hm, nearest_of_nonneg hn]
      omega
    · rw [nearest_of_nonpos hm, nearest_of_nonpos hn]
      exact Int.neg_le_neg (Int.ofNat_le.2 (nearestNat_mono (by omega)))

theorem nearest_eq_zero_iff {n : Int} : nearest n = 0 ↔ n = 0 := by
  constructor
  · intro h
    -- between an integer and zero lies 1 or -1, which is kept
    rcases Int.lt_trichotomy n 0 with hneg | hzero | hpos
    · have hone : nearest n ≤ nearest (-1) := nearest_mono (by omega)
      rw [h, nearest_of_le (n := -1) (by decide)] at hone
      omega
    · exact hzero
    · have hone : nearest 1 ≤ nearest n := nearest_mono (by omega)
      rw [h, nearest_of_le (n := 1) (by decide)] at hone
      omega
  · rintro rfl
    rfl

/-- An integer of 53 digits, with zeros behind them. -/
def IsShort (x : Int) : Prop :=
  ∃ (c : Int) (j : Nat), c.natAbs ≤ 2 ^ 53 ∧ x = c * 2 ^ j

theorem nearest_isShort (n : Int) : IsShort (nearest n) := by
  refine ⟨n.sign * roundedShift n.natAbs (dropped n.natAbs), dropped n.natAbs, ?_, ?_⟩
  · have hle : roundedShift n.natAbs (dropped n.natAbs) ≤ 2 ^ 53 :=
      Nat.le_of_mul_le_mul_right (nearestNat_le n.natAbs) (Nat.two_pow_pos _)
    rw [Int.natAbs_mul, Int.natAbs_natCast, Int.natAbs_sign]
    split <;> omega
  · unfold nearest nearestNat
    push_cast
    ring

theorem nearest_closest (n : Int) {x : Int} (hx : IsShort x) :
    (n - nearest n).natAbs ≤ (n - x).natAbs := by
  obtain ⟨c, j, hc, rfl⟩ := hx
  have hsize : (c * 2 ^ j : Int).natAbs = c.natAbs * 2 ^ j := by
    rw [Int.natAbs_mul, Int.natAbs_pow]
    rfl
  have hclosest := nearestNat_closest n.natAbs hc j
  rw [← hsize] at hclosest
  -- the distance between the sizes is the least there is
  rcases Int.le_total 0 n with hn | hn
  · rw [nearest_of_nonneg hn]
    omega
  · rw [nearest_of_nonpos hn]
    omega

/-- Among the integers of 53 digits, none is nearer. -/
def IsNearest (n x : Int) : Prop :=
  IsShort x ∧ ∀ y, IsShort y → (n - x).natAbs ≤ (n - y).natAbs

theorem nearest_isNearest (n : Int) : IsNearest n (nearest n) :=
  ⟨nearest_isShort n, fun _ hy => nearest_closest n hy⟩

end Phrasebook
