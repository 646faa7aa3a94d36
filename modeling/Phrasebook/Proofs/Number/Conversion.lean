/-
  Phrasebook.Proofs.Number.Conversion
  ────────────────────────────────
  **INTEGERS AS FLOATS.**

  The float of an integer of 64 bits is the nearest integer of 53 digits, and
  floats that are integers are compared like these.  Both are read off the
  model of floats: a sign, a mantissa and an exponent.

      exists_round   —  how a mantissa of 53 digits or more is rounded
      Stands         —  the float is an integer
      stands_ofInt   —  which integer the float of an integer is
      Stands.compare —  how such floats are compared
      ofInt_beq_ofInt, ofInt_lt_ofInt, ofInt_le_ofInt
                     —  both together
-/
import Phrasebook.Proofs.Number.Nearest

namespace Phrasebook

open Float.Model Float.Model.UnpackedFloat

/-! ## §1. Rounding a mantissa. -/

/-- What is left of a mantissa behind which nothing stood: its leading digits,
whether the others are half of the last digit or more, and whether they are
neither nothing nor exactly half. -/
def shiftedMantissa (m k : Nat) : ExtendedMantissa where
  mantissa := m / 2 ^ k
  roundBit := decide (2 ^ k ≤ 2 * (m % 2 ^ k))
  stickyBit := decide (2 * (m % 2 ^ k) ≠ 0 ∧ 2 * (m % 2 ^ k) ≠ 2 ^ k)

theorem shiftRightOne_shiftedMantissa (m k : Nat) :
    (shiftedMantissa m k).shiftRightOne = shiftedMantissa m (k + 1) := by
  have hpos : 0 < 2 ^ k := Nat.two_pow_pos k
  have hmod : m % 2 ^ k < 2 ^ k := Nat.mod_lt _ hpos
  have hlonger : m % 2 ^ (k + 1) = m % 2 ^ k + 2 ^ k * (m / 2 ^ k % 2) := by
    rw [Nat.pow_succ, Nat.mod_mul]
  have hpow : 2 ^ (k + 1) = 2 * 2 ^ k := Nat.pow_succ'
  unfold shiftedMantissa ExtendedMantissa.shiftRightOne
  rw [hlonger, hpow]
  rcases Nat.mod_two_eq_zero_or_one (m / 2 ^ k) with hbit | hbit
  all_goals
    simp only [hbit, ExtendedMantissa.mk.injEq, Nat.mul_zero, Nat.mul_one, Nat.add_zero]
    refine ⟨?_, ?_, ?_⟩
    · rw [Nat.mul_comm, Nat.div_div_eq_div_mul]
    · rw [Bool.eq_iff_iff]
      simp only [bne_iff_ne, decide_eq_true_eq]
      omega
    · rw [Bool.eq_iff_iff]
      simp only [Bool.or_eq_true, decide_eq_true_eq]
      omega

theorem shiftRight_eq (m k : Nat) :
    (⟨m, false, false⟩ : ExtendedMantissa) >>> k = shiftedMantissa m k := by
  show Nat.repeat ExtendedMantissa.shiftRightOne k _ = _
  induction k with
  | zero => simp [Nat.repeat, shiftedMantissa, Nat.mod_one]
  | succ k ih => rw [Nat.repeat, ih, shiftRightOne_shiftedMantissa]

theorem roundedMantissa_below (q : Nat) (sticky : Bool) :
    (ExtendedMantissa.mk q false sticky).roundedMantissa = q := by
  cases sticky <;> rfl

theorem roundedMantissa_shiftedMantissa (m k : Nat) :
    (shiftedMantissa m k).roundedMantissa = roundedShift m k := by
  have hparity := Nat.mod_two_eq_zero_or_one (m / 2 ^ k)
  unfold shiftedMantissa roundedShift
  rcases Nat.lt_trichotomy (2 * (m % 2 ^ k)) (2 ^ k) with hless | hhalf | hmore
  · have hround : ¬ 2 ^ k ≤ 2 * (m % 2 ^ k) := Nat.not_le_of_lt hless
    rw [decide_eq_false hround, roundedMantissa_below, if_pos (.inl hless)]
  · -- half way, the last digit that is kept decides
    have hsticky : ¬ (2 * (m % 2 ^ k) ≠ 0 ∧ 2 * (m % 2 ^ k) ≠ 2 ^ k) := fun h => h.2 hhalf
    rw [decide_eq_true (Nat.le_of_eq hhalf.symm), decide_eq_false hsticky]
    show m / 2 ^ k + m / 2 ^ k % 2 = _
    rcases hparity with heven | hodd
    · rw [if_pos (.inr ⟨hhalf, heven⟩), heven]
      rfl
    · rw [if_neg (by omega), hodd]
  · have hsticky : 2 * (m % 2 ^ k) ≠ 0 ∧ 2 * (m % 2 ^ k) ≠ 2 ^ k := by omega
    rw [decide_eq_true (Nat.le_of_lt hmore), decide_eq_true hsticky, if_neg (by omega)]
    rfl

/-- The exponent at which a mantissa keeps 53 digits. -/
theorem shiftToTargetExponent_eq {m : Nat} (hm : 2 ^ 52 ≤ m) {e : Int} (he : -1074 ≤ e) :
    shiftToTargetExponent .binary64 m e .exact
      = (shiftedMantissa m (dropped m), e + dropped m) := by
  have hlog : 52 ≤ m.log2 := (Nat.le_log2 (by omega)).2 hm
  have htarget : (Format.binary64.targetExponent (totalExponent m e) - e).toNat = dropped m := by
    show (max ((m.log2 : Int) + 1 + e - 53) (-1074) - e).toNat = dropped m
    unfold dropped
    omega
  unfold shiftToTargetExponent shiftToExponent
  dsimp only
  rw [htarget]
  exact congrArg (·, e + (dropped m : Int)) (shiftRight_eq m (dropped m))

/-- A mantissa of 53 digits or more is rounded to 53 digits, and what is
dropped goes into the exponent. -/
theorem exists_round (s : Sign) {m : Nat} (hm : 2 ^ 52 ≤ m) {e : Int} (he : -1074 ≤ e) :
    ∃ (r j : Nat) (hr : 0 < r), roundWithAccuracy .binary64 s m e .exact = .finite s r (e + j) hr
      ∧ 2 ^ 52 ≤ r ∧ r < 2 ^ 53 ∧ r * 2 ^ j = nearestNat m := by
  obtain ⟨hlow, hhigh⟩ := roundedShift_bounds hm
  set rounded := roundedShift m (dropped m) with hrounded
  -- rounding up may give one digit too many, which is a zero
  have hzero : rounded / 2 ^ dropped rounded * 2 ^ dropped rounded = rounded := by
    rcases Nat.eq_or_lt_of_le hhigh with heq | hlt
    · rw [heq]
      decide
    · rw [dropped_eq_zero hlt, Nat.pow_zero, Nat.div_one, Nat.mul_one]
  obtain ⟨hfirst, hlast⟩ := dropped_bounds hlow
  have hpos := Nat.two_pow_pos (dropped rounded)
  have hmin : 2 ^ 52 ≤ rounded / 2 ^ dropped rounded := (Nat.le_div_iff_mul_le hpos).2 hfirst
  have hmax : rounded / 2 ^ dropped rounded < 2 ^ 53 := (Nat.div_lt_iff_lt_mul hpos).2 hlast
  refine ⟨rounded / 2 ^ dropped rounded, dropped m + dropped rounded, by omega, ?_, hmin, hmax, ?_⟩
  · unfold roundWithAccuracy
    rw [shiftToTargetExponent_eq hm he]
    dsimp only
    rw [roundedMantissa_shiftedMantissa, ← hrounded,
      shiftToTargetExponent_eq hlow (by omega : -1074 ≤ e + (dropped m : Int))]
    have hne : (shiftedMantissa rounded (dropped rounded)).mantissa ≠ 0 := by
      show rounded / 2 ^ dropped rounded ≠ 0
      omega
    rw [dif_neg hne, UnpackedFloat.finite.injEq]
    refine ⟨rfl, rfl, ?_⟩
    omega
  · rw [Nat.pow_add, Nat.mul_left_comm, hzero, Nat.mul_comm]
    rfl

/-! ## §2. Packing. -/

theorem unpackSign_packComponents (s : Sign) (exponent : BitVec 11) (mantissa : BitVec 52) :
    Sign.ofBitVec (unpackSign (packComponents .binary64 s exponent mantissa)) = s := by
  unfold unpackSign packComponents BitVec.extractLsb
  rw [BitVec.extractLsb'_append_eq_of_le (by decide),
    BitVec.extractLsb'_append_eq_of_le (by decide)]
  cases s <;> rfl

/-- A mantissa of 53 digits is packed without its first digit, and gets it
back. -/
theorem unpack_pack_finite (s : Sign) {m : Nat} (hm : 0 < m) (hlow : 2 ^ 52 ≤ m)
    (hhigh : m < 2 ^ 53) {e : Int} (hmin : -1074 ≤ e) (hmax : e ≤ 971) :
    UnpackedFloat.unpack .binary64 (UnpackedFloat.pack .binary64 (.finite s m e hm))
      = .finite s m e hm := by
  have hlog : m.log2 + 1 = 53 := by
    have heq : m.log2 = 52 := (Nat.log2_eq_iff (by omega)).2 ⟨hlow, hhigh⟩
    omega
  obtain ⟨biased, hbiased⟩ : ∃ b : Nat, e = b - 1075 := ⟨(e + 1075).toNat, by omega⟩
  have hexponent : (BitVec.ofNat 11 biased).toNat = biased := by
    rw [BitVec.toNat_ofNat]
    omega
  have hpack : UnpackedFloat.pack .binary64 (.finite s m e hm)
      = packComponents .binary64 s (BitVec.ofNat 11 biased) (BitVec.ofNat 52 m) := by
    have hnat : (e + (1023 : Nat) + (52 : Nat)).toNat = biased := by omega
    show (if 2 ^ 11 ≤ (e + (1023 : Nat) + (52 : Nat)).toNat + 1 then _
      else if m.log2 + 1 = 53 then packComponents .binary64 s
        (BitVec.ofNat 11 (e + (1023 : Nat) + (52 : Nat)).toNat) (BitVec.ofNat 52 m) else _) = _
    rw [if_neg (by omega), if_pos hlog, hnat]
  have hones : BitVec.ofNat 11 biased ≠ -1#11 := by
    intro h
    have h' := congrArg BitVec.toNat h
    rw [hexponent] at h'
    exact absurd h' (by rw [show (-1#11 : BitVec 11).toNat = 2047 from rfl]; omega)
  have hzeros : BitVec.ofNat 11 biased ≠ 0#11 := by
    intro h
    have h' := congrArg BitVec.toNat h
    rw [hexponent] at h'
    exact absurd h' (by rw [show (0#11 : BitVec 11).toNat = 0 from rfl]; omega)
  have hmantissa : (1#1 ++ BitVec.ofNat 52 m).toNat = m := by
    rw [BitVec.toNat_append, ← Nat.shiftLeft_add_eq_or_of_lt (BitVec.ofNat 52 m).isLt,
      BitVec.toNat_ofNat]
    show 1 <<< 52 + m % 2 ^ 52 = m
    omega
  rw [hpack]
  unfold UnpackedFloat.unpack
  rw [unpackExponent_packComponents, if_neg hones, if_neg hzeros, UnpackedFloat.finite.injEq,
    unpackSign_packComponents, unpackMantissa_packComponents]
  refine ⟨rfl, hmantissa, ?_⟩
  rw [hexponent, hbiased]
  show (biased : Int) - ((1023 : Nat) + (52 : Nat)) = biased - 1075
  omega

/-! ## §3. Floats that are integers. -/

/-- The float is the integer: zero, or a mantissa of 53 digits whose exponent
is given in front of 53 more. -/
inductive Stands : UnpackedFloat → Int → Prop where
  | zero (s : Sign) : Stands (.zero s) 0
  | finite (s : Sign) {m j n : Nat} (hm : 0 < m) (hlow : 2 ^ 52 ≤ m) (hhigh : m < 2 ^ 53)
      (hj : j ≤ 1024) (hn : m * 2 ^ j = n * 2 ^ 53) :
      Stands (.finite s m ((j : Int) - 53) hm) (s.apply n)

namespace Stands

variable {u v : UnpackedFloat} {x y : Int}

theorem unpack_pack (h : Stands u x) : (Float.Model.pack u).unpack = u := by
  cases h with
  | zero s => cases s <;> rfl
  | finite s hm hlow hhigh hj _ =>
    exact unpack_pack_finite s hm hlow hhigh (by omega) (by omega)

theorem neg (h : Stands u x) : Stands u.neg (-x) := by
  cases h with
  | zero s => exact .zero (-s)
  | @finite s m j n hm hlow hhigh hj hn =>
    have hneg : -s.apply n = (-s).apply n := by
      cases s
      · exact Int.neg_neg _
      · rfl
    rw [hneg]
    exact .finite (-s) hm hlow hhigh hj hn

end Stands

/-- The longer exponent decides between mantissas of 53 digits. -/
theorem lt_of_exponent_lt {m m' j j' n n' : Nat} (hhigh : m < 2 ^ 53) (hlow : 2 ^ 52 ≤ m')
    (hn : m * 2 ^ j = n * 2 ^ 53) (hn' : m' * 2 ^ j' = n' * 2 ^ 53) (h : j < j') : n < n' := by
  refine Nat.lt_of_mul_lt_mul_right (a := 2 ^ 53) ?_
  rw [← hn, ← hn']
  calc m * 2 ^ j < 2 ^ 53 * 2 ^ j := Nat.mul_lt_mul_of_pos_right hhigh (Nat.two_pow_pos j)
    _ = 2 ^ 52 * 2 ^ (j + 1) := by ring
    _ ≤ 2 ^ 52 * 2 ^ j' := Nat.mul_le_mul_left _ (Nat.pow_le_pow_right (by decide) h)
    _ ≤ m' * 2 ^ j' := Nat.mul_le_mul_right _ hlow

/-- Exponents first, mantissas second: so are the integers compared. -/
theorem compare_mantissas {m m' j j' n n' : Nat} (hlow : 2 ^ 52 ≤ m) (hhigh : m < 2 ^ 53)
    (hlow' : 2 ^ 52 ≤ m') (hhigh' : m' < 2 ^ 53) (hn : m * 2 ^ j = n * 2 ^ 53)
    (hn' : m' * 2 ^ j' = n' * 2 ^ 53) :
    (compare ((j : Int) - 53) ((j' : Int) - 53)).then (compare m m') = compare (n : Int) n' := by
  rcases Nat.lt_trichotomy j j' with h | rfl | h
  · have hlt := lt_of_exponent_lt hhigh hlow' hn hn' h
    rw [Int.compare_eq_lt.2 (by omega), Int.compare_eq_lt.2 (by omega)]
    rfl
  · have hpos : 0 < 2 ^ j := Nat.two_pow_pos j
    have hlt : m < m' ↔ n < n' := by
      rw [← Nat.mul_lt_mul_right hpos, hn, hn', Nat.mul_lt_mul_right (by decide)]
    have hgt : m' < m ↔ n' < n := by
      rw [← Nat.mul_lt_mul_right hpos, hn, hn', Nat.mul_lt_mul_right (by decide)]
    rw [Int.compare_eq_eq.2 rfl]
    show compare m m' = compare (n : Int) n'
    rcases Nat.lt_trichotomy n n' with h | h | h
    · rw [Nat.compare_eq_lt.2 (hlt.2 h), Int.compare_eq_lt.2 (by omega)]
    · rw [Nat.compare_eq_eq.2 (by omega), Int.compare_eq_eq.2 (by omega)]
    · rw [Nat.compare_eq_gt.2 (hgt.2 h), Int.compare_eq_gt.2 (by omega)]
  · have hlt := lt_of_exponent_lt hhigh' hlow hn' hn h
    rw [Int.compare_eq_gt.2 (by omega), Int.compare_eq_gt.2 (by omega)]
    rfl

theorem pos_of_mantissa {m j n : Nat} (hm : 0 < m) (hn : m * 2 ^ j = n * 2 ^ 53) : 0 < n := by
  have hpos : 0 < m * 2 ^ j := Nat.mul_pos hm (Nat.two_pow_pos j)
  rw [hn] at hpos
  exact Nat.pos_of_mul_pos_right hpos

theorem negative_apply_lt {n : Nat} (h : 0 < n) : Sign.negative.apply n < 0 :=
  Int.neg_neg_of_pos (Int.natCast_pos.2 h)

theorem lt_positive_apply {n : Nat} (h : 0 < n) : 0 < Sign.positive.apply n :=
  Int.natCast_pos.2 h

/-- Floats that are integers are compared like these. -/
theorem Stands.compare {u v : UnpackedFloat} {x y : Int} (hu : Stands u x) (hv : Stands v y) :
    UnpackedFloat.compare u v = some (Ord.compare x y) := by
  cases hu with
  | zero s =>
    cases hv with
    | zero t => rfl
    | @finite t m j n hm _ _ _ hn =>
      have hpos := pos_of_mantissa hm hn
      cases t with
      | negative => exact congrArg some (Int.compare_eq_gt.2 (negative_apply_lt hpos)).symm
      | positive => exact congrArg some (Int.compare_eq_lt.2 (lt_positive_apply hpos)).symm
  | @finite s m j n hm hlow hhigh _ hn =>
    have hpos := pos_of_mantissa hm hn
    cases hv with
    | zero t =>
      cases s with
      | negative => exact congrArg some (Int.compare_eq_lt.2 (negative_apply_lt hpos)).symm
      | positive => exact congrArg some (Int.compare_eq_gt.2 (lt_positive_apply hpos)).symm
    | @finite t m' j' n' hm' hlow' hhigh' _ hn' =>
      have hpos' := pos_of_mantissa hm' hn'
      have hsame := compare_mantissas hlow hhigh hlow' hhigh' hn hn'
      cases s <;> cases t
      · -- of two negative numbers the one with the larger mantissa is less
        show some (Ordering.swap _) = some (Ord.compare (-(n : Int)) (-(n' : Int)))
        rw [hsame, Int.compare_swap]
        rcases Nat.lt_trichotomy n n' with h | h | h
        · rw [Int.compare_eq_gt.2 (by omega), Int.compare_eq_gt.2 (by omega)]
        · rw [Int.compare_eq_eq.2 (by omega), Int.compare_eq_eq.2 (by omega)]
        · rw [Int.compare_eq_lt.2 (by omega), Int.compare_eq_lt.2 (by omega)]
      · have hless := Int.lt_trans (negative_apply_lt hpos) (lt_positive_apply hpos')
        exact congrArg some (Int.compare_eq_lt.2 hless).symm
      · have hgreater := Int.lt_trans (negative_apply_lt hpos') (lt_positive_apply hpos)
        exact congrArg some (Int.compare_eq_gt.2 hgreater).symm
      · exact congrArg some hsame

/-! ## §4. The float of an integer. -/

/-- A mantissa that is rounded to so many units of `2 ^ t`, with `-t` as its
exponent. -/
theorem stands_round (s : Sign) {m t n : Nat} (hm : 2 ^ 52 ≤ m) (ht : t ≤ 1074)
    (hn : nearestNat m = n * 2 ^ t) (hpos : 0 < n) (hmax : n ≤ 2 ^ 64) {e : Int} (he : e = -t) :
    Stands (roundWithAccuracy .binary64 s m e .exact) (s.apply n) := by
  obtain ⟨r, j, hr, hround, hlow, hhigh, hvalue⟩ := exists_round s hm (e := e) (by omega)
  rw [hn] at hvalue
  -- the exponent is in the range of integers
  have hj : t ≤ j + 53 := by
    refine Nat.le_of_lt ((Nat.pow_lt_pow_iff_right (a := 2) (by decide)).1 ?_)
    calc 2 ^ t ≤ n * 2 ^ t := Nat.le_mul_of_pos_left _ hpos
      _ = r * 2 ^ j := hvalue.symm
      _ < 2 ^ 53 * 2 ^ j := Nat.mul_lt_mul_of_pos_right hhigh (Nat.two_pow_pos j)
      _ = 2 ^ (j + 53) := by ring
  have hunits : r * 2 ^ (j + 53 - t) = n * 2 ^ 53 := by
    refine Nat.eq_of_mul_eq_mul_right (Nat.two_pow_pos t) ?_
    calc r * 2 ^ (j + 53 - t) * 2 ^ t = r * 2 ^ j * 2 ^ 53 := by
          rw [Nat.mul_assoc, ← Nat.pow_add, Nat.sub_add_cancel hj, Nat.pow_add, Nat.mul_assoc]
      _ = n * 2 ^ 53 * 2 ^ t := by
          rw [hvalue]
          ring
  have hshort : j + 53 - t ≤ 65 := by
    refine (Nat.pow_le_pow_iff_right (a := 2) (by decide)).1 ?_
    refine Nat.le_of_mul_le_mul_left (c := 2 ^ 52) ?_ (by decide)
    calc 2 ^ 52 * 2 ^ (j + 53 - t) ≤ r * 2 ^ (j + 53 - t) := Nat.mul_le_mul_right _ hlow
      _ = n * 2 ^ 53 := hunits
      _ ≤ 2 ^ 64 * 2 ^ 53 := Nat.mul_le_mul_right _ hmax
      _ = 2 ^ 52 * 2 ^ 65 := by decide
  have hexponent : e + (j : Int) = ((j + 53 - t : Nat) : Int) - 53 := by omega
  have hfinite : UnpackedFloat.finite s r (e + j) hr
      = .finite s r (((j + 53 - t : Nat) : Int) - 53) hr := by
    rw [UnpackedFloat.finite.injEq]
    exact ⟨rfl, rfl, hexponent⟩
  rw [hround, hfinite]
  exact .finite s hr hlow hhigh (by omega) hunits

/-- A natural number of 53 digits has a mantissa of its own. -/
theorem stands_ofNat_short {n : Nat} (h : n < 2 ^ 53) :
    Stands (UnpackedFloat.ofNat .binary64 n) n := by
  rcases Nat.eq_zero_or_pos n with rfl | hpos
  · exact .zero .positive
  · have hne : n ≠ 0 := Nat.ne_of_gt hpos
    have hlog : n.log2 < 53 := (Nat.log2_lt hne).2 h
    have hsum : n.log2 + (52 - n.log2) = 52 := by omega
    have hlow : 2 ^ 52 ≤ n * 2 ^ (52 - n.log2) := by
      calc 2 ^ 52 = 2 ^ n.log2 * 2 ^ (52 - n.log2) := by rw [← Nat.pow_add, hsum]
        _ ≤ n * 2 ^ (52 - n.log2) := Nat.mul_le_mul_right _ (Nat.log2_self_le hne)
    have hhigh : n * 2 ^ (52 - n.log2) < 2 ^ 53 := by
      calc n * 2 ^ (52 - n.log2) < 2 ^ (n.log2 + 1) * 2 ^ (52 - n.log2) :=
            Nat.mul_lt_mul_of_pos_right Nat.lt_log2_self (Nat.two_pow_pos _)
        _ = 2 ^ 53 := by rw [← Nat.pow_add, Nat.add_right_comm, hsum]
    have htarget : (0 - Format.binary64.targetExponent (totalExponent n 0)).toNat
        = 52 - n.log2 := by
      show (0 - max ((n.log2 : Int) + 1 + 0 - 53) (-1074)).toNat = _
      omega
    have hround : UnpackedFloat.ofNat .binary64 n = roundWithAccuracy .binary64 .positive
        (n * 2 ^ (52 - n.log2)) (0 - (52 - n.log2 : Nat)) .exact := by
      obtain ⟨k, rfl⟩ := Nat.exists_eq_succ_of_ne_zero hne
      show roundWithAccuracy .binary64 .positive
        ((k + 1) <<< (0 - Format.binary64.targetExponent (totalExponent (k + 1) 0)).toNat)
        (0 - ((0 - Format.binary64.targetExponent (totalExponent (k + 1) 0)).toNat : Int))
        .exact = _
      rw [htarget, Nat.shiftLeft_eq]
    rw [hround]
    exact stands_round .positive hlow (by omega) (nearestNat_of_lt hhigh) hpos (by omega) (by omega)

/-- The float one. -/
theorem unpack_one :
    (Float.Model.ofBits 0x3FF0000000000000).unpack
      = .finite .positive (2 ^ 52) (-52) (by decide) := rfl

/-- An integer of 53 digits is not changed by one. -/
theorem Stands.mul_one {u : UnpackedFloat} {n : Nat} (h : Stands u n) (hn : n < 2 ^ 53) :
    Stands (UnpackedFloat.mul .binary64 u (.finite .positive (2 ^ 52) (-52) (by decide))) n := by
  generalize hx : (n : Int) = x at h
  cases h with
  | zero s => exact .zero _
  | @finite s m j k hm hlow hhigh _ hunits =>
    have hpos := pos_of_mantissa hm hunits
    cases s with
    | negative =>
      simp only [Sign.apply] at hx
      omega
    | positive =>
      obtain rfl : n = k := Int.ofNat.inj hx
      have hj : j ≤ 54 := by
        refine Nat.le_of_lt ((Nat.pow_lt_pow_iff_right (a := 2) (by decide)).1 ?_)
        refine Nat.lt_of_mul_lt_mul_left (a := 2 ^ 52) ?_
        calc 2 ^ 52 * 2 ^ j ≤ m * 2 ^ j := Nat.mul_le_mul_right _ hlow
          _ = n * 2 ^ 53 := hunits
          _ < 2 ^ 53 * 2 ^ 53 := Nat.mul_lt_mul_of_pos_right hn (by decide)
          _ = 2 ^ 52 * 2 ^ 54 := by decide
      have hproduct : nearestNat (m * 2 ^ 52) = n * 2 ^ (105 - j) := by
        rw [nearestNat_mul_two_pow hlow, nearestNat_of_lt hhigh]
        refine Nat.eq_of_mul_eq_mul_right (Nat.two_pow_pos j) ?_
        calc m * 2 ^ 52 * 2 ^ j = m * 2 ^ j * 2 ^ 52 := by ring
          _ = n * 2 ^ (105 - j) * 2 ^ j := by
            rw [hunits, Nat.mul_assoc, Nat.mul_assoc, ← Nat.pow_add, ← Nat.pow_add,
              Nat.sub_add_cancel (by omega)]
      have hlong : 2 ^ 52 ≤ m * 2 ^ 52 := Nat.le_mul_of_pos_left _ hm
      exact stands_round .positive hlong (by omega) hproduct hpos (by omega) (by omega)

/-- The float of a natural number is the nearest one of 53 digits. -/
theorem stands_ofNat {n : Nat} (h : n < 2 ^ 64) :
    Stands (Float.ofNat n).toModel.unpack (nearestNat n) := by
  rcases Nat.lt_or_ge n (2 ^ 53) with hshort | hlong
  · rw [nearestNat_of_lt hshort]
    have hword : n.toUInt64.toNat = n := by
      show n % 2 ^ 64 = n
      omega
    have hofNat := stands_ofNat_short hshort
    have hunpack : (Float.ofNat n).toModel.unpack = (Float.Model.pack (UnpackedFloat.mul .binary64
        (Float.Model.pack (UnpackedFloat.ofNat .binary64 n)).unpack
        (Float.Model.ofBits 0x3FF0000000000000).unpack)).unpack := by
      show (Float.ofScientific n false 0).toModel.unpack = _
      unfold Float.ofScientific
      rw [dif_pos ⟨hshort, by decide⟩, if_neg Bool.false_ne_true]
      show (Float.Model.pack (UnpackedFloat.mul .binary64
        (Float.Model.pack (UnpackedFloat.ofNat .binary64 n.toUInt64.toNat)).unpack _)).unpack = _
      rw [hword]
      rfl
    have hproduct := hofNat.mul_one hshort
    rw [hunpack, hofNat.unpack_pack, unpack_one, hproduct.unpack_pack]
    exact hproduct
  · have hne : n ≠ 0 := by omega
    have hlow : 2 ^ 52 ≤ n * 2 ^ 53 := by omega
    have hvalue : nearestNat (n * 2 ^ 53) = nearestNat n * 2 ^ 53 :=
      nearestNat_mul_two_pow (by omega) 53
    have hmin : 0 < nearestNat n := by
      have hmono : nearestNat 1 ≤ nearestNat n := nearestNat_mono (by omega)
      rwa [nearestNat_of_lt (n := 1) (by decide)] at hmono
    have hmax : nearestNat n ≤ 2 ^ 64 := nearestNat_mono (Nat.le_of_lt h)
    have hround := stands_round .positive hlow (by decide) hvalue hmin hmax (e := -53) rfl
    have hunpack : (Float.ofNat n).toModel.unpack = (Float.Model.pack
        (roundWithAccuracy .binary64 .positive (n * 2 ^ 53) (-53) .exact)).unpack := by
      show (Float.ofScientific n false 0).toModel.unpack = _
      unfold Float.ofScientific
      rw [dif_neg (by omega)]
      show (Float.Model.pack (UnpackedFloat.ofScientific .binary64 n 0)).unpack = _
      unfold UnpackedFloat.ofScientific
      have hlarge : ¬ (0 : Int) > 2 ^ Format.binary64.exponentBits := by decide
      have hsmall : ¬ (0 : Int) < -((2 ^ Format.binary64.exponentBits : Int) + n.log2) := by
        show ¬ (0 : Int) < -((2048 : Int) + n.log2)
        omega
      rw [dif_neg hne, if_neg hlarge, if_neg hsmall, if_pos (Int.le_refl 0)]
      show (Float.Model.pack
        (roundWithAccuracy .binary64 .positive (n <<< 53 * 1) (-53) .exact)).unpack = _
      rw [Nat.mul_one, Nat.shiftLeft_eq]
    rw [hunpack, hround.unpack_pack]
    exact hround

/-- The float of an integer is the nearest one of 53 digits. -/
theorem stands_ofInt {x : Int} (h : x.natAbs < 2 ^ 64) :
    Stands (Float.ofInt x).toModel.unpack (nearest x) := by
  cases x with
  | ofNat n =>
    rw [show nearest (Int.ofNat n) = nearestNat n from nearest_natCast n]
    exact stands_ofNat h
  | negSucc n =>
    have hneg := (stands_ofNat (n := n + 1) h).neg
    have hunpack : (Float.ofInt (Int.negSucc n)).toModel.unpack
        = (Float.Model.pack (Float.ofNat (n + 1)).toModel.unpack.neg).unpack := rfl
    rw [hunpack, hneg.unpack_pack, Int.negSucc_eq, nearest_neg]
    rw [show nearest ((n : Int) + 1) = nearestNat (n + 1) from nearest_natCast (n + 1)]
    exact hneg

/-! ## §5. Comparing the floats of integers. -/

section

variable (a b : Int64)

theorem natAbs_toInt_lt (a : Int64) : a.toInt.natAbs < 2 ^ 64 := by
  have hmin := a.le_toInt
  have hmax := a.toInt_lt
  omega

theorem compare_ofInt :
    UnpackedFloat.compare (Float.ofInt a.toInt).toModel.unpack (Float.ofInt b.toInt).toModel.unpack
      = some (compare (nearest a.toInt) (nearest b.toInt)) :=
  (stands_ofInt (natAbs_toInt_lt a)).compare (stands_ofInt (natAbs_toInt_lt b))

theorem ofInt_beq_ofInt :
    (Float.ofInt a.toInt == Float.ofInt b.toInt) = decide (nearest a.toInt = nearest b.toInt) := by
  show (UnpackedFloat.compare _ _ == some Ordering.eq) = _
  rw [compare_ofInt, Bool.eq_iff_iff, decide_eq_true_eq, ← Int.compare_eq_eq, beq_iff_eq,
    Option.some_inj]

theorem ofInt_lt_ofInt :
    Float.ofInt a.toInt < Float.ofInt b.toInt ↔ nearest a.toInt < nearest b.toInt := by
  show decide ((UnpackedFloat.compare _ _ == some Ordering.lt) = true) = true ↔ _
  rw [compare_ofInt, decide_eq_true_eq, beq_iff_eq, Option.some_inj, Int.compare_eq_lt]

theorem ofInt_le_ofInt :
    Float.ofInt a.toInt ≤ Float.ofInt b.toInt ↔ nearest a.toInt ≤ nearest b.toInt := by
  show decide ((UnpackedFloat.compare _ _).any Ordering.isLE = true) = true ↔ _
  rw [compare_ofInt, decide_eq_true_eq, Option.any_some, Int.isLE_compare]

end

end Phrasebook
