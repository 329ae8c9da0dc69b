import Mathlib.Data.Int.Log
import Mathlib.Data.Rat.Floor
import Mathlib.Tactic.Linarith
import Mathlib.Tactic.Positivity
import Mathlib.Tactic.FieldSimp

/-!
# Rounding to a Binary Format

Round-to-nearest, ties to even, of a non-negative rational to `p` significant
bits, with an unbounded exponent: what one operation of a binary floating-point
format does as long as it neither overflows nor leaves the normal numbers.
-/

namespace FloatRounding

/-! ## To an integer -/

/-- The nearest integer, the even one of two. -/
def roundEven (x : ℚ) : ℤ :=
  if x - ⌊x⌋ < 1 / 2 then ⌊x⌋
  else if 1 / 2 < x - ⌊x⌋ then ⌊x⌋ + 1
  else ⌊x⌋ + ⌊x⌋ % 2

@[simp] theorem roundEven_intCast (k : ℤ) : roundEven k = k := by
  simp [roundEven]

theorem floor_le_roundEven (x : ℚ) : ⌊x⌋ ≤ roundEven x := by
  unfold roundEven
  split_ifs <;> omega

theorem roundEven_le_floor_add_one (x : ℚ) : roundEven x ≤ ⌊x⌋ + 1 := by
  unfold roundEven
  split_ifs <;> omega

theorem roundEven_mono {x y : ℚ} (h : x ≤ y) : roundEven x ≤ roundEven y := by
  rcases (Int.floor_mono h).lt_or_eq with hlt | heq
  case inl =>
    -- a floor between them
    have hx := roundEven_le_floor_add_one x
    have hy := floor_le_roundEven y
    omega
  case inr =>
    -- in one unit interval the distances from its start decide
    unfold roundEven
    rw [heq]
    have hmod : ⌊y⌋ % 2 = 0 ∨ ⌊y⌋ % 2 = 1 := Int.emod_two_eq_zero_or_one _
    split_ifs <;> first | omega | linarith

theorem roundEven_zero : roundEven 0 = 0 := roundEven_intCast 0

theorem roundEven_nonneg {x : ℚ} (h : 0 ≤ x) : 0 ≤ roundEven x := by
  rw [← roundEven_zero]
  exact roundEven_mono h

/-! ## To `p` bits -/

/-- The place value of the last of `p` significant bits. -/
def quantum (p : ℕ) (x : ℚ) : ℚ := 2 ^ (Int.log 2 x + 1 - p)

/-- The nearest number with `p` significant bits. -/
def roundTo (p : ℕ) (x : ℚ) : ℚ := roundEven (x / quantum p x) * quantum p x

/-- A number that has `p` significant bits. -/
def Representable (p : ℕ) (x : ℚ) : Prop := ∃ (k : ℕ) (e : ℤ), k < 2 ^ p ∧ x = k * 2 ^ e

variable {p q : ℕ} {x y : ℚ}

theorem quantum_pos (p : ℕ) (x : ℚ) : 0 < quantum p x := zpow_pos two_pos _

@[simp] theorem roundTo_zero (p : ℕ) : roundTo p 0 = 0 := by
  rw [roundTo, zero_div, roundEven_zero, Int.cast_zero, zero_mul]

/-- A power of two that is not below the place value is a multiple of it. -/
theorem zpow_eq_mul_quantum {p : ℕ} {x : ℚ} {e : ℤ} {d : ℕ} (h : e = Int.log 2 x + 1 - p + d) :
    (2 : ℚ) ^ e = ((2 ^ d : ℕ) : ℤ) * quantum p x := by
  rw [quantum, h, zpow_add₀ two_ne_zero, mul_comm]
  push_cast
  rw [zpow_natCast]

theorem representable_natCast {n : ℕ} (h : n < 2 ^ p) : Representable p n :=
  ⟨n, 0, h, by simp⟩

theorem representable_two_zpow (hp : 0 < p) (e : ℤ) : Representable p (2 ^ e) :=
  ⟨1, e, Nat.one_lt_two_pow hp.ne', by simp⟩

/-- A product has at most the bits of both factors. -/
theorem Representable.mul (hx : Representable p x) (hy : Representable q y) :
    Representable (p + q) (x * y) := by
  obtain ⟨k, e, hk, rfl⟩ := hx
  obtain ⟨l, f, hl, rfl⟩ := hy
  refine ⟨k * l, e + f, ?_, ?_⟩
  · rw [pow_add]
    exact Nat.mul_lt_mul'' hk hl
  · rw [zpow_add₀ two_ne_zero]
    push_cast
    ring

theorem Representable.mono (h : Representable p x) (hpq : p ≤ q) : Representable q x := by
  obtain ⟨k, e, hk, rfl⟩ := h
  -- the same mantissa has more room
  exact ⟨k, e, hk.trans_le (Nat.pow_le_pow_right two_pos hpq), rfl⟩

/-- A multiple of the place value is rounded to itself. -/
theorem roundTo_of_eq_mul {k : ℤ} (h : x = k * quantum p x) : roundTo p x = x := by
  have hquot : x / quantum p x = k := by
    rw [div_eq_iff (quantum_pos p x).ne']
    exact h
  rw [roundTo, hquot, roundEven_intCast]
  exact h.symm

/-- **Representable numbers** are rounded to themselves. -/
theorem Representable.roundTo_eq (h : Representable p x) : roundTo p x = x := by
  obtain ⟨k, e, hk, hx⟩ := h
  rcases Nat.eq_zero_or_pos k with rfl | hpos
  case inl =>
    rw [hx, Nat.cast_zero, zero_mul, roundTo_zero]
  case inr =>
    have hscale : (0 : ℚ) < 2 ^ e := zpow_pos two_pos e
    have hxpos : 0 < x := by
      rw [hx]
      exact mul_pos (by exact_mod_cast hpos) hscale
    have hlt : x < 2 ^ (p + e) := by
      rw [hx, zpow_add₀ two_ne_zero, zpow_natCast]
      have hcast : (k : ℚ) < 2 ^ p := by exact_mod_cast hk
      exact mul_lt_mul_of_pos_right hcast hscale
    have hlog : Int.log 2 x < p + e := (Int.lt_zpow_iff_log_lt one_lt_two hxpos).mp
      (by exact_mod_cast hlt)
    -- the last bit of `k` is above the place value
    obtain ⟨d, hd⟩ : ∃ d : ℕ, e = (Int.log 2 x + 1 - p) + d :=
      ⟨(e - (Int.log 2 x + 1 - p)).toNat, by omega⟩
    apply @roundTo_of_eq_mul p x (k * ((2 ^ d : ℕ) : ℤ))
    rw [Int.cast_mul, mul_assoc, ← zpow_eq_mul_quantum hd, Int.cast_natCast]
    exact hx

/-- What is rounded stays below the next power of two, or reaches it. -/
theorem roundTo_le_zpow (p : ℕ) (x : ℚ) : roundTo p x ≤ 2 ^ (Int.log 2 x + 1) := by
  have hquantum := quantum_pos p x
  have hscale : (2 : ℚ) ^ (Int.log 2 x + 1) = ((2 ^ p : ℕ) : ℤ) * quantum p x :=
    zpow_eq_mul_quantum (by omega)
  have hlt : x < 2 ^ (Int.log 2 x + 1) := by
    exact_mod_cast Int.lt_zpow_succ_log_self one_lt_two x
  have hquot : x / quantum p x ≤ ((2 ^ p : ℕ) : ℤ) := by
    rw [div_le_iff₀ hquantum, ← hscale]
    exact hlt.le
  have hround := roundEven_mono hquot
  rw [roundEven_intCast] at hround
  rw [roundTo, hscale]
  exact mul_le_mul_of_nonneg_right (by exact_mod_cast hround) hquantum.le

/-- What is rounded stays above the power of two that is below it. -/
theorem zpow_le_roundTo (hp : 0 < p) (hx : 0 < x) : 2 ^ Int.log 2 x ≤ roundTo p x := by
  have hquantum := quantum_pos p x
  have hscale : (2 : ℚ) ^ Int.log 2 x = ((2 ^ (p - 1) : ℕ) : ℤ) * quantum p x :=
    zpow_eq_mul_quantum (by omega)
  have hle : (2 : ℚ) ^ Int.log 2 x ≤ x := by
    exact_mod_cast Int.zpow_log_le_self one_lt_two hx
  have hquot : ((2 ^ (p - 1) : ℕ) : ℤ) ≤ x / quantum p x := by
    rw [le_div_iff₀ hquantum, ← hscale]
    exact hle
  have hround := roundEven_mono hquot
  rw [roundEven_intCast] at hround
  rw [roundTo, hscale]
  exact mul_le_mul_of_nonneg_right (by exact_mod_cast hround) hquantum.le

theorem roundTo_nonneg (hx : 0 ≤ x) : 0 ≤ roundTo p x := by
  have hround := roundEven_nonneg (div_nonneg hx (quantum_pos p x).le)
  exact mul_nonneg (by exact_mod_cast hround) (quantum_pos p x).le

/-- **Rounding is monotone.** -/
theorem roundTo_mono (hp : 0 < p) (hx : 0 ≤ x) (h : x ≤ y) : roundTo p x ≤ roundTo p y := by
  rcases hx.eq_or_lt with rfl | hpos
  case inl =>
    rw [roundTo_zero]
    exact roundTo_nonneg h
  case inr =>
    have hlog : Int.log 2 x ≤ Int.log 2 y := Int.log_mono_right hpos h
    rcases hlog.eq_or_lt with heq | hlt
    case inl =>
      have hquantum : quantum p x = quantum p y := by rw [quantum, quantum, heq]
      rw [roundTo, roundTo, hquantum]
      have hquot : x / quantum p y ≤ y / quantum p y :=
        div_le_div_of_nonneg_right h (quantum_pos p y).le
      exact mul_le_mul_of_nonneg_right (by exact_mod_cast roundEven_mono hquot)
        (quantum_pos p y).le
    case inr =>
      -- a power of two lies between them
      have hbetween : (2 : ℚ) ^ (Int.log 2 x + 1) ≤ 2 ^ Int.log 2 y :=
        zpow_le_zpow_right₀ one_le_two (by omega)
      exact (roundTo_le_zpow p x).trans (hbetween.trans (zpow_le_roundTo hp (hpos.trans_le h)))

/-- **The result is representable.** -/
theorem representable_roundTo (hp : 0 < p) (hx : 0 ≤ x) : Representable p (roundTo p x) := by
  rcases hx.eq_or_lt with rfl | hpos
  case inl =>
    rw [roundTo_zero]
    exact ⟨0, 0, by positivity, by simp⟩
  case inr =>
    rcases (roundTo_le_zpow p x).eq_or_lt with heq | hlt
    -- rounded up to the next power of two
    case inl =>
      rw [heq]
      exact representable_two_zpow hp _
    case inr =>
      have hround := roundEven_nonneg (div_nonneg hx (quantum_pos p x).le)
      obtain ⟨k, hk⟩ := Int.eq_ofNat_of_zero_le hround
      refine ⟨k, Int.log 2 x + 1 - p, ?_, ?_⟩
      · have hscale : (2 : ℚ) ^ (Int.log 2 x + 1) = ((2 ^ p : ℕ) : ℤ) * quantum p x :=
          zpow_eq_mul_quantum (by omega)
        rw [roundTo, hk, hscale] at hlt
        have hcast := lt_of_mul_lt_mul_right hlt (quantum_pos p x).le
        exact_mod_cast hcast
      · rw [roundTo, hk]
        rfl

/-- An integer is rounded to an integer. -/
theorem exists_roundTo_natCast (p n : ℕ) : ∃ m : ℕ, roundTo p n = m := by
  rcases Nat.lt_or_ge n (2 ^ p) with hlt | hge
  case inl => exact ⟨n, (representable_natCast hlt).roundTo_eq⟩
  case inr =>
    have hpos : (0 : ℚ) < n := by exact_mod_cast (Nat.two_pow_pos p).trans_le hge
    -- from `2 ^ p` on the place value is an integer
    have hlog : (p : ℤ) ≤ Int.log 2 (n : ℚ) := by
      apply (Int.zpow_le_iff_le_log one_lt_two hpos).mp
      rw [zpow_natCast]
      exact_mod_cast hge
    obtain ⟨d, hd⟩ : ∃ d : ℕ, Int.log 2 (n : ℚ) + 1 - p = d :=
      ⟨(Int.log 2 (n : ℚ) + 1 - p).toNat, by omega⟩
    have hround := roundEven_nonneg (div_nonneg hpos.le (quantum_pos p (n : ℚ)).le)
    obtain ⟨k, hk⟩ := Int.eq_ofNat_of_zero_le hround
    refine ⟨k * 2 ^ d, ?_⟩
    rw [roundTo, hk, quantum, hd, zpow_natCast]
    push_cast
    rfl

/-- The integers with `p` significant bits. -/
theorem representable_natCast_iff {n : ℕ} :
    Representable p (n : ℚ) ↔ ∃ m < 2 ^ p, ∃ e : ℕ, n = m * 2 ^ e := by
  constructor
  · rintro ⟨k, e, hk, hn⟩
    rcases e with e | e
    · refine ⟨k, hk, e, ?_⟩
      rw [Int.ofNat_eq_natCast, zpow_natCast] at hn
      exact_mod_cast hn
    · -- a fraction of a significand is below it
      refine ⟨n, ?_, 0, by rw [pow_zero, mul_one]⟩
      rw [zpow_negSucc, ← div_eq_mul_inv, eq_div_iff (by positivity)] at hn
      have hmul : n * 2 ^ (e + 1) = k := by exact_mod_cast hn
      calc n ≤ n * 2 ^ (e + 1) := Nat.le_mul_of_pos_right _ (Nat.two_pow_pos _)
        _ = k := hmul
        _ < 2 ^ p := hk
  · rintro ⟨m, hm, e, rfl⟩
    refine ⟨m, e, hm, ?_⟩
    rw [zpow_natCast]
    push_cast
    rfl

/-- The integers that rounding leaves alone. -/
theorem roundTo_natCast_eq_iff (hp : 0 < p) {n : ℕ} :
    roundTo p (n : ℚ) = n ↔ ∃ m < 2 ^ p, ∃ e : ℕ, n = m * 2 ^ e := by
  rw [← representable_natCast_iff]
  constructor
  · intro heq
    rw [← heq]
    exact representable_roundTo hp (Nat.cast_nonneg n)
  · exact fun h => h.roundTo_eq

/-! ## Quotients -/

/-- **A quotient of small numbers** is rounded without passing a whole number. -/
theorem roundTo_div_le_iff {p a b : ℕ} (hb : 0 < b) (ha : 2 * a ≤ 2 ^ p) (hp : 0 < p) (c : ℕ) :
    roundTo p ((a : ℚ) / b) ≤ c ↔ a ≤ c * b := by
  have hb' : (0 : ℚ) < b := Nat.cast_pos.mpr hb
  have hq : (0 : ℚ) ≤ (a : ℚ) / b := by positivity
  have hpow : 0 < 2 ^ p := Nat.two_pow_pos p
  constructor
  · intro hle
    by_contra hless
    rw [not_le] at hless
    -- between `c` and the quotient there is a number that is not rounded
    obtain ⟨k, hk, hk'⟩ : ∃ k, b ≤ 2 ^ k ∧ 2 ^ k < 2 * b := by
      refine ⟨Nat.clog 2 b, Nat.le_pow_clog (by norm_num) b, ?_⟩
      rcases Nat.lt_or_ge 1 b with hlt | hone
      · have hpred := Nat.pow_pred_clog_lt_self (b := 2) (by norm_num) hlt
        have hpos : 0 < Nat.clog 2 b := Nat.clog_pos (by norm_num) hlt
        obtain ⟨j, hj⟩ := Nat.exists_eq_add_of_lt hpos
        rw [Nat.zero_add] at hj
        rw [hj] at hpred ⊢
        rw [Nat.pred_succ] at hpred
        rw [Nat.pow_succ]
        omega
      · obtain rfl : b = 1 := by omega
        simp
    have hrep : Representable p ((c * 2 ^ k + 1 : ℕ) * (2 : ℚ) ^ (-(k : ℤ))) := by
      refine ⟨c * 2 ^ k + 1, -(k : ℤ), ?_, rfl⟩
      have hmul : c * 2 ^ k ≤ c * (2 * b) := Nat.mul_le_mul_left c hk'.le
      have hcomm : c * (2 * b) = 2 * (c * b) := by ring
      omega
    have hk0 : (0 : ℚ) < 2 ^ k := by positivity
    have hval : ((c * 2 ^ k + 1 : ℕ) : ℚ) * (2 : ℚ) ^ (-(k : ℤ)) = c + 1 / 2 ^ k := by
      rw [zpow_neg, zpow_natCast]
      push_cast
      field_simp
    have hbelow : (c : ℚ) + 1 / 2 ^ k ≤ (a : ℚ) / b := by
      have hone : (1 : ℚ) / 2 ^ k ≤ 1 / b := one_div_le_one_div_of_le hb' (by exact_mod_cast hk)
      have hnext : (c : ℚ) * b + 1 ≤ a := by exact_mod_cast hless
      calc (c : ℚ) + 1 / 2 ^ k ≤ c + 1 / b := by linarith
        _ = (c * b + 1) / b := by field_simp
        _ ≤ a / b := div_le_div_of_nonneg_right hnext hb'.le
    have hmono := roundTo_mono hp (by positivity) hbelow
    rw [← hval, hrep.roundTo_eq, hval] at hmono
    have hpos : (0 : ℚ) < 1 / 2 ^ k := by positivity
    linarith
  · intro hle
    have hmin : (a : ℚ) / b ≤ (min c a : ℕ) := by
      rw [div_le_iff₀ hb']
      have hnat : a ≤ min c a * b := by
        rcases Nat.le_total c a with hca | hac
        · rwa [Nat.min_eq_left hca]
        · rw [Nat.min_eq_right hac]
          exact Nat.le_mul_of_pos_right a hb
      exact_mod_cast hnat
    have hsmall : min c a < 2 ^ p := lt_of_le_of_lt (Nat.min_le_right c a) (by omega)
    calc roundTo p ((a : ℚ) / b) ≤ roundTo p (min c a : ℕ) := roundTo_mono hp hq hmin
      _ = (min c a : ℕ) := (representable_natCast hsmall).roundTo_eq
      _ ≤ c := by exact_mod_cast Nat.min_le_left c a

/-! ## Unsigned words -/

/-- `(float)x` of an unsigned word. -/
def toFloat (x : UInt64) : ℚ := roundTo 24 x.toNat

theorem toFloat_nonneg (x : UInt64) : 0 ≤ toFloat x := roundTo_nonneg (Nat.cast_nonneg _)

theorem toFloat_mono {x y : UInt64} (h : x ≤ y) : toFloat x ≤ toFloat y := by
  apply roundTo_mono (by decide) (Nat.cast_nonneg _)
  exact_mod_cast UInt64.le_iff_toNat_le.mp h

end FloatRounding
