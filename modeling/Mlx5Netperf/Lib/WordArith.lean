import Mathlib.Algebra.Order.Ring.Nat
import Mathlib.Data.Nat.ModEq
import Mathlib.Tactic.Ring

/-!
# Machine-Word Arithmetic

Free-running counters of a fixed width, power-of-two masks, and unsigned
64-bit sizes kept as natural numbers.

A counter that only ever increases is followed by an unbounded position; the
machine word holds that position modulo the word size. The lemmas here move
between the two views, so that a proof can reason about positions and mention
the word only where the program does.
-/

namespace WordArith

/-! ## Masks -/

/-- Masking with `2 ^ k - 1` is reduction modulo `2 ^ k`. -/
theorem toNat_and_sub_one {x w : UInt32} {k : ℕ} (hw : w.toNat = 2 ^ k) :
    (x &&& (w - 1)).toNat = x.toNat % w.toNat := by
  -- the subtraction does not wrap, a power of two is not zero
  have hone : (1 : UInt32) ≤ w := by
    rw [UInt32.le_iff_toNat_le, hw]
    exact Nat.one_le_two_pow
  rw [UInt32.toNat_and, UInt32.toNat_sub_of_le _ _ hone, hw]
  exact Nat.and_two_pow_sub_one_eq_mod _ _

/-- A power of two that fits in 16 bits divides `2 ^ 16`. -/
theorem dvd_two_pow_of_le {n k m : ℕ} (hn : n = 2 ^ k) (hk : k ≤ m) : n ∣ 2 ^ m :=
  hn ▸ pow_dvd_pow 2 hk

/-! ## Counters -/

/-- Reducing a counter value modulo a divisor of the word size forgets the wrap. -/
theorem toNat_ofNat_mod {p n : ℕ} (hn : n ∣ 2 ^ 32) : (UInt32.ofNat p).toNat % n = p % n := by
  rw [UInt32.toNat_ofNat']
  exact Nat.mod_mod_of_dvd p hn

/-- The low 16 bits of a counter, modulo a divisor of `2 ^ 16`. -/
theorem toNat_toUInt16_mod {x : UInt32} {n : ℕ} (hn : n ∣ 2 ^ 16) :
    x.toUInt16.toNat % n = x.toNat % n := by
  rw [UInt32.toNat_toUInt16]
  exact Nat.mod_mod_of_dvd _ hn

/-- The distance of two counters is the distance of their positions. -/
theorem ofNat_add_sub (p d : ℕ) : UInt32.ofNat (p + d) - UInt32.ofNat p = UInt32.ofNat d := by
  rw [UInt32.ofNat_add]
  grind

/-- A distance that fits in the word is read off exactly. -/
theorem toNat_ofNat_of_lt {d : ℕ} (hd : d < 2 ^ 32) : (UInt32.ofNat d).toNat = d := by
  rw [UInt32.toNat_ofNat']
  exact Nat.mod_eq_of_lt hd

/-- Adding a small number to a counter advances its position. -/
theorem ofNat_add_toUInt32 (p : ℕ) (x : UInt32) :
    UInt32.ofNat p + x = UInt32.ofNat (p + x.toNat) := by
  rw [UInt32.ofNat_add, UInt32.ofNat_toNat]

/-- The free space of a ring of `w` slots of which `d` are used. -/
theorem toNat_sub_ofNat {w : UInt32} {d : ℕ} (hd : d ≤ w.toNat) :
    (w - UInt32.ofNat d).toNat = w.toNat - d := by
  -- what is used fits in the word
  have hlt : d < 2 ^ 32 := lt_of_le_of_lt hd w.toNat_lt
  have hle : UInt32.ofNat d ≤ w := by
    rw [UInt32.le_iff_toNat_le, toNat_ofNat_of_lt hlt]
    exact hd
  rw [UInt32.toNat_sub_of_le _ _ hle, toNat_ofNat_of_lt hlt]

/-! ## Sizes -/

/-- `a - b` on a 64-bit unsigned size: it wraps below zero. -/
def sizeSub (a b : ℕ) : ℕ := (a + (2 ^ 64 - b % 2 ^ 64)) % 2 ^ 64

/-- `a + b` on a 64-bit unsigned size or pointer. -/
def sizeAdd (a b : ℕ) : ℕ := (a + b) % 2 ^ 64

theorem sizeSub_of_le {a b : ℕ} (hle : b ≤ a) (ha : a < 2 ^ 64) : sizeSub a b = a - b := by
  unfold sizeSub
  omega

theorem sizeAdd_of_lt {a b : ℕ} (h : a + b < 2 ^ 64) : sizeAdd a b = a + b :=
  Nat.mod_eq_of_lt h

/-- A size that is not zero is positive. -/
theorem toNat_pos {x : UInt64} (h : x ≠ 0) : 0 < x.toNat :=
  UInt64.lt_iff_toNat_lt.mp (UInt64.pos_iff_ne_zero.mpr h)

end WordArith
