import Mlx5Netperf.Lib.ByteOrder
import Mathlib.Data.Nat.ModEq
import Mathlib.Algebra.BigOperators.Group.List.Basic

/-!
# One's Complement Sums

The 16-bit one's complement sum that internet checksums are made of. Its carry
goes back in at the low end, so the sum is the plain sum modulo `2 ^ 16 - 1`,
with the two representations of zero told apart by whether anything was added.
-/

namespace OnesComplement

open ByteOrder

/-- Add two words and put the carry back in. -/
def add (a b : ℕ) : ℕ := (a + b) % 65536 + (a + b) / 65536

/-- The one's complement sum of a list of words. -/
def sum (ws : List ℕ) : ℕ := ws.foldl add 0

/-- The 16-bit words of a byte string in network order; an odd last byte is padded. -/
def words : List UInt8 → List ℕ
  | a :: b :: rest => (256 * a.toNat + b.toNat) :: words rest
  | [a] => [256 * a.toNat]
  | [] => []

@[simp] theorem words_nil : words [] = [] := rfl

@[simp] theorem words_cons_cons (a b : UInt8) (rest : List UInt8) :
    words (a :: b :: rest) = (256 * a.toNat + b.toNat) :: words rest := rfl

theorem words_lt (bs : List UInt8) : ∀ w ∈ words bs, w < 65536 := by
  induction bs using words.induct with
  | case1 a b rest ih =>
    intro w hw
    have ha := a.toNat_lt
    have hb := b.toNat_lt
    rcases List.mem_cons.mp hw with rfl | hrest
    · omega
    · exact ih w hrest
  | case2 a =>
    intro w hw
    have ha := a.toNat_lt
    obtain rfl := List.mem_singleton.mp hw
    omega
  | case3 => simp

/-- Words of whole pieces are the words of the pieces. -/
theorem words_append {bs cs : List UInt8} (heven : 2 ∣ bs.length) :
    words (bs ++ cs) = words bs ++ words cs := by
  induction bs using words.induct with
  | case1 a b rest ih =>
    have hrest : 2 ∣ rest.length := by
      simp only [List.length_cons] at heven
      omega
    simp only [List.cons_append, words_cons_cons, ih hrest]
  | case2 a => simp at heven
  | case3 => rfl

/-! ## Carries -/

theorem add_lt {a b : ℕ} (ha : a < 65536) (hb : b < 65536) : add a b < 65536 := by
  unfold add
  omega

theorem add_modEq (a b : ℕ) : add a b ≡ a + b [MOD 65535] := by
  unfold add Nat.ModEq
  -- a carry is worth 65536, which is one modulo 65535
  omega

theorem add_eq_zero_iff {a b : ℕ} : add a b = 0 ↔ a = 0 ∧ b = 0 := by
  unfold add
  omega

/-- **The sum so far** is a word, is right modulo `2 ^ 16 - 1`, and is zero only
while nothing but zeros was added. -/
theorem foldl_add {ws : List ℕ} (hws : ∀ w ∈ ws, w < 65536) {acc : ℕ} (hacc : acc < 65536) :
    ws.foldl add acc < 65536 ∧ ws.foldl add acc ≡ acc + ws.sum [MOD 65535] ∧
      (ws.foldl add acc = 0 ↔ acc + ws.sum = 0) := by
  induction ws generalizing acc with
  | nil => exact ⟨hacc, Nat.ModEq.refl _, by simp⟩
  | cons w ws ih =>
    rw [List.forall_mem_cons] at hws
    obtain ⟨hlt, hmod, hzero⟩ := ih hws.2 (add_lt hacc hws.1)
    refine ⟨hlt, ?_, ?_⟩
    · calc (w :: ws).foldl add acc
          ≡ add acc w + ws.sum [MOD 65535] := hmod
        _ ≡ acc + w + ws.sum [MOD 65535] := (add_modEq acc w).add_right _
        _ = acc + (w :: ws).sum := by rw [List.sum_cons, Nat.add_assoc]
    -- a carry keeps a sum away from zero
    · have hfirst := @add_eq_zero_iff acc w
      rw [List.foldl_cons, hzero, List.sum_cons]
      omega

/-- **The test of a receiver**: all bits of the sum are set exactly when the
plain sum is a multiple of `2 ^ 16 - 1`, and not zero. -/
theorem sum_eq_allOnes_iff {ws : List ℕ} (hws : ∀ w ∈ ws, w < 65536) :
    sum ws = 65535 ↔ 65535 ∣ ws.sum ∧ ws.sum ≠ 0 := by
  obtain ⟨hlt, hmod, hzero⟩ := @foldl_add ws hws 0 (by decide)
  rw [Nat.zero_add] at hmod hzero
  have hdvd := hmod.dvd_iff (dvd_refl 65535)
  unfold sum
  constructor
  · intro hones
    rw [hones] at hdvd hzero
    exact ⟨hdvd.mp (dvd_refl _), fun hsum => absurd (hzero.mpr hsum) (by decide)⟩
  · rintro ⟨hsum, hne⟩
    -- a positive multiple of 65535 below 65536
    obtain ⟨k, hk⟩ := hdvd.mpr hsum
    have hpos : ws.foldl add 0 ≠ 0 := fun h => hne (hzero.mp h)
    omega

/-! ## Byte order -/

/-- The bytes of a word the other way round. -/
theorem swap_eq {w : ℕ} (hw : w < 65536) : swap 2 w = 256 * (w % 256) + w / 256 := by
  simp only [swap, beBytes, leBytes, List.reverse_cons, List.reverse_nil, List.nil_append,
    List.singleton_append, leValue, UInt8.toNat_ofNat']
  omega

/-- Swapping the bytes of a word multiplies it by 256. -/
theorem swap_modEq {w : ℕ} (hw : w < 65536) : swap 2 w ≡ 256 * w [MOD 65535] := by
  rw [swap_eq hw]
  unfold Nat.ModEq
  omega

/-- **Summing in the other byte order** multiplies the sum by 256, and keeps zero. -/
theorem sum_map_swap {ws : List ℕ} (hws : ∀ w ∈ ws, w < 65536) :
    (ws.map (swap 2)).sum ≡ 256 * ws.sum [MOD 65535] ∧
      ((ws.map (swap 2)).sum = 0 ↔ ws.sum = 0) := by
  induction ws with
  | nil => exact ⟨Nat.ModEq.refl _, by simp⟩
  | cons w ws ih =>
    rw [List.forall_mem_cons] at hws
    obtain ⟨hmod, hzero⟩ := ih hws.2
    rw [List.map_cons, List.sum_cons, List.sum_cons, Nat.mul_add]
    refine ⟨(swap_modEq hws.1).add hmod, ?_⟩
    -- no byte gets lost
    have hfirst : swap 2 w = 0 ↔ w = 0 := by
      rw [swap_eq hws.1]
      omega
    omega

end OnesComplement
