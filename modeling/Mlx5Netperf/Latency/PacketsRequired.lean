import Mathlib.Algebra.Order.BigOperators.Group.Finset
import Mathlib.Data.Fintype.BigOperators
import Mlx5Netperf.Lib.FloatRounding

/-!
# The Packets of a Request

`calculate_total_packets_required` divides in doubles and rounds up. The result is the
least number of packets that a request fits into, and the function says where it has none.
-/

namespace Mlx5Netperf

open FloatRounding

/-! ## The calculation -/

/-- `MAX_SEGMENT_SIZE` -/
def maxSegmentSize : UInt32 := 8192

/-- `(int)(ceil((double)a / (double)b))`, where an `int` has room for it. -/
def ceilQuotient (a b : UInt32) : Option Int32 :=
  let rounded := ⌈roundTo 53 ((a.toNat : ℚ) / b.toNat)⌉₊
  if rounded < 2 ^ 31 then some (Int32.ofNat rounded) else none

/-- `calculate_total_packets_required`; `none` where it exits, divides by zero or
converts a number that does not fit. -/
def calculateTotalPacketsRequired (segSize nbSegs : UInt32) : Option Int32 :=
  if maxSegmentSize < segSize then
    -- the only such request that is handled has one segment
    if nbSegs ≠ 1 then none else ceilQuotient segSize maxSegmentSize
  else if segSize = 0 then none
  else
    let pktsPerSegment := maxSegmentSize / segSize
    ceilQuotient nbSegs pktsPerSegment

/-! ## Packing -/

/-- `units` things can be put into `count` boxes with `room` for each. -/
def Packs (units room count : ℕ) : Prop :=
  ∃ place : Fin units → Fin count, ∀ box, (Finset.univ.filter (place · = box)).card ≤ room

/-- **Boxes suffice** exactly when their room together does. -/
theorem packs_iff {units room count : ℕ} (hroom : 0 < room) :
    Packs units room count ↔ units ≤ count * room := by
  constructor
  · rintro ⟨place, hplace⟩
    have hcard := Finset.card_eq_sum_card_fiberwise (f := place) (s := Finset.univ)
      (t := Finset.univ) fun _ _ => Finset.mem_univ _
    calc units = (Finset.univ : Finset (Fin units)).card := by simp
      _ = ∑ box, (Finset.univ.filter (place · = box)).card := hcard
      _ ≤ ∑ _ : Fin count, room := Finset.sum_le_sum fun box _ => hplace box
      _ = count * room := by simp
  · intro hle
    -- they are put in order, a full box before the next
    have hbox : ∀ unit : Fin units, unit.val / room < count := fun unit =>
      (Nat.div_lt_iff_lt_mul hroom).mpr (unit.isLt.trans_le hle)
    refine ⟨fun unit => ⟨unit.val / room, hbox unit⟩, fun box => ?_⟩
    have hinto : ∀ unit ∈ Finset.univ.filter
        (fun unit : Fin units => (⟨unit.val / room, hbox unit⟩ : Fin count) = box),
        unit.val % room ∈ Finset.range room := fun unit _ =>
      Finset.mem_range.mpr (Nat.mod_lt _ hroom)
    refine (Finset.card_le_card_of_injOn _ hinto ?_).trans_eq (Finset.card_range room)
    intro unit hunit other hother hmod
    have hunit' : unit.val / room = box := congrArg Fin.val (Finset.mem_filter.mp hunit).2
    have hother' : other.val / room = box := congrArg Fin.val (Finset.mem_filter.mp hother).2
    apply Fin.ext
    rw [← Nat.div_add_mod unit.val room, ← Nat.div_add_mod other.val room, hunit', hother']
    exact congrArg _ hmod

/-- The packets that a request fits into: a segment that is too large is cut into bytes,
others stay whole. -/
def FitsPackets (segSize nbSegs : UInt32) (count : ℕ) : Prop :=
  if maxSegmentSize < segSize then Packs segSize.toNat maxSegmentSize.toNat count
  else ∃ place : Fin nbSegs.toNat → Fin count, ∀ packet,
    (Finset.univ.filter (place · = packet)).card * segSize.toNat ≤ maxSegmentSize.toNat

/-- The requests that are handled. -/
def Handled (segSize nbSegs : UInt32) : Prop :=
  if maxSegmentSize < segSize then nbSegs = 1 else segSize ≠ 0

/-! ## The quotient in doubles -/

/-- The division and the rounding up leave the exact number. -/
theorem ceil_roundTo_le_iff {a b : UInt32} (hb : 0 < b.toNat) (count : ℕ) :
    ⌈roundTo 53 ((a.toNat : ℚ) / b.toNat)⌉₊ ≤ count ↔ a.toNat ≤ count * b.toNat := by
  have ha : 2 * a.toNat ≤ 2 ^ 53 := by
    have hlt := a.toNat_lt
    omega
  rw [Nat.ceil_le, roundTo_div_le_iff hb ha (by decide)]

theorem ceilQuotient_eq_some_iff {a b : UInt32} (hb : 0 < b.toNat) {n : Int32} :
    ceilQuotient a b = some n ↔
      0 ≤ n.toInt ∧ ∀ count : ℕ, n.toInt ≤ count ↔ a.toNat ≤ count * b.toNat := by
  have hleast := ceil_roundTo_le_iff (a := a) hb
  rw [ceilQuotient]
  generalize ⌈roundTo 53 ((a.toNat : ℚ) / b.toNat)⌉₊ = rounded at hleast
  have hvalue : rounded < 2 ^ 31 → (Int32.ofNat rounded).toInt = rounded := fun hlt => by
    rw [← Int32.ofInt_eq_ofNat, Int32.toInt_ofInt_of_le (by omega) (by omega)]
  constructor
  · intro hsome
    split at hsome
    case isTrue hlt =>
      obtain rfl := Option.some.inj hsome
      rw [hvalue hlt]
      exact ⟨by omega, fun count => Nat.cast_le.trans (hleast count)⟩
    case isFalse => cases hsome
  · rintro ⟨hnonneg, hn⟩
    obtain ⟨value, hval⟩ := Int.eq_ofNat_of_zero_le hnonneg
    have hround : rounded = value := by
      apply Nat.le_antisymm
      · exact (hleast value).mpr ((hn value).mp (by omega))
      · have hle := (hn rounded).mpr ((hleast rounded).mp le_rfl)
        omega
    have hlt : rounded < 2 ^ 31 := by
      have hbound := n.toInt_lt
      omega
    rw [if_pos hlt, Option.some_inj, ← Int32.toInt_inj, hvalue hlt, hval, hround]

theorem fitsPackets_of_large {segSize nbSegs : UInt32} (hlarge : maxSegmentSize < segSize)
    (count : ℕ) :
    FitsPackets segSize nbSegs count ↔ segSize.toNat ≤ count * maxSegmentSize.toNat := by
  rw [FitsPackets, if_pos hlarge, packs_iff (by decide)]

theorem fitsPackets_of_small {segSize nbSegs : UInt32} (hsmall : ¬ maxSegmentSize < segSize)
    (hpos : 0 < segSize.toNat) (count : ℕ) :
    FitsPackets segSize nbSegs count ↔
      nbSegs.toNat ≤ count * (maxSegmentSize / segSize).toNat := by
  have hle : segSize.toNat ≤ maxSegmentSize.toNat := UInt32.le_iff_toNat_le.mp (UInt32.not_lt.mp hsmall)
  have hroom : 0 < maxSegmentSize.toNat / segSize.toNat := Nat.div_pos hle hpos
  rw [FitsPackets, if_neg hsmall, UInt32.toNat_div, ← packs_iff hroom, Packs]
  simp only [Nat.le_div_iff_mul_le hpos]

/-- **The count is the least one that suffices**: the function returns `n` exactly when the
request is handled and `n` packets hold it but no fewer do. -/
theorem calculateTotalPacketsRequired_eq_some_iff (segSize nbSegs : UInt32) (n : Int32) :
    calculateTotalPacketsRequired segSize nbSegs = some n ↔ Handled segSize nbSegs ∧
      0 ≤ n.toInt ∧ ∀ count : ℕ, n.toInt ≤ count ↔ FitsPackets segSize nbSegs count := by
  by_cases hlarge : maxSegmentSize < segSize
  · simp only [fitsPackets_of_large hlarge, calculateTotalPacketsRequired, Handled, if_pos hlarge]
    by_cases hone : nbSegs = 1
    · rw [if_neg (not_not.mpr hone), ceilQuotient_eq_some_iff (by decide)]
      exact ⟨fun h => ⟨hone, h⟩, And.right⟩
    · rw [if_pos hone]
      exact ⟨nofun, fun h => absurd h.1 hone⟩
  · by_cases hzero : segSize = 0
    · simp only [calculateTotalPacketsRequired, Handled, if_neg hlarge, if_pos hzero]
      exact ⟨nofun, fun h => absurd hzero h.1⟩
    · have hpos : 0 < segSize.toNat := by
        rw [Nat.pos_iff_ne_zero]
        exact fun h => hzero (UInt32.toNat_inj.mp h)
      have hroom : 0 < (maxSegmentSize / segSize).toNat := by
        rw [UInt32.toNat_div]
        exact Nat.div_pos (UInt32.le_iff_toNat_le.mp (UInt32.not_lt.mp hlarge)) hpos
      simp only [fitsPackets_of_small hlarge hpos, calculateTotalPacketsRequired, Handled,
        if_neg hlarge, if_neg hzero]
      rw [ceilQuotient_eq_some_iff hroom]
      exact ⟨fun h => ⟨hzero, h⟩, And.right⟩

end Mlx5Netperf
