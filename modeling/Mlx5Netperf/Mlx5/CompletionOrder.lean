import Mlx5Netperf.Lib.LapRing
import Mlx5Netperf.Lib.Transition
import Mlx5Netperf.Mlx5.Poll
import Mathlib.Data.Nat.Bitwise

/-!
# Completions Are Read in Order

Both completion queues are rings read by laps: `cqe_status` compares one bit of
an entry with one bit of a free-running 32-bit head. The device and the two
polling functions take turns in any order; what the polls read is what the
device wrote, each completion once.
-/

namespace Mlx5Netperf

open ByteOrder Transition

/-! ## The mark of an entry -/

/-- The owner bit of an entry. -/
def Mlx5Cqe64.ownerBit (cqe : Mlx5Cqe64) : ℕ := (cqe.opOwn &&& mlx5CqeOwnerMask).toNat

theorem Mlx5Cqe64.ownerBit_lt (cqe : Mlx5Cqe64) : cqe.ownerBit < 2 := by
  rw [ownerBit, mlx5CqeOwnerMask, UInt8.toNat_and, UInt8.toNat_one, Nat.and_one_is_mod]
  exact Nat.mod_lt _ (by decide)

/-- The parity that `cqe_status` computes is the one of the lap. -/
theorem parity_eq_zero_iff {cqeCnt : UInt32} {j : ℕ} (hsize : cqeCnt.toNat = 2 ^ j) (hj : j ≤ 15)
    (k : ℕ) : (UInt32.ofNat k &&& cqeCnt).toUInt16 = 0 ↔ k / cqeCnt.toNat % 2 = 0 := by
  -- the mask keeps the bit above the slot number
  have hbit : (UInt32.ofNat k &&& cqeCnt).toNat = (k.testBit j).toNat * 2 ^ j := by
    rw [UInt32.toNat_and, hsize, UInt32.toNat_ofNat', Nat.and_two_pow, Nat.testBit_mod_two_pow,
      decide_eq_true (show j < 32 by omega), Bool.true_and]
  -- and the cast to 16 bits keeps it
  have hlt : 2 ^ j < 2 ^ 16 := Nat.pow_lt_pow_right (by decide) (by omega)
  rw [← UInt16.toNat_inj, UInt32.toNat_toUInt16, hbit, hsize, Nat.testBit_eq_decide_div_mod_eq]
  rcases Nat.mod_two_eq_zero_or_one (k / 2 ^ j) with heven | hodd
  · simp [heven]
  · simp only [hodd, decide_true, Bool.toNat_true, one_mul, Nat.mod_eq_of_lt hlt]
    simp

/-- **`cqe_status`**: the entry's opcode when its owner bit is the parity of the
lap, and otherwise the invalid one. -/
theorem cqeStatus_eq {cqeCnt : UInt32} {j : ℕ} (hsize : cqeCnt.toNat = 2 ^ j) (hj : j ≤ 15)
    (cqe : Mlx5Cqe64) (k : ℕ) :
    cqeStatus cqe cqeCnt (UInt32.ofNat k) =
      if cqe.ownerBit = k / cqeCnt.toNat % 2 then cqe.opcode else mlx5CqeInvalid := by
  have hparity := parity_eq_zero_iff hsize hj k
  have hbit := cqe.ownerBit_lt
  have howner : ∀ b : UInt8, cqe.opOwn &&& mlx5CqeOwnerMask = b ↔ cqe.ownerBit = b.toNat :=
    fun b => UInt8.toNat_inj.symm
  -- the invalid opcode is all ones, so it wins over any other
  have hmix : ∀ (c : Prop) [Decidable c], (if c then mlx5CqeInvalid else 0) ||| cqe.opcode =
      if ¬ c then cqe.opcode else mlx5CqeInvalid := by
    intro c _
    by_cases hc : c
    · rw [if_pos hc, if_neg (not_not.mpr hc), invalid_or_opcode]
    · rw [if_neg hc, if_pos hc, UInt8.zero_or]
  refine (hmix _).trans (if_congr ?_ rfl rfl)
  rw [howner]
  rcases Nat.mod_two_eq_zero_or_one (k / cqeCnt.toNat) with heven | hodd
  · rw [if_pos (hparity.mpr heven), heven, UInt8.toNat_one]
    omega
  · rw [if_neg (fun h => by simp [hparity.mp h] at hodd), hodd, UInt8.toNat_zero]
    omega

/-- The entry looks like the completion number `k`. -/
def LooksWritten (cqeCnt : UInt32) (k : ℕ) (cqe : Mlx5Cqe64) : Prop :=
  cqeStatus cqe cqeCnt (UInt32.ofNat k) ≠ mlx5CqeInvalid

instance (cqeCnt : UInt32) (k : ℕ) (cqe : Mlx5Cqe64) : Decidable (LooksWritten cqeCnt k cqe) :=
  inferInstanceAs (Decidable (_ ≠ _))

/-- An entry looks written when it has an opcode and the owner bit of the lap. -/
theorem looksWritten_iff {cqeCnt : UInt32} {j : ℕ} (hsize : cqeCnt.toNat = 2 ^ j) (hj : j ≤ 15)
    (cqe : Mlx5Cqe64) (k : ℕ) :
    LooksWritten cqeCnt k cqe ↔
      cqe.ownerBit = k / cqeCnt.toNat % 2 ∧ cqe.opcode ≠ mlx5CqeInvalid := by
  rw [LooksWritten, cqeStatus_eq hsize hj]
  split
  case isTrue howner => exact ⟨fun h => ⟨howner, h⟩, And.right⟩
  case isFalse howner => exact ⟨fun h => absurd rfl h, fun h => absurd h.1 howner⟩

/-! ## Device and driver on one queue -/

/-- The completions of one queue: those the device wrote, and those the polls
read, each oldest first. -/
structure CqLane where
  written : List Mlx5Cqe64
  read : List Mlx5Cqe64

/-- The completions that a call with this budget is to return. -/
def CqLane.next (lane : CqLane) (budget : ℕ) : List Mlx5Cqe64 :=
  (lane.written.drop lane.read.length).take budget

/-- What the device may write as completion number `k`: an entry with the owner
bit of its lap, while it is less than a lap ahead of the consumer. -/
structure DeviceWrites (cq : Cq) (head : UInt32) (k : ℕ) (cqe : Mlx5Cqe64) : Prop where
  ownerBit : cqe.ownerBit = k / cq.cqeCnt.toNat % 2
  opcode : cqe.opcode ≠ mlx5CqeInvalid
  room : (UInt32.ofNat k - head).toNat < cq.cqeCnt.toNat

/-- Completion number `k` goes into slot `k` modulo the queue's size. -/
def Cq.write (cq : Cq) (k : ℕ) (cqe : Mlx5Cqe64) : Cq :=
  { cq with buf := Function.update cq.buf (k % cq.cqeCnt.toNat) cqe }

/-- Before anything was written: every entry is marked as the device's, by its
owner bit or by the invalid opcode. -/
structure Cq.Fresh (cq : Cq) : Prop where
  size : ∃ j ≤ 15, cq.cqeCnt.toNat = 2 ^ j
  owned : ∀ s < cq.cqeCnt.toNat, (cq.buf s).ownerBit = 1 ∨ (cq.buf s).opcode = mlx5CqeInvalid

theorem Cq.fresh_deviceOwned {cqeCnt : UInt32} {j : ℕ} (hj : j ≤ 15) (hsize : cqeCnt.toNat = 2 ^ j) :
    (Cq.deviceOwned cqeCnt).Fresh :=
  ⟨⟨j, hj, hsize⟩, fun _ _ => .inl (show (mlx5CqeOwnerMask &&& mlx5CqeOwnerMask).toNat = 1 by decide)⟩

/-- The joint invariant of device and driver. -/
structure LaneInv (cq : Cq) (head : UInt32) (lane : CqLane) : Prop where
  size : ∃ j ≤ 15, cq.cqeCnt.toNat = 2 ^ j
  head_eq : head = UInt32.ofNat lane.read.length
  in_order : lane.read <+: lane.written
  lap : lane.written.length ≤ lane.read.length + cq.cqeCnt.toNat
  ring : ∃ initial, LapRing.Holds cq.cqeCnt.toNat initial cq.buf lane.written ∧
    LapRing.Marked cq.cqeCnt.toNat (LooksWritten cq.cqeCnt) initial lane.written

theorem Cq.at_ofNat {cq : Cq} {j : ℕ} (hsize : cq.cqeCnt.toNat = 2 ^ j) (hj : j ≤ 15) (k : ℕ) :
    cq.at (UInt32.ofNat k) = cq.buf (k % cq.cqeCnt.toNat) := by
  rw [Cq.at, WordArith.toNat_and_sub_one hsize,
    WordArith.toNat_ofNat_mod (WordArith.dvd_two_pow_of_le hsize (by omega))]

/-- `Cq.poll` is the scan of a ring read by laps. -/
theorem Cq.poll_eq_scan {cq : Cq} {j : ℕ} (hsize : cq.cqeCnt.toNat = 2 ^ j) (hj : j ≤ 15)
    (budget k : ℕ) :
    cq.poll budget (UInt32.ofNat k) =
      LapRing.scan cq.cqeCnt.toNat (LooksWritten cq.cqeCnt) cq.buf budget k := by
  induction budget generalizing k with
  | zero => rfl
  | succ budget ih =>
    have hnext : UInt32.ofNat k + 1 = UInt32.ofNat (k + 1) := (UInt32.ofNat_add ..).symm
    rw [Cq.poll, LapRing.scan, Cq.status, Cq.at_ofNat hsize hj, hnext, ih]
    exact (ite_not ..).symm

theorem Cq.Fresh.laneInv {cq : Cq} (h : cq.Fresh) : LaneInv cq 0 ⟨[], []⟩ := by
  obtain ⟨j, hj, hsize⟩ := h.size
  refine ⟨h.size, rfl, List.prefix_rfl, Nat.zero_le _, cq.buf, .nil, .nil fun s hs hlooks => ?_⟩
  obtain ⟨howner, hopcode⟩ := (looksWritten_iff hsize hj _ _).mp hlooks
  -- in the first lap the program looks for owner bit 0
  rw [Nat.div_eq_of_lt hs] at howner
  rcases h.owned s hs with hone | hinvalid
  · simp [hone] at howner
  · exact hopcode hinvalid

variable {cq : Cq} {head : UInt32} {lane : CqLane}

/-- **A write of the device** keeps the invariant: it hits a slot whose entry was
read, and marks it as of this lap. -/
theorem LaneInv.write (h : LaneInv cq head lane) {cqe : Mlx5Cqe64}
    (hwrites : DeviceWrites cq head lane.written.length cqe) :
    LaneInv (cq.write lane.written.length cqe) head { lane with written := lane.written ++ [cqe] } := by
  obtain ⟨j, hj, hsize⟩ := h.size
  obtain ⟨initial, hholds, hmarked⟩ := h.ring
  have hpos : 0 < cq.cqeCnt.toNat := hsize ▸ Nat.two_pow_pos j
  have hsmall : cq.cqeCnt.toNat ≤ 2 ^ 15 := hsize ▸ Nat.pow_le_pow_right (by decide) hj
  -- the head of the program is where the ghost list ends
  have hroom : lane.written.length < lane.read.length + cq.cqeCnt.toNat := by
    have hle := h.in_order.length_le
    obtain ⟨d, hd⟩ : ∃ d, lane.written.length = lane.read.length + d :=
      ⟨lane.written.length - lane.read.length, by omega⟩
    have hlap := h.lap
    have hroom := hwrites.room
    rw [h.head_eq, hd, WordArith.ofNat_add_sub, WordArith.toNat_ofNat_of_lt (by omega)] at hroom
    omega
  refine ⟨h.size, h.head_eq, h.in_order.trans (List.prefix_append ..), ?_, initial,
    hholds.write cqe, hmarked.write ?own ?stale⟩
  case own => exact (looksWritten_iff hsize hj _ _).mpr ⟨hwrites.ownerBit, hwrites.opcode⟩
  case stale =>
    intro hlooks
    have howner := ((looksWritten_iff hsize hj _ _).mp hlooks).1
    -- a lap later the parity is the other one
    rw [hwrites.ownerBit, Nat.add_div_right _ hpos] at howner
    omega
  · rw [List.length_append, List.length_singleton]
    exact hroom

/-- **A poll finds the next completions.** -/
theorem LaneInv.poll_eq (h : LaneInv cq head lane) (budget : ℕ) :
    cq.poll budget head = lane.next budget := by
  obtain ⟨j, hj, hsize⟩ := h.size
  obtain ⟨initial, hholds, hmarked⟩ := h.ring
  have hpos : 0 < cq.cqeCnt.toNat := hsize ▸ Nat.two_pow_pos j
  rw [h.head_eq, Cq.poll_eq_scan hsize hj]
  exact LapRing.scan_eq hholds hmarked hpos h.in_order.length_le h.lap

/-- Reading them keeps the invariant. -/
theorem LaneInv.advance (h : LaneInv cq head lane) (budget : ℕ) :
    LaneInv cq (head + UInt32.ofNat (lane.next budget).length)
      { lane with read := lane.read ++ lane.next budget } := by
  refine ⟨h.size, ?_, ?_, ?_, h.ring⟩
  · rw [h.head_eq, List.length_append, UInt32.ofNat_add]
  -- written is what was read and what is still to read
  · have hwhole : lane.written = lane.read ++ lane.written.drop lane.read.length := by
      obtain ⟨rest, hrest⟩ := h.in_order
      rw [← hrest, List.drop_left]
    rw [CqLane.next]
    conv_rhs => rw [hwhole]
    exact (List.prefix_append_right_inj _).mpr (List.take_prefix ..)
  · have hlap := h.lap
    rw [List.length_append]
    exact hlap.trans (by omega)

/-- Only the entries, the size and the head matter. -/
theorem LaneInv.congr {cq' : Cq} {head' : UInt32} (h : LaneInv cq head lane)
    (hbuf : cq'.buf = cq.buf) (hcnt : cq'.cqeCnt = cq.cqeCnt) (hhead : head' = head) :
    LaneInv cq' head' lane := by
  obtain ⟨buf, cqeCnt, dbrec⟩ := cq
  obtain ⟨buf', cqeCnt', dbrec'⟩ := cq'
  obtain rfl : buf' = buf := hbuf
  obtain rfl : cqeCnt' = cqeCnt := hcnt
  obtain rfl : head' = head := hhead
  exact ⟨h.size, h.head_eq, h.in_order, h.lap, h.ring⟩

end Mlx5Netperf
