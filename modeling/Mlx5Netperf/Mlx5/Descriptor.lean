import Mlx5Netperf.Lib.CircularRing
import Mlx5Netperf.Mlx5.SendRing

/-!
# Where a Descriptor Lies

A send ring of 64-byte blocks is a circle of 16-byte units, four to a block. The
pointer arithmetic of `mlx5_fill_tx_segment` walks this circle: the three rules
for the first data segment and the step to the next one all come down to a unit
number modulo the number of units.
-/

namespace Mlx5Netperf

open ByteMemory ByteOrder WordArith

/-! ## Ring geometry -/

/-- The send ring consists of `n` blocks of 64 bytes at `base`, `n` a power of
two, inside the address space. -/
structure RingAt (v : Mlx5Txq) (base n : ℕ) : Prop where
  buf : v.sq.buf = base
  wqeCnt : v.sq.wqeCnt.toNat = n
  pow : ∃ k, n = 2 ^ k
  stride : v.sq.stride = 64
  logStride : v.txSqLogStride = 6
  bound : base + 64 * n + 64 ≤ 2 ^ 64

/-- The block that the next send starts at. -/
def Mlx5Txq.slot (v : Mlx5Txq) : ℕ := v.sqHead.toNat % v.sq.wqeCnt.toNat

/-- The address of unit `u` on a ring of `n` blocks at `base`. -/
def unitAddr (base n u : ℕ) : ℕ := base + 16 * (u % (4 * n))

/-- The address `x` lies in the `k` blocks from `slot` on, around the ring. -/
def InBlocks (base n slot k x : ℕ) : Prop := ∃ j < 64 * k, x = base + (64 * slot + j) % (64 * n)

section Geometry

variable {v : Mlx5Txq} {base n : ℕ}

theorem State.SameRing.slot {st st' : State} (h : st.SameRing st') :
    st'.txq.slot = st.txq.slot := by
  rw [Mlx5Txq.slot, Mlx5Txq.slot, h.sqHead, h.sq]

theorem RingAt.pos (h : RingAt v base n) : 0 < n := by
  obtain ⟨k, rfl⟩ := h.pow
  exact Nat.two_pow_pos k

theorem RingAt.slot_lt (h : RingAt v base n) : v.slot < n := by
  rw [Mlx5Txq.slot, h.wqeCnt]
  exact Nat.mod_lt _ h.pos

theorem RingAt.currentIdx (h : RingAt v base n) : v.currentIdx.toNat = v.slot := by
  obtain ⟨k, hk⟩ := h.pow
  exact currentIdx_toNat (h.wqeCnt.trans hk)

theorem RingAt.getSegment (h : RingAt v base n) :
    getSegment v v.currentIdx = base + 64 * v.slot % 2 ^ 32 := by
  have hshift : (v.currentIdx <<< (6 : UInt32)).toNat = v.currentIdx.toNat * 64 % 2 ^ 32 := by
    simp [UInt32.toNat_shiftLeft, Nat.shiftLeft_eq]
  rw [Mlx5Netperf.getSegment, h.logStride, hshift, h.buf, h.currentIdx, Nat.mul_comm]

theorem RingAt.endPtr (h : RingAt v base n) : v.endPtr = base + 64 * n % 2 ^ 32 := by
  rw [Mlx5Txq.endPtr, h.buf, h.stride, UInt32.toNat_mul, h.wqeCnt, Nat.mul_comm]
  rfl

/-- Below 4 GiB the 32-bit products of the pointer arithmetic are exact. -/
theorem RingAt.endPtr_eq (h : RingAt v base n) (hsmall : 64 * n < 2 ^ 32) :
    v.endPtr = base + 64 * n := by
  rw [h.endPtr, Nat.mod_eq_of_lt hsmall]

theorem RingAt.getSegment_eq (h : RingAt v base n) (hsmall : 64 * n < 2 ^ 32) :
    Mlx5Netperf.getSegment v v.currentIdx = base + 64 * v.slot := by
  have hlt := h.slot_lt
  rw [h.getSegment, Nat.mod_eq_of_lt (by omega)]

/-! ## Units -/

/-- Different units do not overlap. -/
theorem unitAddr_apart (base : ℕ) {u w : ℕ} (hne : u % (4 * n) ≠ w % (4 * n)) :
    unitAddr base n u + 16 ≤ unitAddr base n w ∨ unitAddr base n w + 16 ≤ unitAddr base n u := by
  unfold unitAddr
  omega

/-- The step to the next data segment is a step to the next unit. -/
theorem RingAt.nextSegmentPtr (h : RingAt v base n) (hsmall : 64 * n < 2 ^ 32) (u : ℕ) :
    nextSegmentPtr v (unitAddr base n u) = unitAddr base n (u + 1) := by
  have hpos := h.pos
  have hlt : u % (4 * n) < 4 * n := Nat.mod_lt _ (by omega)
  rw [Mlx5Netperf.nextSegmentPtr, h.endPtr_eq hsmall, h.buf, sizeofDataSeg]
  unfold unitAddr
  -- behind the last unit of the ring comes the first
  by_cases hlast : u % (4 * n) = 4 * n - 1
  · have hwrap : (u + 1) % (4 * n) = 0 := by
      rw [Nat.add_mod, hlast]
      rcases Nat.eq_or_lt_of_le (show 1 ≤ 4 * n by omega) with hone | hmore
      · omega
      · rw [Nat.mod_eq_of_lt hmore, Nat.sub_add_cancel (by omega), Nat.mod_self]
    rw [hlast, hwrap, if_pos (by omega)]
    omega
  · have hnext : (u + 1) % (4 * n) = u % (4 * n) + 1 := by
      rw [Nat.add_mod, Nat.mod_eq_of_lt (show 1 < 4 * n by omega)]
      exact Nat.mod_eq_of_lt (by omega)
    rw [hnext, if_neg (by omega)]
    omega

/-- **The three wrap rules agree**: the first data segment goes to the unit right
behind the header units, whether or not these wrapped. -/
theorem RingAt.dpsegStart (h : RingAt v base n) (hsmall : 64 * n < 2 ^ 32) {inlineLen : ℕ}
    (hil : InlineLenOk inlineLen) :
    dpsegStart v inlineLen = unitAddr base n (4 * v.slot + hdrUnits inlineLen) := by
  have hlt := h.slot_lt
  have hbound := h.bound
  simp only [Mlx5Netperf.dpsegStart, h.getSegment_eq hsmall, h.endPtr_eq hsmall, h.buf,
    sizeofCtrlSeg, offsetofInlineHdrStart]
  rcases hil with rfl | ⟨hlo, hhi⟩
  · -- nothing inlined: two header units, always in the first block
    have hunit : (4 * v.slot + 2) % (4 * n) = 4 * v.slot + 2 := Nat.mod_eq_of_lt (by omega)
    simp only [hdrUnits, gt_iff_lt, lt_self_iff_false, if_false, unitAddr, hunit]
    rw [if_neg (by omega)]
    omega
  · have hpos : inlineLen > 0 := by omega
    have hunits : hdrUnits inlineLen = 6 := by
      simp only [hdrUnits, hpos, if_true]
      omega
    have hptr : sizeSub (base + 64 * n) (base + 64 * v.slot + 16 + 14) =
        64 * n - (64 * v.slot + 30) := by
      rw [sizeSub_of_le (by omega) (by omega)]
      omega
    simp only [hpos, if_true, hptr, hunits]
    by_cases hlast : v.slot + 1 = n
    · -- the last block: 34 bytes fit, the rest and the data segments start over
      have hfirst : 64 * n - (64 * v.slot + 30) = 34 := by omega
      have hrest : sizeAdd (sizeSub inlineLen 34) 15 = inlineLen - 34 + 15 := by
        rw [sizeSub_of_le (by omega) (by omega), sizeAdd_of_lt (by omega)]
      have hunit : (4 * v.slot + 6) % (4 * n) = 2 := by
        rw [← hlast]
        rcases Nat.eq_zero_or_pos v.slot with hzero | hslot
        · simp [hzero]
        · rw [show 4 * v.slot + 6 = 4 * (v.slot + 1) + 2 by omega, Nat.add_mod_left]
          exact Nat.mod_eq_of_lt (by omega)
      rw [hfirst, if_pos (by omega), hrest, unitAddr, hunit]
      omega
    -- the header units end in the next block, which is still on the ring
    · have hrest : sizeAdd (sizeSub inlineLen 2) 15 = inlineLen - 2 + 15 := by
        rw [sizeSub_of_le (by omega) (by omega), sizeAdd_of_lt (by omega)]
      have hunit : (4 * v.slot + 6) % (4 * n) = 4 * v.slot + 6 := Nat.mod_eq_of_lt (by omega)
      rw [if_neg (by omega), hrest, unitAddr, hunit]
      omega

end Geometry

end Mlx5Netperf
