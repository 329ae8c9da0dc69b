import Mlx5Netperf.Base.Memcpy
import Mlx5Netperf.Server.RequestedData

/-!
# The Copy Branch by Register Moves

The loop of the copy branch with the moves that `rte_memcpy` makes for each
region, against the loop with one plain copy for each.
-/

namespace Mlx5Netperf

open ByteMemory

/-- Copy one region by moves. -/
def copySegmentMoves (cfg : Config) (m : Addr) (segment : UInt64) (seg : ℕ) (st : State) : State :=
  let (mem, b) := mbufCopyMoves st.mem (st.heap m) (cfg.region segment).toNat
    cfg.segmentSize.toNat (UInt64.ofNat headerLen + UInt64.ofNat seg * cfg.segmentSize).toNat
  { st with mem := mem, heap := Function.update st.heap m b }

/-- The loop over the segments, by moves. -/
def copySegmentsMoves (cfg : Config) (m : Addr) (segments : List UInt64) (st : State) : State :=
  segments.zipIdx.foldl (fun st (segment, seg) => copySegmentMoves cfg m segment seg st) st

section Loop

variable {cfg : Config} {st : State} {m : Addr} {segment : UInt64} {seg : ℕ}

/-- Copying does not move the buffer. -/
@[simp] theorem mbufData_copySegment :
    mbufData ((copySegment cfg m segment seg st).heap m) = mbufData (st.heap m) := by
  simp [copySegment, mbufCopy, mbufData]

/-- One region, behind those that fit in front of it. -/
theorem copySegmentMoves_eq (hws : WorkingSetOk cfg)
    (hfit : 58 + (seg + 1) * cfg.segmentSize.toNat ≤ 16384)
    (hapart : RangesApart (mbufData (st.heap m)).toNat 16384 cfg.serverWorkingSet.toNat
      cfg.workingSetSize.toNat) :
    copySegmentMoves cfg m segment seg st = copySegment cfg m segment seg st := by
  rw [Nat.succ_mul] at hfit
  have hoff := @toNat_copyOffset seg _ hws.pos (by omega)
  -- the place of the region lies in the buffer, the region in the working set
  have hregion := hws.region_apart segment hapart
  have hplace : RangesApart ((st.heap m).data.toNat + (58 + seg * cfg.segmentSize.toNat))
      cfg.segmentSize.toNat (cfg.region segment).toNat cfg.segmentSize.toNat := by
    rcases hregion with hbefore | hafter
    · exact .inl (by simp only [mbufData] at hbefore; omega)
    · exact .inr (by simp only [mbufData] at hafter; omega)
  simp only [copySegmentMoves, copySegment, hoff, mbufCopyMoves_eq hplace]

/-- The loop from its round `k` on. -/
theorem copySegmentsMoves_zipIdx (hws : WorkingSetOk cfg) (segments : List UInt64) (k : ℕ)
    (hfit : 58 + (k + segments.length) * cfg.segmentSize.toNat ≤ 16384)
    (hapart : RangesApart (mbufData (st.heap m)).toNat 16384 cfg.serverWorkingSet.toNat
      cfg.workingSetSize.toNat) :
    (segments.zipIdx k).foldl (fun st (segment, seg) => copySegmentMoves cfg m segment seg st) st =
      (segments.zipIdx k).foldl (fun st (segment, seg) => copySegment cfg m segment seg st) st := by
  induction segments generalizing st k with
  | nil => rfl
  | cons segment segments ih =>
    rw [List.length_cons] at hfit
    have hround : 58 + (k + 1) * cfg.segmentSize.toNat ≤ 16384 := by
      have hle := Nat.mul_le_mul_right cfg.segmentSize.toNat
        (show k + 1 ≤ k + (segments.length + 1) by omega)
      omega
    simp only [List.zipIdx_cons, List.foldl_cons, copySegmentMoves_eq hws hround hapart]
    refine ih (k + 1) ?_ (by rwa [mbufData_copySegment])
    rwa [show k + 1 + segments.length = k + (segments.length + 1) by omega]

/-- **The copy branch may copy by moves**: when the reply fits its buffer and the buffer
is apart from the working set, the loop with the moves of `rte_memcpy` leaves the state
that the loop with plain copies leaves. -/
theorem copySegmentsMoves_eq (hws : WorkingSetOk cfg) (segments : List UInt64)
    (hfit : 58 + segments.length * cfg.segmentSize.toNat ≤ 16384)
    (hapart : RangesApart (mbufData (st.heap m)).toNat 16384 cfg.serverWorkingSet.toNat
      cfg.workingSetSize.toNat) :
    copySegmentsMoves cfg m segments st = copySegments cfg m segments st :=
  copySegmentsMoves_zipIdx hws segments 0 (by rwa [Nat.zero_add]) hapart

end Loop

/-- Two regions copied into a buffer in front of the working set. -/
theorem copySegmentsMoves_eq_oneRegion :
    copySegmentsMoves (oneRegionServer false) 0x5000 [3, 18] oneRequestState =
      copySegments (oneRegionServer false) 0x5000 [3, 18] oneRequestState :=
  copySegmentsMoves_eq (workingSetOk_oneRegionServer false) [3, 18] (by decide)
    (.inl (by decide))

end Mlx5Netperf
