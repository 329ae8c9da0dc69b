import Mlx5Netperf.Server.RequestedData

/-!
# The Cells of the Reference Counts

`server_change_refcnt` splits a segment id into an array and an offset into it.
The offset is reduced modulo the number of segments, like the region that the
id stands for; the number of the array is not bounded by anything.
-/

namespace Mlx5Netperf

open NullTerminated

/-- The counts that `server_init_refcnt_array` allocates and sets to one; `none`
is memory that does not belong to them. -/
def serverInitRefcntArray (numRefcntArrays numItems : UInt64) (j i : ℕ) : Option UInt16 :=
  if j < numRefcntArrays.toNat ∧ i < numItems.toNat then some 1 else none

/-- The array and the offset of a virtual segment. -/
def refcntCell (cfg : Config) (index : UInt64) : ℕ × ℕ :=
  ((index / cfg.numTotalSegments).toNat, (index % cfg.numTotalSegments).toNat)

/-- The cell is one of those that `init_mlx5` had allocated. -/
def AllocatedCell (cfg : Config) (numRefcntArrays : UInt64) (cell : ℕ × ℕ) : Prop :=
  (serverInitRefcntArray numRefcntArrays (cfg.workingSetSize / cfg.segmentSize) cell.1 cell.2).isSome =
    true

variable {cfg : Config} {numRefcntArrays : UInt64} {st st' : State} {request : Addr}

/-! ## Which cells are touched -/

/-- A change of a count leaves every other cell alone. -/
theorem serverChangeRefcnt_of_ne {index : UInt64} {change : Int16} {j i : ℕ}
    (h : (j, i) ≠ refcntCell cfg index) :
    (serverChangeRefcnt cfg st index change).2.workingSetRefcnts j i =
      st.workingSetRefcnts j i := by
  refine if_neg fun hcell => h ?_
  rw [hcell.1, hcell.2]
  rfl

/-- So does an increment. -/
theorem bumpRefcnt_of_ne {refcnts : ℕ → ℕ → UInt16} {segment : UInt64} {j i : ℕ}
    (h : (j, i) ≠ refcntCell cfg segment) : bumpRefcnt cfg refcnts segment j i = refcnts j i := by
  refine if_neg fun hcell => h ?_
  rw [hcell.1, hcell.2]
  rfl

/-! ## Which cells are allocated -/

/-- **A cell is allocated** exactly for the ids that the arrays have room for. -/
theorem allocatedCell_iff (hws : WorkingSetMapped cfg) (index : UInt64) :
    AllocatedCell cfg numRefcntArrays (refcntCell cfg index) ↔
      index.toNat < numRefcntArrays.toNat * cfg.numTotalSegments.toNat := by
  -- the offset is always inside, only the array may not be
  have hoffset : index.toNat % cfg.numTotalSegments.toNat < cfg.numTotalSegments.toNat :=
    Nat.mod_lt _ hws.total_pos
  rw [AllocatedCell, refcntCell, serverInitRefcntArray, ← hws.total, UInt64.toNat_div,
    UInt64.toNat_mod, ← Nat.div_lt_iff_lt_mul hws.total_pos]
  simp [hoffset]

/-- A server with reference counts for its 16 regions. -/
def refCountingServer : Config := { oneRegionServer true with usingRefCounting := true }

theorem workingSetMapped_refCountingServer : WorkingSetMapped refCountingServer where
  pos := by decide
  le := by decide
  total := by decide
  bound := by decide

end Mlx5Netperf
