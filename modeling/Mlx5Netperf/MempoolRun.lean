import Mlx5Netperf.Lib.Transition
import Mlx5Netperf.MempoolCreate

/-!
# Runs of a Memory Pool

The free list is the live part of an array, and frees overwrite its dead part in
any order. Seen through `freeList`, allocating and freeing are the two steps of
`Custody`, so that every item stays free or allocated over a whole run.
-/

namespace Mlx5Netperf

/-- A pool and the items that were allocated from it and not freed since. -/
structure PoolUse where
  pool : Mempool
  out : List Addr

/-- One call. Only an item that is out may be freed. -/
inductive PoolStep : PoolUse → PoolUse → Prop where
  | alloc {u : PoolUse} {item : Addr} {pool : Mempool} :
      mempoolAlloc u.pool = some (item, pool) → PoolStep u ⟨pool, item :: u.out⟩
  | exhausted {u : PoolUse} : mempoolAlloc u.pool = none → PoolStep u u
  | free {u : PoolUse} {item : Addr} : item ∈ u.out →
      PoolStep u ⟨mempoolFree u.pool item, u.out.erase item⟩

/-- What is free and what is out. -/
def PoolUse.holding (u : PoolUse) : Custody.Holding Addr := ⟨u.pool.freeList, u.out⟩

/-! ## The index -/

/-- The index counts what is out, and stays inside the array of `n` entries. -/
structure PoolUse.Counts (n : ℕ) (u : PoolUse) : Prop where
  allocated : u.pool.allocated = u.out.length
  capacity : u.pool.capacity = n
  index : u.pool.allocated ≤ u.pool.capacity

namespace PoolUse.Counts

variable {n : ℕ} {u u' : PoolUse}

theorem alloc {item : Addr} {pool : Mempool} (h : u.Counts n)
    (halloc : mempoolAlloc u.pool = some (item, pool)) :
    PoolUse.Counts n ⟨pool, item :: u.out⟩ := by
  obtain ⟨hlt, -, rfl⟩ := mempoolAlloc_eq_some halloc
  exact ⟨congrArg (· + 1) h.allocated, h.capacity, hlt⟩

/-- Freeing an item that is out does not wrap the index. -/
theorem free {item : Addr} (h : u.Counts n) (hn : n < 2 ^ 64) (hmem : item ∈ u.out) :
    PoolUse.Counts n ⟨mempoolFree u.pool item, u.out.erase item⟩ := by
  have hpos : 0 < u.out.length := List.length_pos_of_mem hmem
  have hcapacity := h.capacity
  have hindex := h.index
  have hallocated := h.allocated
  have hsub : WordArith.sizeSub u.pool.allocated 1 = u.pool.allocated - 1 :=
    WordArith.sizeSub_of_le (by omega) (by omega)
  refine ⟨?_, h.capacity, ?_⟩
  · simp only [mempoolFree, hsub, List.length_erase_of_mem hmem]
    omega
  · simp only [mempoolFree, hsub]
    omega

theorem step (h : u.Counts n) (hn : n < 2 ^ 64) (hstep : PoolStep u u') : u'.Counts n := by
  cases hstep with
  | alloc halloc => exact h.alloc halloc
  | exhausted _ => exact h
  | free hmem => exact h.free hn hmem

/-- **Every call is a step of custody, or none.** -/
theorem holding_step (h : u.Counts n) (hn : n < 2 ^ 64) (hstep : PoolStep u u') :
    Relation.ReflTransGen Custody.Step u.holding u'.holding := by
  cases hstep with
  | alloc halloc =>
    refine .single ?_
    rw [PoolUse.holding, freeList_of_mempoolAlloc halloc]
    exact .take ..
  | exhausted _ => exact .refl
  | free hmem =>
    have hpos : 0 < u.pool.allocated := h.allocated ▸ List.length_pos_of_mem hmem
    have hcapacity : u.pool.capacity < 2 ^ 64 := h.capacity ▸ hn
    refine .single ?_
    simp only [PoolUse.holding, freeList_mempoolFree _ hpos h.index hcapacity]
    exact .give _ _ _ hmem

end PoolUse.Counts

/-! ## Whole runs -/

/-- The states that a pool with nothing allocated gets to. -/
abbrev PoolReachable (pool : Mempool) : PoolUse → Prop :=
  Transition.Reachable (fun u => u = ⟨pool, []⟩) PoolStep

section

variable {pool : Mempool} {u : PoolUse}

theorem PoolUse.counts_of_reachable (hallocated : pool.allocated = 0)
    (hcapacity : pool.capacity < 2 ^ 64) (h : PoolReachable pool u) : u.Counts pool.capacity := by
  apply h.invariant
  · rintro s rfl
    exact ⟨hallocated, rfl, by rw [hallocated]; exact Nat.zero_le _⟩
  · intro s t hs hst
    exact hs.step hcapacity hst

/-- **No item is lost or doubled** over a run. -/
theorem PoolUse.has_of_reachable (hallocated : pool.allocated = 0)
    (hcapacity : pool.capacity < 2 ^ 64) (h : PoolReachable pool u) :
    u.holding.Has pool.freeList := by
  have hcounts : ∀ s, PoolReachable pool s → s.Counts pool.capacity :=
    fun s hs => PoolUse.counts_of_reachable hallocated hcapacity hs
  refine Custody.has_of_reachable (h.project hcounts ?_ ?_)
  · rintro s rfl
    rfl
  · intro s t hs hst
    exact hs.holding_step hcapacity hst

end

/-- What holds of a pool with the given items at any moment of its use. -/
structure PoolUse.Sound (items : List Addr) (u : PoolUse) : Prop where
  partition : (u.pool.freeList ++ u.out).Perm items
  apart : ∀ a ∈ items, Xor (a ∈ u.pool.freeList) (a ∈ u.out)
  exhausted : mempoolAlloc u.pool = none ↔ ∀ a ∈ items, a ∈ u.out
  fresh : ∀ item pool, mempoolAlloc u.pool = some (item, pool) → item ∈ items ∧ item ∉ u.out
  capacity : u.pool.capacity = items.length
  index : u.pool.allocated ≤ u.pool.capacity

/-- Custody, read off the pool. -/
theorem PoolUse.sound_of_reachable {pool : Mempool} {u : PoolUse} (hallocated : pool.allocated = 0)
    (hcapacity : pool.capacity < 2 ^ 64) (hnodup : pool.freeList.Nodup)
    (h : PoolReachable pool u) : u.Sound pool.freeList := by
  have hhas := PoolUse.has_of_reachable hallocated hcapacity h
  have hcounts := PoolUse.counts_of_reachable hallocated hcapacity h
  refine ⟨hhas, fun a ha => hhas.xor hnodup ha, ?_, ?_, ?_, hcounts.index⟩
  · rw [mempoolAlloc_eq_none]
    exact hhas.free_eq_nil_iff hnodup
  · intro item pool' halloc
    have hfree : item ∈ u.pool.freeList := by
      rw [freeList_of_mempoolAlloc halloc]
      exact List.mem_cons_self
    have hitem : item ∈ pool.freeList := hhas.mem.mpr (.inl hfree)
    -- an item that is free is not out
    rcases hhas.xor hnodup hitem with hat | hat
    · exact ⟨hitem, hat.2⟩
    · exact absurd hfree hat.2
  · rw [hcounts.capacity, Mempool.length_freeList, hallocated, Nat.sub_zero]

/-- **A pool is correct over every run of allocations and frees.** -/
theorem mempool_correct {buf : Addr} {len pgsize itemLen : UInt64} (hitem : itemLen ≠ 0)
    (hpgsize : isPowerOfTwo pgsize) (hlen : len % pgsize = 0)
    (hpages : (len / pgsize).toNat < 2 ^ 31) (hitems : (pgsize / itemLen).toNat < 2 ^ 31)
    (hbuf : buf ≠ 0) (hregion : buf.toNat + len.toNat ≤ 2 ^ 64) :
    ∃ pool, mempoolCreate true .zeroed buf len pgsize itemLen = some (0, pool) ∧
      LaidOut buf len pgsize itemLen pool.freeList ∧
      (∀ a ∈ pool.freeList, a ≠ 0) ∧
      ∀ u, PoolReachable pool.toMempool u → u.Sound pool.freeList := by
  obtain ⟨pool, hcreate, hfree, hallocated, hcapacity⟩ :=
    mempoolCreate_zeroed hitem hpgsize hlen hpages hitems
  have hlaid : LaidOut buf len pgsize itemLen pool.freeList := by
    rw [hfree]
    exact laidOut_poolItems hitem hlen hregion
  -- fewer than 2^31 pages of fewer than 2^31 items
  have hsmall : pool.capacity < 2 ^ 64 := by
    rw [UInt64.toNat_div] at hpages hitems
    calc pool.capacity = pgsize.toNat / itemLen.toNat * (len.toNat / pgsize.toNat) := by
          rw [hcapacity, ← hfree, hlaid.count]
      _ ≤ 2 ^ 31 * 2 ^ 31 := Nat.mul_le_mul hitems.le hpages.le
      _ < 2 ^ 64 := by decide
  exact ⟨pool, hcreate, hlaid, hlaid.nonnull hbuf,
    fun u hu => PoolUse.sound_of_reachable hallocated hsmall hlaid.nodup hu⟩

/-- One page of two items, as `mempool_memory_init` makes them. -/
theorem mempool_correct_twoItems :
    ∃ pool, mempoolMemoryInit (fun _ => some 0x200000) true .zeroed 0x100000 2 1 = some (0, pool) ∧
      LaidOut 0x200000 0x200000 pgsize2mb 0x100000 pool.freeList ∧
      (∀ a ∈ pool.freeList, a ≠ 0) ∧
      ∀ u, PoolReachable pool.toMempool u → u.Sound pool.freeList := by
  have hinit : mempoolMemoryInit (fun _ => some 0x200000) true .zeroed 0x100000 2 1 =
      mempoolCreate true .zeroed 0x200000 0x200000 pgsize2mb 0x100000 := by
    rw [mempoolMemoryInit, Option.bind_some, if_neg (by decide)]
    rfl
  rw [hinit]
  exact mempool_correct (by decide) (by decide) (by decide) (by decide) (by decide) (by decide)
    (by decide)

end Mlx5Netperf
