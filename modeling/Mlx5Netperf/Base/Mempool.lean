import Mlx5Netperf.Base.Mbuf
import Mlx5Netperf.Lib.WordArith
import Mathlib.Data.List.Range

/-!
# Memory Pools

`struct mempool` of `inc/base/mempool.h`: a preallocated stack of items.
`allocated` counts the items handed out, and the items from that index on are
free.
-/

namespace Mlx5Netperf

/-- `struct mempool` -/
structure Mempool where
  freeItems : ℕ → Addr
  allocated : ℕ
  capacity : ℕ
  itemLen : ℕ

/-- `mempool_alloc`; `none` is the null pointer. -/
def mempoolAlloc (m : Mempool) : Option (Addr × Mempool) :=
  if m.allocated ≥ m.capacity then none
  else some (m.freeItems m.allocated, { m with allocated := m.allocated + 1 })

/-- `mempool_free`. With nothing allocated the code warns and carries on with
an index that wraps around. -/
def mempoolFree (m : Mempool) (item : Addr) : Mempool :=
  let allocated := WordArith.sizeSub m.allocated 1
  { m with freeItems := Function.update m.freeItems allocated item, allocated := allocated }

/-- The free items, the next one to be handed out first. -/
def Mempool.freeList (m : Mempool) : List Addr :=
  (List.range' m.allocated (m.capacity - m.allocated)).map m.freeItems

@[simp] theorem mempoolFree_capacity (m : Mempool) (item : Addr) :
    (mempoolFree m item).capacity = m.capacity := rfl

@[simp] theorem mempoolFree_itemLen (m : Mempool) (item : Addr) :
    (mempoolFree m item).itemLen = m.itemLen := rfl

@[simp] theorem Mempool.length_freeList (m : Mempool) :
    m.freeList.length = m.capacity - m.allocated := by
  simp [Mempool.freeList]

/-- Allocation succeeds exactly when an item is free. -/
theorem mempoolAlloc_eq_none {m : Mempool} : mempoolAlloc m = none ↔ m.freeList = [] := by
  rw [← List.length_eq_zero_iff, Mempool.length_freeList]
  unfold mempoolAlloc
  split <;> simp <;> omega

/-- What an allocation does to the pool's fields. -/
theorem mempoolAlloc_eq_some {m m' : Mempool} {item : Addr} (h : mempoolAlloc m = some (item, m')) :
    m.allocated < m.capacity ∧ item = m.freeItems m.allocated ∧
      m' = { m with allocated := m.allocated + 1 } := by
  unfold mempoolAlloc at h
  split at h
  · simp at h
  · simp only [Option.some.injEq, Prod.mk.injEq] at h
    exact ⟨by omega, h.1.symm, h.2.symm⟩

/-- **Allocation takes the top of the free list.** -/
theorem freeList_of_mempoolAlloc {m m' : Mempool} {item : Addr}
    (h : mempoolAlloc m = some (item, m')) : m.freeList = item :: m'.freeList := by
  obtain ⟨hlt, rfl, rfl⟩ := mempoolAlloc_eq_some h
  obtain ⟨k, hk⟩ : ∃ k, m.capacity - m.allocated = k + 1 := ⟨m.capacity - m.allocated - 1, by omega⟩
  have hk' : m.capacity - (m.allocated + 1) = k := by omega
  simp [Mempool.freeList, hk, hk', List.range'_succ]

/-- A non-empty free list is what makes an allocation succeed. -/
theorem mempoolAlloc_of_freeList {m : Mempool} {item : Addr} {rest : List Addr}
    (h : m.freeList = item :: rest) :
    ∃ m', mempoolAlloc m = some (item, m') ∧ m'.freeList = rest ∧ m'.itemLen = m.itemLen := by
  rcases halloc : mempoolAlloc m with _ | ⟨item', m'⟩
  · rw [mempoolAlloc_eq_none] at halloc
    simp [halloc] at h
  -- the allocation takes the first item, which is the given one
  · have hlist := freeList_of_mempoolAlloc halloc
    rw [h] at hlist
    obtain ⟨rfl, rfl⟩ := List.cons.inj hlist
    obtain ⟨-, -, rfl⟩ := mempoolAlloc_eq_some halloc
    exact ⟨_, rfl, rfl, rfl⟩

/-- **Freeing puts the item on top of the free list**, as long as some item is out. -/
theorem freeList_mempoolFree {m : Mempool} (item : Addr) (hpos : 0 < m.allocated)
    (hle : m.allocated ≤ m.capacity) (hcap : m.capacity < 2 ^ 64) :
    (mempoolFree m item).freeList = item :: m.freeList := by
  -- with an item out, the index does not wrap around
  have hsub : WordArith.sizeSub m.allocated 1 = m.allocated - 1 :=
    WordArith.sizeSub_of_le hpos (by omega)
  have hlen : m.capacity - (m.allocated - 1) = (m.capacity - m.allocated) + 1 := by omega
  have hnext : m.allocated - 1 + 1 = m.allocated := by omega
  -- the item is stored below the free ones
  have hkeep : ∀ i ∈ List.range' m.allocated (m.capacity - m.allocated),
      Function.update m.freeItems (m.allocated - 1) item i = m.freeItems i := by
    intro i hi
    rw [List.mem_range'_1] at hi
    exact Function.update_of_ne (by omega) _ _
  simp only [Mempool.freeList, mempoolFree, hsub]
  rw [hlen, List.range'_succ, List.map_cons, Function.update_self, hnext,
    List.map_congr_left hkeep]

end Mlx5Netperf
