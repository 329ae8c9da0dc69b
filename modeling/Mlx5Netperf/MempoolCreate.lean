import Mathlib.Order.CompletePartialOrder
import Mathlib.Data.Set.Lattice
import Mlx5Netperf.Lib.PageGrid
import Mlx5Netperf.State

/-!
# Creating a Memory Pool

`mempool_create` and `mempool_populate` of `mempool.c`, and `mempool_memory_init`
of `mlx5_init.c`: which items a pool starts with, and where they lie.
-/

namespace Mlx5Netperf

/-! ## The functions -/

/-- `struct mempool` with the fields that describe its memory. -/
structure RegionMempool extends Mempool where
  buf : Addr
  len : UInt64
  pgsize : UInt64

/-- A pool in static memory, before it is created. -/
def RegionMempool.zeroed : RegionMempool := ⟨⟨fun _ => 0, 0, 0, 0⟩, 0, 0, 0⟩

/-- `is_power_of_two` -/
def isPowerOfTwo (x : UInt64) : Prop := x ≠ 0 ∧ x &&& (x - 1) = 0

instance : DecidablePred isPowerOfTwo := fun x =>
  inferInstanceAs (Decidable (x ≠ 0 ∧ x &&& (x - 1) = 0))

/-- `m->free_items[m->capacity++] = item` -/
def Mempool.append (m : Mempool) (item : Addr) : Mempool :=
  { m with
    freeItems := Function.update m.freeItems m.capacity item
    capacity := m.capacity + 1 }

/-- `(char *)buf + pgsize * i + item_len * j` -/
def itemAt (buf : Addr) (pgsize itemLen : UInt64) (i j : ℕ) : Addr :=
  buf + pgsize * UInt64.ofNat i + itemLen * UInt64.ofNat j

/-- The two loops of `mempool_populate`. -/
def mempoolPopulateLoop (m : Mempool) (buf : Addr) (pgsize itemLen : UInt64)
    (nrPages itemsPerPage : ℕ) : Mempool :=
  (List.range nrPages).foldl (fun m i =>
    (List.range itemsPerPage).foldl (fun m j => m.append (itemAt buf pgsize itemLen i j)) m) m

/-- `mempool_populate`. The loop counters are of type `int`: `none` is an overflow
of one of them. `callocOk` says whether `calloc` returned an array. -/
def mempoolPopulate (callocOk : Bool) (m : RegionMempool) (buf : Addr)
    (len pgsize itemLen : UInt64) : Option (Int32 × RegionMempool) :=
  let itemsPerPage := pgsize / itemLen
  let nrPages := len / pgsize
  if !callocOk then some (-enomem, m)
  else if 2 ^ 31 ≤ nrPages.toNat ∨ (0 < nrPages.toNat ∧ 2 ^ 31 ≤ itemsPerPage.toNat) then none
  else some (0, { m with
    toMempool := mempoolPopulateLoop m.toMempool buf pgsize itemLen nrPages.toNat
      itemsPerPage.toNat })

/-- `mempool_create` -/
def mempoolCreate (callocOk : Bool) (m : RegionMempool) (buf : Addr)
    (len pgsize itemLen : UInt64) : Option (Int32 × RegionMempool) :=
  if itemLen = 0 ∨ ¬ isPowerOfTwo pgsize ∨ len % pgsize ≠ 0 then some (-einval, m)
  else
    let m := { m with
      allocated := 0, buf := buf, len := len, pgsize := pgsize, itemLen := itemLen.toNat }
    mempoolPopulate callocOk m buf len pgsize itemLen

def pgsize2mb : UInt64 := 2097152

/-- `mempool_memory_init`. `memMapAnom` maps a region of the given length; `none` is its
`MAP_FAILED`, which is no null pointer, so that the `memset` behind the test crashes. -/
def mempoolMemoryInit (memMapAnom : UInt64 → Option Addr) (callocOk : Bool) (m : RegionMempool)
    (mbufSize mbufsPerPage numPages : UInt64) : Option (Int32 × RegionMempool) :=
  let regionLen := mbufSize * mbufsPerPage * numPages
  (memMapAnom regionLen).bind fun buf =>
    if buf = 0 then some (1, m)
    else mempoolCreate callocOk m buf regionLen pgsize2mb mbufSize

/-! ## The free list of a new pool -/

/-- The items of a region, in the order in which they are handed out at first. -/
def poolItems (buf : Addr) (pgsize itemLen : UInt64) (nrPages : ℕ) : List Addr :=
  (PageGrid.offsets pgsize.toNat itemLen.toNat nrPages).map fun o => buf + UInt64.ofNat o

theorem itemAt_eq (buf : Addr) (pgsize itemLen : UInt64) (i j : ℕ) :
    itemAt buf pgsize itemLen i j =
      buf + UInt64.ofNat (pgsize.toNat * i + itemLen.toNat * j) := by
  rw [itemAt, UInt64.add_assoc, UInt64.ofNat_add, UInt64.ofNat_mul, UInt64.ofNat_mul,
    UInt64.ofNat_toNat, UInt64.ofNat_toNat]

/-- The loops append the items of the region. -/
theorem mempoolPopulateLoop_eq (m : Mempool) (buf : Addr) (pgsize itemLen : UInt64)
    (nrPages : ℕ) :
    mempoolPopulateLoop m buf pgsize itemLen nrPages (pgsize / itemLen).toNat =
      (poolItems buf pgsize itemLen nrPages).foldl Mempool.append m := by
  rw [mempoolPopulateLoop, poolItems, List.foldl_map, PageGrid.offsets, List.foldl_flatMap,
    UInt64.toNat_div]
  simp only [List.foldl_map, itemAt_eq]

/-- An item appended is the last to be handed out. -/
theorem Mempool.freeList_append {m : Mempool} (h : m.allocated ≤ m.capacity) (item : Addr) :
    (m.append item).freeList = m.freeList ++ [item] := by
  have hlen : m.capacity + 1 - m.allocated = (m.capacity - m.allocated) + 1 := by omega
  have hlast : m.allocated + (m.capacity - m.allocated) = m.capacity := by omega
  -- the items before it stay where they are
  have hkeep : ∀ i ∈ List.range' m.allocated (m.capacity - m.allocated),
      Function.update m.freeItems m.capacity item i = m.freeItems i := by
    intro i hi
    rw [List.mem_range'_1] at hi
    exact Function.update_of_ne (by omega) _ _
  simp only [Mempool.freeList, Mempool.append, hlen]
  rw [List.range'_1_concat, List.map_append, List.map_congr_left hkeep, hlast, List.map_singleton,
    Function.update_self]

/-- Appending items one after the other. -/
theorem Mempool.foldl_append (items : List Addr) {m : Mempool} (h : m.allocated ≤ m.capacity) :
    (items.foldl Mempool.append m).freeList = m.freeList ++ items ∧
      (items.foldl Mempool.append m).allocated = m.allocated ∧
      (items.foldl Mempool.append m).capacity = m.capacity + items.length := by
  induction items generalizing m with
  | nil => simp
  | cons item items ih =>
    have hle : (m.append item).allocated ≤ (m.append item).capacity := Nat.le_succ_of_le h
    obtain ⟨hfree, hallocated, hcapacity⟩ := ih hle
    refine ⟨?_, hallocated, ?_⟩
    · rw [List.foldl_cons, hfree, Mempool.freeList_append h, List.append_assoc,
        List.singleton_append]
    · rw [List.foldl_cons, hcapacity, List.length_cons]
      simp only [Mempool.append]
      omega

/-- **What a zeroed pool holds after `mempool_create` accepted its arguments.** -/
theorem mempoolCreate_zeroed {buf : Addr} {len pgsize itemLen : UInt64} (hitem : itemLen ≠ 0)
    (hpgsize : isPowerOfTwo pgsize) (hlen : len % pgsize = 0)
    (hpages : (len / pgsize).toNat < 2 ^ 31) (hitems : (pgsize / itemLen).toNat < 2 ^ 31) :
    ∃ pool, mempoolCreate true .zeroed buf len pgsize itemLen = some (0, pool) ∧
      pool.freeList = poolItems buf pgsize itemLen (len / pgsize).toNat ∧
      pool.allocated = 0 ∧
      pool.capacity = (poolItems buf pgsize itemLen (len / pgsize).toNat).length := by
  have hguard : ¬ (itemLen = 0 ∨ ¬ isPowerOfTwo pgsize ∨ len % pgsize ≠ 0) := by
    rintro (h | h | h)
    · exact hitem h
    · exact h hpgsize
    · exact h hlen
  have hcounters : ¬ (2 ^ 31 ≤ (len / pgsize).toNat ∨
      (0 < (len / pgsize).toNat ∧ 2 ^ 31 ≤ (pgsize / itemLen).toNat)) := by
    omega
  have hcreate : mempoolCreate true .zeroed buf len pgsize itemLen = some (0,
      ⟨mempoolPopulateLoop ⟨fun _ => 0, 0, 0, itemLen.toNat⟩ buf pgsize itemLen
        (len / pgsize).toNat (pgsize / itemLen).toNat, buf, len, pgsize⟩) := by
    rw [mempoolCreate, if_neg hguard]
    simp only [mempoolPopulate, Bool.not_true, Bool.false_eq_true, if_false, if_neg hcounters]
    rfl
  -- the pool is empty before the loops
  obtain ⟨hfree, hallocated, hcapacity⟩ := Mempool.foldl_append
    (poolItems buf pgsize itemLen (len / pgsize).toNat)
    (show (⟨fun _ => 0, 0, 0, itemLen.toNat⟩ : Mempool).allocated ≤ 0 from le_rfl)
  rw [mempoolPopulateLoop_eq] at hcreate
  refine ⟨_, hcreate, ?_, hallocated, ?_⟩
  · rw [hfree]
    rfl
  · rw [hcapacity, Nat.zero_add]

/-! ## Where the items lie -/

/-- The bytes of an item. -/
def itemBytes (itemLen : UInt64) (item : Addr) : Set ℕ :=
  Set.Ico item.toNat (item.toNat + itemLen.toNat)

/-- The items of a region of `len` bytes at `buf`, cut into pages. -/
structure LaidOut (buf : Addr) (len pgsize itemLen : UInt64) (items : List Addr) : Prop where
  count : items.length = pgsize.toNat / itemLen.toNat * (len.toNat / pgsize.toNat)
  nodup : items.Nodup
  nonnull : buf ≠ 0 → ∀ a ∈ items, a ≠ 0
  disjoint : items.Pairwise fun a b => Disjoint (itemBytes itemLen a) (itemBytes itemLen b)
  inside : ∀ a ∈ items, itemBytes itemLen a ⊆ Set.Ico buf.toNat (buf.toNat + len.toNat)
  -- pages of the region, and of the address space when the region starts on one
  page : ∀ a ∈ items, ∃ i < len.toNat / pgsize.toNat, itemBytes itemLen a ⊆
    Set.Ico (buf.toNat + pgsize.toNat * i) (buf.toNat + pgsize.toNat * (i + 1))
  aligned : pgsize.toNat ∣ buf.toNat → ∀ a ∈ items, ∀ x ∈ itemBytes itemLen a,
    x / pgsize.toNat = a.toNat / pgsize.toNat

section

variable {buf : Addr} {len pgsize itemLen : UInt64}

/-- An item's address does not wrap around. -/
theorem toNat_item (hitem : itemLen ≠ 0) (hlen : len % pgsize = 0)
    (hregion : buf.toNat + len.toNat ≤ 2 ^ 64) {o : ℕ}
    (ho : o ∈ PageGrid.offsets pgsize.toNat itemLen.toNat (len / pgsize).toNat) :
    (buf + UInt64.ofNat o).toNat = buf.toNat + o ∧ o + itemLen.toNat ≤ len.toNat := by
  have hpos : 0 < itemLen.toNat := WordArith.toNat_pos hitem
  have hdvd : pgsize.toNat ∣ len.toNat := by
    have hmod := congrArg UInt64.toNat hlen
    rw [UInt64.toNat_mod] at hmod
    exact Nat.dvd_of_mod_eq_zero hmod
  -- the last page ends where the region does
  have hend := PageGrid.end_le_region ho
  rw [UInt64.toNat_div, Nat.mul_div_cancel' hdvd] at hend
  refine ⟨?_, hend⟩
  rw [UInt64.toNat_add, UInt64.toNat_ofNat_of_lt' (by simp only [UInt64.size]; omega)]
  exact Nat.mod_eq_of_lt (by omega)

/-- **The items of a pool**: as many on every page, disjoint, inside the region and
none across the end of a page. -/
theorem laidOut_poolItems (hitem : itemLen ≠ 0) (hlen : len % pgsize = 0)
    (hregion : buf.toNat + len.toNat ≤ 2 ^ 64) :
    LaidOut buf len pgsize itemLen (poolItems buf pgsize itemLen (len / pgsize).toNat) := by
  have hpos : 0 < itemLen.toNat := WordArith.toNat_pos hitem
  -- an item is given by its offset
  have hmem : ∀ a ∈ poolItems buf pgsize itemLen (len / pgsize).toNat, ∃ o,
      o ∈ PageGrid.offsets pgsize.toNat itemLen.toNat (len / pgsize).toNat ∧
        a.toNat = buf.toNat + o ∧ o + itemLen.toNat ≤ len.toNat := by
    intro a ha
    obtain ⟨o, ho, rfl⟩ := List.mem_map.mp ha
    exact ⟨o, ho, toNat_item hitem hlen hregion ho⟩
  -- one item ends before the next one starts
  have hbehind : (poolItems buf pgsize itemLen (len / pgsize).toNat).Pairwise fun a b =>
      a.toNat + itemLen.toNat ≤ b.toNat := by
    rw [poolItems, List.pairwise_map]
    refine (PageGrid.pairwise_offsets ..).imp_of_mem fun {o o'} ho ho' hle => ?_
    rw [(toNat_item hitem hlen hregion ho).1, (toNat_item hitem hlen hregion ho').1]
    omega
  refine ⟨?count, ?nodup, ?nonnull, ?disjoint, ?inside, ?page, ?aligned⟩
  case count =>
    rw [poolItems, List.length_map, PageGrid.length_offsets, UInt64.toNat_div]
  case nodup =>
    refine hbehind.imp fun {a b} hle heq => ?_
    rw [heq] at hle
    omega
  case nonnull =>
    intro hbuf a ha heq
    obtain ⟨o, -, haddr, -⟩ := hmem a ha
    have hbuf' : 0 < buf.toNat := WordArith.toNat_pos hbuf
    rw [heq, UInt64.toNat_zero] at haddr
    omega
  case disjoint =>
    refine hbehind.imp fun {a b} hle => ?_
    rw [Set.disjoint_left]
    rintro x ⟨-, hlt⟩ ⟨hge, -⟩
    omega
  case inside =>
    rintro a ha x ⟨hge, hlt⟩
    obtain ⟨o, -, haddr, hend⟩ := hmem a ha
    exact ⟨by omega, by omega⟩
  case page =>
    intro a ha
    obtain ⟨o, ho, haddr, -⟩ := hmem a ha
    obtain ⟨i, hi, hstart, hend⟩ := PageGrid.page_of_mem ho
    refine ⟨i, by rwa [UInt64.toNat_div] at hi, ?_⟩
    rintro x ⟨hge, hlt⟩
    exact ⟨by omega, by omega⟩
  case aligned =>
    rintro hbase a ha x ⟨hge, hlt⟩
    obtain ⟨o, ho, haddr, -⟩ := hmem a ha
    rw [haddr] at hge hlt ⊢
    exact PageGrid.div_eq_of_mem hbase ho hge hlt

end

end Mlx5Netperf
