import Mlx5Netperf.Mlx5.InlineHeader

/-!
# The Scatter List in the Ring

A posted descriptor read the way the device reads it: the unit count of the
control segment, then 16-byte units around the ring, each behind the header
units a data segment. Read so, an accepted send gives its scatter list back.
-/

namespace Mlx5Netperf

open ByteMemory ByteOrder WordArith

/-! ## Reading a descriptor (`mlx5dv.h`) -/

/-- `struct mlx5_wqe_data_seg` -/
structure DataSeg where
  byteCount : UInt32
  lkey : UInt32
  addr : UInt64
  deriving DecidableEq

/-- The fields of a data segment, all big-endian. -/
def DataSeg.decode (unit : List UInt8) : DataSeg where
  byteCount := UInt32.ofNat (beValue (unit.take 4))
  lkey := UInt32.ofNat (beValue ((unit.drop 4).take 4))
  addr := UInt64.ofNat (beValue ((unit.drop 8).take 8))

/-- The data segment that describes the data of an mbuf. -/
def DataSeg.ofMbuf (b : Mbuf) : DataSeg := ⟨mbufLength b, b.lkey, mbufData b⟩

/-- The bytes of the data segment of an mbuf. -/
def dataSegBytes (b : Mbuf) : List UInt8 :=
  beBytes 4 (mbufLength b).toNat ++ beBytes 4 b.lkey.toNat ++ beBytes 8 (mbufData b).toNat

theorem DataSeg.decode_dataSegBytes (b : Mbuf) :
    DataSeg.decode (dataSegBytes b) = DataSeg.ofMbuf b := by
  have hlen : (mbufLength b).toNat < 256 ^ 4 := (mbufLength b).toNat_lt
  have hlkey : b.lkey.toNat < 256 ^ 4 := b.lkey.toNat_lt
  have hdata : (mbufData b).toNat < 256 ^ 8 := (mbufData b).toNat_lt
  simp [DataSeg.decode, dataSegBytes, DataSeg.ofMbuf, List.drop_append,
    List.take_of_length_le, List.drop_eq_nil_of_le, beValue_beBytes_of_lt hlen,
    beValue_beBytes_of_lt hlkey, beValue_beBytes_of_lt hdata]

/-- The 16-byte unit number `u` of a ring of `n` blocks at `base`. -/
def unitAt (mem : ByteMemory) (base n u : ℕ) : List UInt8 :=
  mem.readCircular base (64 * n) (16 * u) 16

/-- The `ds` count: the low byte of `qpn_ds` in the control segment of block `slot`. -/
def dsCount (mem : ByteMemory) (base n slot : ℕ) : ℕ :=
  beValue (mem.readCircular base (64 * n) (64 * slot + 4) 4) % 256

theorem unitAt_eq (mem : ByteMemory) (base n u : ℕ) :
    unitAt mem base n u = mem.read (unitAddr base n u) 16 := by
  have hblock := mem.readCircular_block base 16 (4 * n) u (by omega)
  rw [show 16 * (4 * n) = 64 * n by omega] at hblock
  exact hblock

/-- The units of the blocks of a send lie in its blocks. -/
theorem inBlocks_of_unit {base n slot k j x : ℕ} (hj : j < 4 * k)
    (hlo : unitAddr base n (4 * slot + j) ≤ x) (hhi : x < unitAddr base n (4 * slot + j) + 16) :
    InBlocks base n slot k x := by
  unfold unitAddr at hlo hhi
  obtain ⟨r, rfl⟩ := Nat.exists_eq_add_of_le hlo
  refine ⟨16 * j + r, by omega, ?_⟩
  have hsplit : 64 * slot + (16 * j + r) = 16 * (4 * slot + j) + r := by omega
  have hdiv : (16 * (4 * slot + j) + r) / 16 = 4 * slot + j := by omega
  have hmod : (16 * (4 * slot + j) + r) % 16 = r := by omega
  -- a byte of a unit keeps its place in the unit on the way around
  have hround : (16 * (4 * slot + j) + r) % (16 * (4 * n)) = r + 16 * ((4 * slot + j) % (4 * n)) := by
    rw [Nat.mod_mul, hdiv, hmod]
  rw [hsplit, show 64 * n = 16 * (4 * n) by omega, hround]
  omega

/-! ## Data segments -/

/-- The three stores of a data segment fill one unit. -/
theorem read_dpsegStores (mem : ByteMemory) (b : Mbuf) (ptr : ℕ) :
    (mem.stores (dpsegStores b ptr)).read ptr 16 = dataSegBytes b := by
  have hapart : (dpsegStores b ptr).Pairwise Store.Apart := by
    simp [dpsegStores, Store.Apart]
  -- the three fields lie side by side in the unit
  have hcount := read_stores_of_pairwise (m := mem) hapart
    (s := ⟨ptr, le32 (htobe32 (mbufLength b))⟩) (by simp [dpsegStores])
  have hlkey := read_stores_of_pairwise (m := mem) hapart
    (s := ⟨ptr + 4, le32 (htobe32 b.lkey)⟩) (by simp [dpsegStores])
  have haddr := read_stores_of_pairwise (m := mem) hapart
    (s := ⟨ptr + 8, le64 (htobe64 (mbufData b))⟩) (by simp [dpsegStores])
  simp only [le32_htobe32, le64_htobe64, length_beBytes] at hcount hlkey haddr
  rw [show 16 = 4 + 4 + 8 by rfl, read_add, read_add, hcount, hlkey, haddr, dataSegBytes]

/-- The data segments of a scatter list, one unit each, from unit `u` on. -/
def unitStores (heap : Heap) (base n : ℕ) : ℕ → List Addr → List Store
  | _, [] => []
  | u, a :: nodes => dpsegStores (heap a) (unitAddr base n u) ++ unitStores heap base n (u + 1) nodes

/-- **The loop over the scatter list fills one unit after the other.** -/
theorem RingAt.dpsegListStores_eq {v : Mlx5Txq} {base n : ℕ} (h : RingAt v base n)
    (hsmall : 64 * n < 2 ^ 32) (heap : Heap) (nodes : List Addr) (u : ℕ) :
    dpsegListStores v heap nodes (unitAddr base n u) = unitStores heap base n u nodes := by
  -- the stores so far stay in front
  have hloop : ∀ acc, (nodes.foldl (fun acc a => dpsegStep v heap a acc)
      (unitAddr base n u, acc)).2 = acc ++ unitStores heap base n u nodes := by
    induction nodes generalizing u with
    | nil => simp [unitStores]
    | cons a nodes ih =>
      intro acc
      rw [List.foldl_cons, dpsegStep, h.nextSegmentPtr hsmall, ih, unitStores, List.append_assoc]
  simpa [dpsegListStores] using hloop []

section Units

variable {heap : Heap} {base n u : ℕ} {nodes : List Addr}

/-- Every store belongs to the unit of one of the nodes. -/
theorem unit_of_mem_unitStores {s : Store} (hs : s ∈ unitStores heap base n u nodes) :
    ∃ i < nodes.length, unitAddr base n (u + i) ≤ s.addr ∧
      s.addr + s.bytes.length ≤ unitAddr base n (u + i) + 16 := by
  induction nodes generalizing u with
  | nil => simp [unitStores] at hs
  | cons a nodes ih =>
    rcases List.mem_append.mp hs with hhead | htail
    · refine ⟨0, by simp, ?_⟩
      simp only [dpsegStores, List.mem_cons, List.not_mem_nil, or_false] at hhead
      rcases hhead with rfl | rfl | rfl <;> simp
    · obtain ⟨i, hi, hbounds⟩ := ih htail
      refine ⟨i + 1, by simpa using hi, ?_⟩
      rw [show u + (i + 1) = u + 1 + i by omega]
      exact hbounds

/-- Data segments keep away from the units in front of them, as long as they do not lap them. -/
theorem unitStores_misses {w : ℕ} (hw : w < u) (hlap : u + nodes.length ≤ w + 4 * n) {s : Store}
    (hs : s ∈ unitStores heap base n u nodes) : s.Misses (unitAddr base n w) 16 := by
  obtain ⟨i, hi, hlo, hhi⟩ := unit_of_mem_unitStores hs
  -- less than a lap apart, so in another place on the ring
  have hne : w % (4 * n) ≠ (u + i) % (4 * n) := CircularRing.mod_ne_of_lt (by omega) (by omega)
  rcases unitAddr_apart base hne with hbefore | hafter
  · exact .inr (hbefore.trans hlo)
  · exact .inl (hhi.trans hafter)

/-- The same for a run of units in a row. -/
theorem unitStores_misses_run {w c : ℕ} (hw : w + c ≤ u) (hlap : u + nodes.length ≤ w + 4 * n)
    {s : Store} (hs : s ∈ unitStores heap base n u nodes) :
    s.Misses (base + 16 * w) (16 * c) := by
  obtain ⟨i, hi, hlo, hhi⟩ := unit_of_mem_unitStores hs
  unfold unitAddr at hlo hhi
  -- the unit of the store is none of the run
  have hout : (u + i) % (4 * n) < w ∨ w + c ≤ (u + i) % (4 * n) := by
    by_contra hin
    have hne : (u + i) % (4 * n) % (4 * n) ≠ (u + i) % (4 * n) :=
      CircularRing.mod_ne_of_lt (by omega) (by omega)
    exact hne (Nat.mod_mod _ _)
  rcases hout with hbefore | hafter
  · exact .inl (by omega)
  · exact .inr (by omega)

/-- **Reading the units gives the scatter list back.** -/
theorem read_unitStores (heap : Heap) (base u : ℕ) (mem : ByteMemory) (hlap : nodes.length ≤ 4 * n) :
    (List.range nodes.length).map (fun i =>
      (mem.stores (unitStores heap base n u nodes)).read (unitAddr base n (u + i)) 16) =
      nodes.map fun a => dataSegBytes (heap a) := by
  induction nodes generalizing mem u with
  | nil => rfl
  | cons a nodes ih =>
    rw [List.length_cons] at hlap
    -- the later segments do not come back to this unit
    have hlater : ∀ s ∈ unitStores heap base n (u + 1) nodes, s.Misses (unitAddr base n u) 16 :=
      fun s hs => unitStores_misses (by omega) (by omega) hs
    have htail := ih (u + 1) (mem.stores (dpsegStores (heap a) (unitAddr base n u)))
      (by omega)
    simp only [Nat.add_right_comm u 1] at htail
    rw [List.length_cons, List.range_succ_eq_map, List.map_cons, List.map_map, unitStores,
      stores_append, Nat.add_zero u, read_stores_of_misses hlater, read_dpsegStores, List.map_cons]
    exact congrArg _ htail

end Units

end Mlx5Netperf
