import Mlx5Netperf.Mlx5.ScatterList
import Mlx5Netperf.Mlx5.FillTxSegment

/-!
# The Shape of a Chain

What a chain has to look like for `mlx5_fill_tx_segment`: closed by the null
pointer, as long as `nb_segs` says, and with the fields that its sender meant in
every mbuf. The descriptor then depends on these fields and on nothing else that
the memory of the mbufs holds.
-/

namespace Mlx5Netperf

open ByteMemory ByteOrder

/-! ## Descriptors from fields -/

/-- The three stores of the data segment `s`. -/
def dataSegStores (s : DataSeg) (ptr : ℕ) : List Store :=
  [⟨ptr, le32 (htobe32 s.byteCount)⟩, ⟨ptr + 8, le64 (htobe64 s.addr)⟩,
    ⟨ptr + 4, le32 (htobe32 s.lkey)⟩]

/-- The stores of the data segments `segs`, one unit of the ring each. -/
def dataSegListStores (v : Mlx5Txq) (segs : List DataSeg) (start : ℕ) : List Store :=
  (segs.foldl (fun acc s => (nextSegmentPtr v acc.1, acc.2 ++ dataSegStores s acc.1))
    (start, [])).2

/-- The stores of the descriptor of a packet that consists of the data `segs`. -/
def describedStores (v : Mlx5Txq) (segs : List DataSeg) (requestHeader : Option RequestHeader)
    (inlineLen : ℕ) : List Store :=
  ctrlSegStores v (getSegment v v.currentIdx)
      (numUnits inlineLen (UInt32.ofNat segs.length)) ++
    ethSegStores (getSegment v v.currentIdx + sizeofCtrlSeg) inlineLen ++
    headerStores v requestHeader inlineLen ++
    dataSegListStores v segs (dpsegStart v inlineLen)

/-- The loop over a scatter list reads the data segments of its mbufs only. -/
theorem dpsegListStores_eq_dataSegListStores (v : Mlx5Txq) (heap : Heap) (nodes : List Addr)
    (start : ℕ) :
    dpsegListStores v heap nodes start =
      dataSegListStores v (nodes.map fun a => DataSeg.ofMbuf (heap a)) start := by
  rw [dpsegListStores, dataSegListStores, List.foldl_map]
  rfl

/-! ## Well-formed chains -/

/-- The chain that starts at `m` is closed by the null pointer and as long as
`nb_segs` says; its data are `segs` and its release function is `release`. -/
structure ChainShape (heap : Heap) (m : Addr) (segs : List DataSeg) (release : ReleaseFn) :
    Prop where
  nodes : ∃ nodes, heap.IsChain (some m) nodes ∧ (heap m).nbSegs.toNat = nodes.length ∧
    nodes.map (fun a => DataSeg.ofMbuf (heap a)) = segs
  release : (heap m).release = some release

/-- What `mlx5_fill_tx_segment` stores for the chain that starts at `m` are the
stores for `segs`, whatever header it inlines. -/
def DescribedBy (st : State) (m : Addr) (segs : List DataSeg) : Prop :=
  ∀ fuel requestHeader inlineLen, segs.length ≤ fuel → (0 < inlineLen → requestHeader ≠ none) →
    segmentStores fuel st m requestHeader inlineLen (numUnits inlineLen (st.heap m).nbSegs) =
      some (describedStores st.txq segs requestHeader inlineLen)

namespace ChainShape

variable {heap heap' : Heap} {m : Addr} {segs : List DataSeg} {release : ReleaseFn}

theorem nbSegs_eq (h : ChainShape heap m segs release) :
    (heap m).nbSegs = UInt32.ofNat segs.length := by
  obtain ⟨nodes, -, hlength, rfl⟩ := h.nodes
  rw [List.length_map, ← hlength, UInt32.ofNat_toNat]

/-- **The descriptor of a well-formed chain** is made of its data segments. -/
theorem describedBy {st : State} (h : ChainShape st.heap m segs release) :
    DescribedBy st m segs := by
  intro fuel requestHeader inlineLen hfuel hheader
  have hnbSegs := h.nbSegs_eq
  obtain ⟨nodes, hchain, -, rfl⟩ := h.nodes
  rw [List.length_map] at hfuel
  rw [segmentStores_eq _ hchain hfuel hheader, descriptorStores,
    dpsegListStores_eq_dataSegListStores, hnbSegs]
  rfl

/-- The shape does not depend on `num_wqes`. -/
theorem sameButWqes (h : ChainShape heap m segs release) (hsame : heap.SameButWqes heap') :
    ChainShape heap' m segs release := by
  obtain ⟨nodes, hchain, hlength, hsegs⟩ := h.nodes
  refine ⟨⟨nodes, hsame.isChain hchain, ?_, ?_⟩, ?_⟩
  · obtain ⟨n, hn⟩ := hsame m
    rw [hn]
    exact hlength
  · rw [← hsegs]
    refine List.map_congr_left fun a _ => ?_
    obtain ⟨n, hn⟩ := hsame a
    rw [hn]
    rfl
  · obtain ⟨n, hn⟩ := hsame m
    rw [hn]
    exact h.release

/-- **A chain of one mbuf** has its shape exactly when it points nowhere and says
that it is alone. -/
theorem singleton_iff {s : DataSeg} (hdata : DataSeg.ofMbuf (heap m) = s)
    (hrelease : (heap m).release = some release) :
    ChainShape heap m [s] release ↔ (heap m).next = none ∧ (heap m).nbSegs = 1 := by
  constructor
  · intro h
    have hnbSegs : (heap m).nbSegs = 1 := h.nbSegs_eq
    obtain ⟨nodes, hchain, -, hsegs⟩ := h.nodes
    obtain ⟨a, rfl⟩ : ∃ a, nodes = [a] := by
      rw [← List.length_eq_one_iff, ← List.length_map, hsegs]
      rfl
    exact ⟨hchain.of_singleton.1, hnbSegs⟩
  · rintro ⟨hnext, hnbSegs⟩
    have hchain : heap.IsChain (some m) [m] := NullTerminated.isChain_singleton hnext
    exact ⟨⟨[m], hchain, by rw [hnbSegs]; rfl, by rw [← hdata]; rfl⟩, hrelease⟩

end ChainShape

/-! ## Sending leaves the other chains alone -/

theorem Heap.SameButWqes.trans {heap heap' heap'' : Heap} (h : heap.SameButWqes heap')
    (h' : heap'.SameButWqes heap'') : heap.SameButWqes heap'' := by
  intro a
  obtain ⟨n, hn⟩ := h a
  obtain ⟨n', hn'⟩ := h' a
  exact ⟨n', by rw [hn', hn]⟩

section Transmit

variable {cfg : Config} {fuel : ℕ}

/-- A call of `mlx5_transmit_one` writes no field of an mbuf but `num_wqes`. -/
theorem mlx5TransmitOne_sameButWqes {st st' : State} {m : Addr}
    {requestHeader : Option RequestHeader} {inlineLen ret : ℕ}
    (h : mlx5TransmitOne cfg fuel st m requestHeader inlineLen = some (ret, st')) :
    st.heap.SameButWqes st'.heap := by
  obtain ⟨⟨ctrl, st₁⟩, hpost, hrest⟩ := Option.bind_eq_some_iff.mp h
  obtain ⟨⟨code, st₂⟩, hfill, heq⟩ := Option.map_eq_some_iff.mp hpost
  obtain ⟨⟨room, st₃⟩, hreserve, hroom⟩ := Option.bind_eq_some_iff.mp hfill
  -- up to the descriptor
  have hfilled : st.heap.SameButWqes st₂.heap := by
    have hsame := (reserveWqes_sameRing hreserve).heap
    rw [← hsame]
    cases room with
    | false =>
      obtain ⟨-, rfl⟩ := Prod.mk.inj (Option.some.inj hroom)
      exact .refl _
    | true =>
      obtain ⟨stores, -, hpush⟩ := Option.map_eq_some_iff.mp hroom
      obtain ⟨-, rfl⟩ := Prod.mk.inj hpush
      exact st₃.heap.sameButWqes_modify m _
  have hst₁ : st₁ = st₂ := by
    dsimp only at heq
    split at heq <;> exact (Prod.mk.inj heq).2.symm
  subst hst₁
  cases ctrl with
  | none =>
    obtain ⟨-, rfl⟩ := Prod.mk.inj (Option.some.inj hrest)
    exact hfilled
  | some ctrl =>
    dsimp only at hrest
    split at hrest
    -- completions gathered after the send
    · obtain ⟨st₄, hgather, hlast⟩ := Option.map_eq_some_iff.mp hrest
      obtain ⟨-, rfl⟩ := Prod.mk.inj hlast
      rw [(gatherAndFree_sameRing hgather).heap]
      exact hfilled
    · obtain ⟨-, rfl⟩ := Prod.mk.inj (Option.some.inj hrest)
      exact hfilled

/-- Calls of `mlx5_transmit_one`, and whatever the device reports in between. -/
inductive Transmits (cfg : Config) (fuel : ℕ) (st : State) : State → Prop where
  | refl : Transmits cfg fuel st st
  | report {st' : State} (cq : Cq) (h : Transmits cfg fuel st st') :
      Transmits cfg fuel st { st' with txq := { st'.txq with txCq := cq } }
  | call {st' st'' : State} {m : Addr} {requestHeader : Option RequestHeader}
      {inlineLen ret : ℕ} (h : Transmits cfg fuel st st')
      (hcall : mlx5TransmitOne cfg fuel st' m requestHeader inlineLen = some (ret, st'')) :
      Transmits cfg fuel st st''

theorem Transmits.sameButWqes {st st' : State} (h : Transmits cfg fuel st st') :
    st.heap.SameButWqes st'.heap := by
  induction h with
  | refl => exact .refl _
  | report _ _ ih => exact ih
  | call _ hcall ih => exact ih.trans (mlx5TransmitOne_sameButWqes hcall)

end Transmit

end Mlx5Netperf
