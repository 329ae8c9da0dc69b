import Mlx5Netperf.Mlx5.PostedDescriptor

/-!
# Is the Inlined Header Intact?

The 58 header bytes of an accepted send, read around the ring from 30 bytes into
its first block. They are the header exactly when the ring is below 4 GiB and
the send does not start in the last block.
-/

namespace Mlx5Netperf

open ByteMemory WordArith

/-- The header of an accepted send is in the ring, and its stores stay in the
blocks of the send. -/
structure HeaderIntact (base n : ℕ) (st st' : State) (m : Addr) (header : RequestHeader) :
    Prop where
  read : st'.mem.readCircular base (64 * n) (64 * st.txq.slot + 30) 58 = header.wireBytes
  inside : ∀ s ∈ inlineStores st.txq header, ∀ x, s.Touches x →
    InBlocks base n st.txq.slot (st'.heap m).numWqes.toNat x

/-- The stores of a descriptor with an inlined header. -/
theorem descriptorStores_some (v : Mlx5Txq) (heap : Heap) (nodes : List Addr)
    (header : RequestHeader) (units : Int32) :
    descriptorStores v heap nodes (some header) 58 units =
      (ctrlSegStores v (getSegment v v.currentIdx) units ++
        ethSegStores (getSegment v v.currentIdx + sizeofCtrlSeg) 58) ++
      inlineStores v header ++ dpsegListStores v heap nodes (dpsegStart v 58) := by
  rw [descriptorStores, headerStores, if_pos (by omega), Option.map_some, Option.getD_some]

section Ring

variable {v : Mlx5Txq} {base n : ℕ}

/-- Away from the last block the header is read back: the data segments come
behind it and do not lap it. -/
theorem RingAt.read_header (h : RingAt v base n) (hsmall : 64 * n < 2 ^ 32)
    (hinside : v.slot + 1 < n) (mem : ByteMemory) (heap : Heap) {nodes : List Addr}
    (header : RequestHeader) (units : Int32) (hlap : 6 + nodes.length ≤ 4 * n) :
    (mem.stores (descriptorStores v heap nodes (some header) 58 units)).readCircular base (64 * n)
      (64 * v.slot + 30) 58 = header.wireBytes := by
  have hil : InlineLenOk 58 := .inr ⟨by omega, by omega⟩
  -- the data segments are behind the six header units
  have hdpsegs : ∀ s ∈ unitStores heap base n (4 * v.slot + 6) nodes,
      s.Misses (base + 64 * v.slot + 30) 58 := by
    intro s hs
    rcases unitStores_misses_run (w := 4 * v.slot) (c := 6) (by omega) (by omega) hs with
      hbefore | hafter
    · exact .inl (by omega)
    · exact .inr (by omega)
  have hread : ∀ mem : ByteMemory, (mem.stores (consecutive (base + 64 * v.slot + 30)
      header.wirePieces)).read (base + 64 * v.slot + 30) 58 = header.wireBytes := by
    intro mem
    have hpieces := read_stores_consecutive mem (base + 64 * v.slot + 30) header.wirePieces
    rwa [header.flatten_wirePieces, header.length_wireBytes] at hpieces
  have hunits : hdrUnits 58 = 6 := rfl
  rw [readCircular_of_le _ (by omega), ← Nat.add_assoc, descriptorStores_some,
    h.dpsegListStores_start hsmall hil, hunits, stores_append,
    read_stores_of_misses hdpsegs, stores_append, h.inlineStores_inside hsmall hinside, hread]

/-- Away from the last block the header stays in the first two blocks. -/
theorem RingAt.inline_inBlocks (h : RingAt v base n) (hsmall : 64 * n < 2 ^ 32)
    (hinside : v.slot + 1 < n) {header : RequestHeader} {k : ℕ} (hk : 2 ≤ k) {s : Store}
    (hs : s ∈ inlineStores v header) {x : ℕ} (htouch : s.Touches x) :
    InBlocks base n v.slot k x := by
  rw [h.inlineStores_inside hsmall hinside] at hs
  have hbounds := bounds_of_mem_consecutive hs
  rw [header.flatten_wirePieces, header.length_wireBytes] at hbounds
  obtain ⟨hlo, hhi⟩ := htouch
  refine ⟨x - (base + 64 * v.slot), by omega, ?_⟩
  rw [Nat.mod_eq_of_lt (by omega)]
  omega

/-- **In the last block the header leaves the ring.** -/
theorem RingAt.inline_stray (h : RingAt v base n) (hsmall : 64 * n < 2 ^ 32)
    (hlast : v.slot + 1 = n) (header : RequestHeader) :
    ∃ s ∈ inlineStores v header, ∃ x, s.Touches x ∧ ∀ k, ¬ InBlocks base n v.slot k x := by
  have hbound := h.bound
  rw [h.inlineStores_last hsmall hlast]
  -- the UDP header is stored in front of the ring
  refine ⟨⟨sizeAdd base (2 ^ 64 - 26), header.packetHeader.udp.bytes⟩, by simp,
    sizeAdd base (2 ^ 64 - 26), ⟨le_rfl, by simp⟩, ?_⟩
  rintro k ⟨j, -, heq⟩
  have hring := Nat.mod_lt (64 * v.slot + j) (show 0 < 64 * n by omega)
  unfold sizeAdd at heq
  omega

/-- In a ring of 4 GiB or more every piece is stored its own length too far
behind the start of the header: the first header byte is never written. -/
theorem RingAt.inline_skips_first (h : RingAt v base n) (hhuge : 2 ^ 32 ≤ 64 * n)
    (header : RequestHeader) {s : Store} (hs : s ∈ inlineStores v header) :
    ¬ s.Touches (base + 64 * v.slot + 30) := by
  have hbound := h.bound
  have hslot := h.slot_lt
  obtain ⟨k, hk⟩ := h.pow
  -- the size of the ring in bytes is zero in 32 bits
  have hwrap : 64 * n % 2 ^ 32 = 0 := by
    have hk26 : 26 ≤ k := by
      by_contra hlt
      have hle : 2 ^ k ≤ 2 ^ 25 := Nat.pow_le_pow_right (by omega) (by omega)
      omega
    have hdvd : 2 ^ 32 ∣ 64 * n := by
      rw [hk, show 64 = 2 ^ 6 by rfl, ← pow_add]
      exact pow_dvd_pow 2 (by omega)
    exact Nat.mod_eq_zero_of_dvd hdvd
  -- so the ring seems to end where it starts, and every piece wraps around
  have hpiece : ∀ (offset : ℕ) (data : List UInt8), data.length ≤ 20 →
      mlx5InlineData v offset data =
        [⟨base + 64 * v.slot % 2 ^ 32 + 30 + data.length, data⟩] := by
    intro offset data hlen
    have hbehind : base + 64 * v.slot % 2 ^ 32 + 16 + 14 + offset ≥ base := by omega
    have hstart : sizeAdd base (sizeSub data.length
        (sizeSub base (base + 64 * v.slot % 2 ^ 32 + 16 + 14))) =
        base + 64 * v.slot % 2 ^ 32 + 30 + data.length := by
      unfold sizeAdd sizeSub
      omega
    have hleft : ¬ sizeSub base (base + 64 * v.slot % 2 ^ 32 + 30 + data.length) <
        data.length := by
      unfold sizeSub
      omega
    simp only [mlx5InlineData, h.endPtr, h.getSegment, h.buf, hwrap, sizeofCtrlSeg,
      offsetofInlineHdrStart, Nat.add_zero, hbehind, if_true, hstart, hleft, if_false]
  have hpieces : ∀ offset data, (offset, data) ∈ header.inlinePieces →
      8 ≤ data.length ∧ data.length ≤ 20 := by
    intro offset data hp
    simp only [RequestHeader.inlinePieces_eq, List.mem_cons, Prod.mk.injEq, List.not_mem_nil,
      or_false] at hp
    rcases hp with ⟨-, rfl⟩ | ⟨-, rfl⟩ | ⟨-, rfl⟩ | ⟨-, rfl⟩ | ⟨-, rfl⟩ <;> simp
  obtain ⟨⟨offset, data⟩, hp, hmem⟩ := List.mem_flatMap.mp hs
  obtain ⟨hge, hle⟩ := hpieces offset data hp
  simp only [hpiece offset data hle, List.mem_singleton] at hmem
  subst hmem
  rintro ⟨hlo, hhi⟩
  simp only at hlo hhi
  omega

end Ring

section Sends

variable {cfg : Config} {fuel base n : ℕ} {st : State} {m : Addr} {nodes : List Addr}

/-- The header of an accepted send that starts before the last block is intact. -/
theorem headerIntact_of_inside (hring : RingAt st.txq base n) (hsmall : 64 * n < 2 ^ 32)
    (hinside : st.txq.slot + 1 < n) (hacc : Accounted cfg fuel st)
    (hchain : st.heap.IsChain (some m) nodes) (hlen : nodes.length = (st.heap m).nbSegs.toNat)
    (hrange : nodes.length + 9 < 2 ^ 31) {header : RequestHeader} {st' : State}
    (h : mlx5FillTxSegment cfg fuel st m (some header) 58 = some (0, st')) :
    HeaderIntact base n st st' m header := by
  have hil : InlineLenOk 58 := .inr ⟨by omega, by omega⟩
  have hunits : hdrUnits 58 = 6 := rfl
  have hacced := mlx5FillTxSegment_accepted hacc hchain h
  obtain ⟨h32, h64⟩ := numWqes_toNat hil (st.heap m).nbSegs (by omega)
  -- a send of this length takes at least two blocks
  have hfits := hacced.fits
  rw [h32, hring.wqeCnt, wqeBlocks, hunits] at hfits
  refine ⟨?_, fun s hs x htouch => ?_⟩
  · rw [hacced.mem]
    exact hring.read_header hsmall hinside _ _ _ _ (by omega)
  · rw [hacced.numWqes, h64]
    refine hring.inline_inBlocks hsmall hinside ?_ hs htouch
    rw [wqeBlocks, hunits]
    omega

/-- In a ring of 4 GiB or more some header is not intact: the ring holds the
same first byte whatever the header is. -/
theorem exists_not_headerIntact_of_huge (hring : RingAt st.txq base n) (hhuge : 2 ^ 32 ≤ 64 * n)
    (hacc : Accounted cfg fuel st) (hchain : st.heap.IsChain (some m) nodes)
    {header₀ : RequestHeader} {st₀ : State}
    (haccept : mlx5FillTxSegment cfg fuel st m (some header₀) 58 = some (0, st₀)) :
    ∃ header st', mlx5FillTxSegment cfg fuel st m (some header) 58 = some (0, st') ∧
      ¬ HeaderIntact base n st st' m header := by
  let units := numUnits 58 (st.heap m).nbSegs
  let ptr := getSegment st.txq st.txq.currentIdx
  let front := st.mem.stores (ctrlSegStores st.txq ptr units ++
    ethSegStores (ptr + sizeofCtrlSeg) 58)
  let dpsegs := dpsegListStores st.txq st.heap nodes (dpsegStart st.txq 58)
  let first := front.stores dpsegs (base + 64 * st.txq.slot + 30)
  -- a header whose first byte is not the one the ring holds
  let zeroed := RequestHeader.zeroed
  let header : RequestHeader := { zeroed with
    packetHeader := { zeroed.packetHeader with
      eth := { zeroed.packetHeader.eth with dhost := #v[first + 1, 0, 0, 0, 0, 0] } } }
  obtain ⟨st', hfill⟩ := mlx5FillTxSegment_any_header haccept header
  refine ⟨header, st', hfill, fun hintact => ?_⟩
  have hslot := hring.slot_lt
  have hmem : st'.mem (base + 64 * st.txq.slot + 30) = first := by
    rw [(mlx5FillTxSegment_accepted hacc hchain hfill).mem, descriptorStores_some, stores_append,
      stores_append]
    exact stores_congr (stores_of_not_touches fun s hs => hring.inline_skips_first hhuge header hs)
      dpsegs
  have hread := congrArg List.head? hintact.read
  rw [head?_readCircular, Nat.mod_eq_of_lt (by omega), ← Nat.add_assoc, hmem] at hread
  have hbyte : header.wireBytes.head? = some (first + 1) := rfl
  rw [hbyte, Option.some.injEq] at hread
  exact absurd hread (by grind)

/-- **When the inlined header is intact.** Whatever the header contains, an
accepted send of it leaves exactly its 58 bytes in the ring and stores nothing
outside its blocks, if and only if the ring is below 4 GiB and the send does not
start in the last block. -/
theorem header_intact_iff (hring : RingAt st.txq base n) (htwo : 2 ≤ n)
    (hacc : Accounted cfg fuel st) (hchain : st.heap.IsChain (some m) nodes)
    (hlen : nodes.length = (st.heap m).nbSegs.toNat) (hrange : nodes.length + 9 < 2 ^ 31)
    (haccept : ∃ header st', mlx5FillTxSegment cfg fuel st m (some header) 58 = some (0, st')) :
    (∀ header st', mlx5FillTxSegment cfg fuel st m (some header) 58 = some (0, st') →
      HeaderIntact base n st st' m header) ↔
      64 * n < 2 ^ 32 ∧ st.txq.slot ≠ n - 1 := by
  obtain ⟨header₀, st₀, hfill₀⟩ := haccept
  have hslot := hring.slot_lt
  constructor
  · intro hall
    have hsmall : 64 * n < 2 ^ 32 := by
      by_contra hhuge
      obtain ⟨header, st', hfill, hnot⟩ :=
        exists_not_headerIntact_of_huge hring (by omega) hacc hchain hfill₀
      exact hnot (hall header st' hfill)
    refine ⟨hsmall, fun hlast => ?_⟩
    -- a send from the last block stores outside its blocks, whatever is inlined
    obtain ⟨s, hs, x, htouch, hout⟩ := hring.inline_stray hsmall (by omega) header₀
    exact hout _ ((hall header₀ st₀ hfill₀).inside s hs x htouch)
  · rintro ⟨hsmall, hnotlast⟩ header st' hfill
    exact headerIntact_of_inside hring hsmall (by omega) hacc hchain hlen hrange hfill

end Sends

/-- On an idle ring of four blocks every header sent from the first block is intact. -/
theorem header_intact_iff_firstBlock :
    (∀ header st', mlx5FillTxSegment Config.default 3 (idleRing 4 0) 1 (some header) 58 =
      some (0, st') → HeaderIntact 0x10000 4 (idleRing 4 0) st' 1 header) ↔
      64 * 4 < 2 ^ 32 ∧ (idleRing 4 0).txq.slot ≠ 4 - 1 :=
  header_intact_iff (idleRing_ring (k := 2) rfl) (by omega) (idleRing_accounted _ 3)
    idleRing_chain rfl (by decide)
    ⟨RequestHeader.zeroed, idleRing_accepted 4 0 Config.default _ 58 (by simp) (by decide +kernel)⟩

/-- On the same ring a header sent from the last block is not. -/
theorem header_not_intact_lastBlock :
    ∃ st', mlx5FillTxSegment Config.default 3 (idleRing 4 3) 1 (some RequestHeader.zeroed) 58 =
      some (0, st') ∧ ¬ HeaderIntact 0x10000 4 (idleRing 4 3) st' 1 RequestHeader.zeroed := by
  obtain ⟨st', hfill⟩ := idleRing_accepted 4 3 Config.default (some RequestHeader.zeroed) 58
    (by simp) (by decide +kernel)
  obtain ⟨s, hs, x, htouch, hout⟩ := RingAt.inline_stray
    (idleRing_ring (k := 2) rfl : RingAt (idleRing 4 3).txq 0x10000 _) (by decide) rfl
    RequestHeader.zeroed
  exact ⟨st', hfill, fun hintact => hout _ (hintact.inside s hs x htouch)⟩

end Mlx5Netperf
