import Mlx5Netperf.Mlx5.ScatterList

/-!
# The Descriptor of an Accepted Send

What `mlx5_fill_tx_segment` leaves in the ring when it returns 0, read back as
the device reads it. The ring may have any power-of-two number of blocks below
4 GiB, and the send may start at any of them.
-/

namespace Mlx5Netperf

open ByteMemory ByteOrder WordArith

/-! ## Room -/

/-- The blocks in flight fit the ring, now and after the completions that a
full ring gathers. -/
def Accounted (cfg : Config) (fuel : ℕ) (st : State) : Prop :=
  ∀ st₁, st₁ = st ∨ gatherAndFree cfg fuel st = some st₁ →
    (nrInflightTx st₁.txq).toNat ≤ st₁.txq.sq.wqeCnt.toNat

/-- Between two calls of any run the ring is accounted for. -/
theorem SendInv.accounted {fuel reported : ℕ} {st : State} {q : SendFifo}
    (h : SendInv fuel reported st.txq st.heap st.trace q) (hpending : q.pending = [])
    (cfg : Config) : Accounted cfg fuel st := by
  rintro st₁ (rfl | hgather)
  · rw [h.nrInflightTx]
    exact h.run.wellFormed.fit
  · obtain ⟨st', q', hgather', hcompletes, -⟩ := gatherAndFree_spec cfg h hpending
    obtain rfl := Option.some.inj (hgather.symm.trans hgather')
    rw [hcompletes.inv.nrInflightTx]
    exact hcompletes.inv.run.wellFormed.fit

/-- With no completion waiting, gathering changes nothing but a doorbell. -/
theorem accounted_of_idle {st : State} (cfg : Config) (fuel : ℕ)
    (hidle : st.txq.txCq.status st.txq.cqHead = mlx5CqeInvalid)
    (hle : (nrInflightTx st.txq).toNat ≤ st.txq.sq.wqeCnt.toNat) : Accounted cfg fuel st := by
  rintro st₁ (rfl | hgather)
  · exact hle
  · have hloop : mlx5GatherCompletionsLoop sqCleanMax st = some ([], st) := by
      rw [show sqCleanMax = 31 + 1 from rfl, mlx5GatherCompletionsLoop, if_pos hidle]
    simp only [gatherAndFree, mlx5GatherCompletions, hloop, Option.map_some, Option.bind_some,
      mbufFreeAll] at hgather
    obtain rfl := Option.some.inj hgather
    exact hle

section Accepted

variable {cfg : Config} {fuel : ℕ} {st st' : State}

/-- A reservation that succeeds takes no more blocks than the ring has. -/
theorem Accounted.reserveWqes_le (hacc : Accounted cfg fuel st) {n : Int32} {st₁ : State}
    (h : reserveWqes cfg fuel st n = some (true, st₁)) :
    n.toUInt32.toNat ≤ st.txq.sq.wqeCnt.toNat := by
  -- an unsigned difference that does not wrap measures the free blocks
  have hroom : ∀ v : Mlx5Txq, sqFull v n = false → (nrInflightTx v).toNat ≤ v.sq.wqeCnt.toNat →
      n.toUInt32.toNat ≤ v.sq.wqeCnt.toNat := by
    intro v hfree hle
    rw [sqFull, decide_eq_false_iff_not, UInt32.lt_iff_toNat_lt,
      UInt32.toNat_sub_of_le _ _ (UInt32.le_iff_toNat_le.mpr hle)] at hfree
    omega
  have hsame := reserveWqes_sameRing h
  rw [← hsame.sq]
  unfold reserveWqes at h
  split at h
  · obtain ⟨st₂, hgather, heq⟩ := Option.map_eq_some_iff.mp h
    obtain ⟨hfree, rfl⟩ := Prod.mk.inj heq
    exact hroom _ (by simpa using hfree) (hacc _ (.inr hgather))
  · rename_i hfree
    have heq : st = st₁ := (Prod.mk.inj (Option.some.inj h)).2
    rw [← heq]
    exact hroom _ (by simpa using hfree) (hacc _ (.inl rfl))

/-- The stores of a descriptor only depend on what completions leave alone. -/
theorem State.SameRing.descriptorStores (h : st.SameRing st') (nodes : List Addr)
    (requestHeader : Option RequestHeader) (inlineLen : ℕ) (units : Int32) :
    Mlx5Netperf.descriptorStores st'.txq st'.heap nodes requestHeader inlineLen units =
      Mlx5Netperf.descriptorStores st.txq st.heap nodes requestHeader inlineLen units := by
  have hbuf : getSegment st'.txq st'.txq.currentIdx = getSegment st.txq st.txq.currentIdx := by
    rw [getSegment, getSegment, Mlx5Txq.currentIdx, Mlx5Txq.currentIdx, h.sq, h.sqHead,
      h.txSqLogStride]
  have hend : st'.txq.endPtr = st.txq.endPtr := by
    rw [Mlx5Txq.endPtr, Mlx5Txq.endPtr, h.sq]
  -- each part of the descriptor reads the ring through its geometry and head
  have hinline : ∀ offset data,
      mlx5InlineData st'.txq offset data = mlx5InlineData st.txq offset data := by
    intro offset data
    simp only [mlx5InlineData, hbuf, hend, h.sq]
  have hstep : dpsegStep st'.txq = dpsegStep st.txq := by
    funext heap curr acc
    simp only [dpsegStep, nextSegmentPtr, hend, h.sq]
  have hstart : dpsegStart st'.txq inlineLen = dpsegStart st.txq inlineLen := by
    simp only [dpsegStart, hbuf, hend, h.sq]
  have hheader : inlineStores st'.txq = inlineStores st.txq := by
    funext header
    simp only [inlineStores, hinline]
  simp only [Mlx5Netperf.descriptorStores, hbuf, hheader, hstart, headerStores, dpsegListStores,
    hstep, ctrlSegStores, h.qpNum, h.sqHead, h.heap]

/-- What an accepted send did, in terms of the state before it. -/
structure Accepted (st st' : State) (m : Addr) (requestHeader : Option RequestHeader)
    (inlineLen : ℕ) (nodes : List Addr) : Prop where
  mem : st'.mem = st.mem.stores (descriptorStores st.txq st.heap nodes requestHeader inlineLen
    (numUnits inlineLen (st.heap m).nbSegs))
  sqHead : st'.txq.sqHead =
    st.txq.sqHead + (numWqes (numUnits inlineLen (st.heap m).nbSegs)).toUInt32
  numWqes : (st'.heap m).numWqes =
    (numWqes (numUnits inlineLen (st.heap m).nbSegs)).toInt64.toUInt64
  fits : (Mlx5Netperf.numWqes (numUnits inlineLen (st.heap m).nbSegs)).toUInt32.toNat ≤
    st.txq.sq.wqeCnt.toNat

theorem mlx5FillTxSegment_accepted {m : Addr} {requestHeader : Option RequestHeader}
    {inlineLen : ℕ} {nodes : List Addr} (hacc : Accounted cfg fuel st)
    (hchain : st.heap.IsChain (some m) nodes)
    (h : mlx5FillTxSegment cfg fuel st m requestHeader inlineLen = some (0, st')) :
    Accepted st st' m requestHeader inlineLen nodes := by
  obtain ⟨st₁, nodes₁, hreserve, hchain₁, -, rfl⟩ := mlx5FillTxSegment_inv h
  have hsame := reserveWqes_sameRing hreserve
  rw [hsame.heap] at hchain₁
  -- the list is the one from before, since completions leave the mbufs alone
  obtain rfl := hchain₁.unique hchain
  refine ⟨?_, ?_, by simp [State.push], hacc.reserveWqes_le hreserve⟩
  · rw [hsame.descriptorStores, hsame.mem]
    rfl
  · rw [← hsame.sqHead]
    rfl

end Accepted

/-! ## The segments in the ring -/

section Segments

variable {v : Mlx5Txq} {base n : ℕ}

/-- The data segments of a descriptor are the units behind its header units. -/
theorem RingAt.dpsegListStores_start (h : RingAt v base n) (hsmall : 64 * n < 2 ^ 32)
    {inlineLen : ℕ} (hil : InlineLenOk inlineLen) (heap : Heap) (nodes : List Addr) :
    dpsegListStores v heap nodes (Mlx5Netperf.dpsegStart v inlineLen) =
      unitStores heap base n (4 * v.slot + hdrUnits inlineLen) nodes := by
  rw [h.dpsegStart hsmall hil, h.dpsegListStores_eq hsmall]

theorem hdrUnits_pos (inlineLen : ℕ) : 2 ≤ hdrUnits inlineLen := by
  unfold hdrUnits
  split <;> omega

theorem RingAt.unitAddr_slot (h : RingAt v base n) {j : ℕ} (hj : j < 4) :
    unitAddr base n (4 * v.slot + j) = base + 64 * v.slot + 16 * j := by
  have hlt := h.slot_lt
  rw [unitAddr, Nat.mod_eq_of_lt (by omega)]
  omega

/-- The Ethernet segment lies behind the control segment. -/
theorem le_addr_of_mem_ethSegStores {ptr inlineLen : ℕ} {s : Store}
    (hs : s ∈ ethSegStores ptr inlineLen) : ptr ≤ s.addr := by
  have hall : ∀ s ∈ ethSegStores ptr inlineLen, ptr ≤ s.addr := by simp [ethSegStores]
  exact hall s hs

/-- **The control segment stays what it was written**: nothing behind it reaches it. -/
theorem RingAt.read_qpnDs (h : RingAt v base n) (hsmall : 64 * n < 2 ^ 32) (mem : ByteMemory)
    (heap : Heap) {nodes : List Addr} (requestHeader : Option RequestHeader) {inlineLen : ℕ}
    (hil : InlineLenOk inlineLen) (units : Int32)
    (hlap : hdrUnits inlineLen + nodes.length ≤ 4 * n) :
    (mem.stores (descriptorStores v heap nodes requestHeader inlineLen units)).read
      (base + 64 * v.slot + 4) 4 = beBytes 4 (units.toUInt32 ||| (v.qpNum <<< 8)).toNat := by
  have hlt := h.slot_lt
  have hhdr := hdrUnits_pos inlineLen
  have hunit : unitAddr base n (4 * v.slot) = base + 64 * v.slot :=
    h.unitAddr_slot (j := 0) (by omega)
  rw [← le32_htobe32, descriptorStores, ctrlSegStores, h.getSegment_eq hsmall,
    h.dpsegListStores_start hsmall hil, List.append_assoc, List.append_assoc]
  show (mem.stores ([_, _, _] ++ ⟨base + 64 * v.slot + 4, le32 _⟩ ::
    ⟨base + 64 * v.slot, le32 _⟩ :: (ethSegStores _ _ ++ (headerStores _ _ _ ++
      unitStores _ _ _ _ _)))).read _ _ = _
  -- only the stores behind the word itself can reach it
  refine read_stores_of_apart fun t ht => ?_
  simp only [length_le32]
  simp only [List.mem_cons, List.mem_append] at ht
  rcases ht with rfl | heth | hheader | hdpseg
  · exact .inl (by simp)
  -- the Ethernet segment, the inlined header, the data segments
  · have hbehind := le_addr_of_mem_ethSegStores heth
    exact .inr (by simp only [sizeofCtrlSeg] at hbehind; omega)
  · rw [headerStores] at hheader
    split at hheader
    · cases requestHeader with
      | none => simp at hheader
      | some header =>
        simp only [Option.map_some, Option.getD_some] at hheader
        rcases h.inlineStores_misses hsmall hheader with hbefore | hafter
        · exact .inl (by omega)
        · exact .inr (by omega)
    · simp at hheader
  · rcases unitStores_misses (w := 4 * v.slot) (by omega) (by omega) hdpseg with hbefore | hafter
    · exact .inl (by omega)
    · exact .inr (by omega)

/-- The low byte of `qpn_ds` is the unit count. -/
theorem toNat_qpnDs_mod {units qpNum : UInt32} (h : units.toNat < 256) :
    (units ||| (qpNum <<< 8)).toNat % 256 = units.toNat := by
  -- the queue number is shifted out of the low byte
  have hshift : (qpNum <<< 8).toNat % 2 ^ 8 = 0 := by
    have hval : (qpNum <<< 8).toNat = qpNum.toNat * 2 ^ 8 % 2 ^ 32 := by
      simp [UInt32.toNat_shiftLeft, Nat.shiftLeft_eq]
    omega
  have hor := Nat.or_mod_two_pow (a := units.toNat) (b := (qpNum <<< 8).toNat) (n := 8)
  rw [hshift, Nat.or_zero, Nat.mod_eq_of_lt h] at hor
  rw [UInt32.toNat_or]
  exact hor

end Segments

/-! ## The scatter list decodes back -/

/-- The descriptor that an accepted send from `st` left in `st'`, as the device
reads it: the unit count, the data segments in order, where they were stored,
and how many blocks they took. -/
structure ScatterListDecodes (base n : ℕ) (st st' : State) (m : Addr)
    (requestHeader : Option RequestHeader) (inlineLen : ℕ) (nodes : List Addr) : Prop where
  dsCount : dsCount st'.mem base n st.txq.slot = hdrUnits inlineLen + nodes.length
  segments : (List.range nodes.length).map (fun i =>
      DataSeg.decode (unitAt st'.mem base n (4 * st.txq.slot + hdrUnits inlineLen + i))) =
    nodes.map fun a => DataSeg.ofMbuf (st.heap a)
  written : st'.mem = st.mem.stores (descriptorStores st.txq st.heap nodes requestHeader inlineLen
    (numUnits inlineLen (st.heap m).nbSegs))
  inside : ∀ s ∈ dpsegListStores st.txq st.heap nodes (dpsegStart st.txq inlineLen),
    ∀ x, s.Touches x → InBlocks base n st.txq.slot (st'.heap m).numWqes.toNat x
  reserved : st'.txq.sqHead = st.txq.sqHead + (st'.heap m).numWqes.toUInt32
  least : ∀ k, (st'.heap m).numWqes.toNat ≤ k ↔ hdrUnits inlineLen + nodes.length ≤ 4 * k

/-- **The scatter list decodes back from the posted descriptor.** -/
theorem scatter_list_decodes {cfg : Config} {fuel base n : ℕ} {st st' : State} {m : Addr}
    {requestHeader : Option RequestHeader} {inlineLen : ℕ} {nodes : List Addr}
    (hring : RingAt st.txq base n) (hsmall : 64 * n < 2 ^ 32) (hacc : Accounted cfg fuel st)
    (hil : InlineLenOk inlineLen) (hchain : st.heap.IsChain (some m) nodes)
    (hlen : nodes.length = (st.heap m).nbSegs.toNat) (hmax : nodes.length ≤ 32)
    (h : mlx5FillTxSegment cfg fuel st m requestHeader inlineLen = some (0, st')) :
    ScatterListDecodes base n st st' m requestHeader inlineLen nodes := by
  have hacced := mlx5FillTxSegment_accepted hacc hchain h
  have hhdr := hdrUnits_le hil
  have hslot := hring.slot_lt
  obtain ⟨h32, h64⟩ := numWqes_toNat hil (st.heap m).nbSegs (by omega)
  have hwqes : (st'.heap m).numWqes.toNat = wqeBlocks inlineLen nodes.length := by
    rw [hacced.numWqes, h64, hlen]
  have hfits := hacced.fits
  rw [h32, ← hlen, hring.wqeCnt] at hfits
  -- the blocks hold all units, and no more than the ring has
  have hunits : 4 * wqeBlocks inlineLen nodes.length ≥ hdrUnits inlineLen + nodes.length := by
    unfold wqeBlocks
    omega
  have hlap : hdrUnits inlineLen + nodes.length ≤ 4 * n := by omega
  refine ⟨?_, ?_, hacced.mem, ?_, ?_, ?_⟩
  · -- the unit count in the control segment
    have htotal : (numUnits inlineLen (st.heap m).nbSegs).toUInt32.toNat =
        hdrUnits inlineLen + nodes.length := by
      rw [numUnits_eq hil, Int32.toUInt32_ofNat', UInt32.toNat_ofNat']
      omega
    have hlt : beValue (beBytes 4 ((numUnits inlineLen (st.heap m).nbSegs).toUInt32 |||
        (st.txq.qpNum <<< 8)).toNat) = _ := beValue_beBytes_of_lt (UInt32.toNat_lt _)
    rw [Mlx5Netperf.dsCount, readCircular_of_le _ (by omega), ← Nat.add_assoc, hacced.mem,
      hring.read_qpnDs hsmall _ _ _ hil _ hlap, hlt, toNat_qpnDs_mod (by omega), htotal]
  · -- the data segments, written last
    rw [hacced.mem, descriptorStores, stores_append, hring.dpsegListStores_start hsmall hil]
    have hread := congrArg (List.map DataSeg.decode) (read_unitStores
      st.heap base (4 * st.txq.slot + hdrUnits inlineLen)
      (st.mem.stores (ctrlSegStores st.txq (getSegment st.txq st.txq.currentIdx)
        (numUnits inlineLen (st.heap m).nbSegs) ++
        ethSegStores (getSegment st.txq st.txq.currentIdx + sizeofCtrlSeg) inlineLen ++
        headerStores st.txq requestHeader inlineLen)) (by omega : nodes.length ≤ 4 * n))
    simpa only [List.map_map, Function.comp_def, unitAt_eq, DataSeg.decode_dataSegBytes]
      using hread
  · intro s hs x htouch
    rw [hring.dpsegListStores_start hsmall hil] at hs
    obtain ⟨i, hi, hlo, hhi⟩ := unit_of_mem_unitStores hs
    rw [hwqes]
    obtain ⟨hge, hlt⟩ := htouch
    rw [Nat.add_assoc] at hlo hhi
    exact inBlocks_of_unit (j := hdrUnits inlineLen + i) (by omega) (by omega) (by omega)
  · rw [hacced.sqHead, hacced.numWqes]
    congr 1
    rw [← UInt32.toNat_inj, h32, UInt64.toNat_toUInt32, h64, ← hlen]
    exact (Nat.mod_eq_of_lt (by omega)).symm
  · intro k
    rw [hwqes, wqeBlocks]
    omega

/-- A scatter list of three nodes to send at `sqHead` on an idle ring. -/
def idleRing (wqeCnt sqHead : UInt32) : State :=
  { State.zeroed wqeCnt 4 with
    heap := fun a =>
      { Mbuf.zeroed with next := if a = 1 then some 2 else if a = 2 then some 3 else none, nbSegs := 3 }
    txq := { Mlx5Txq.zeroed 0x10000 wqeCnt with sqHead := sqHead, trueCqHead := sqHead } }

section IdleRing

variable {wqeCnt sqHead : UInt32}

theorem idleRing_ring {k : ℕ} (hpow : wqeCnt.toNat = 2 ^ k) :
    RingAt (idleRing wqeCnt sqHead).txq 0x10000 wqeCnt.toNat := by
  have hlt := wqeCnt.toNat_lt
  exact ⟨rfl, rfl, ⟨k, hpow⟩, rfl, rfl, by omega⟩

theorem idleRing_accounted (cfg : Config) (fuel : ℕ) :
    Accounted cfg fuel (idleRing wqeCnt sqHead) := by
  have hidle : (Cq.deviceOwned 128).status 0 = mlx5CqeInvalid := by decide +kernel
  refine accounted_of_idle cfg fuel hidle ?_
  have hzero : nrInflightTx (idleRing wqeCnt sqHead).txq = 0 := UInt32.sub_self _
  rw [hzero]
  exact Nat.zero_le _

theorem idleRing_chain : (idleRing wqeCnt sqHead).heap.IsChain (some 1) [1, 2, 3] :=
  .cons (.cons (.cons .nil))

/-- On a ring that has the blocks, the three nodes are accepted. -/
theorem idleRing_accepted (wqeCnt sqHead : UInt32) (cfg : Config)
    (requestHeader : Option RequestHeader) (inlineLen : ℕ)
    (hheader : 0 < inlineLen → requestHeader ≠ none)
    (hroom : sqFull (idleRing wqeCnt sqHead).txq (numWqes (numUnits inlineLen 3)) = false) :
    ∃ st', mlx5FillTxSegment cfg 3 (idleRing wqeCnt sqHead) 1 requestHeader inlineLen =
      some (0, st') := by
  have hreserve : reserveWqes cfg 3 (idleRing wqeCnt sqHead) (numWqes (numUnits inlineLen 3)) =
      some (true, idleRing wqeCnt sqHead) := if_neg (ne_true_of_eq_false hroom)
  exact ⟨_, mlx5FillTxSegment_of_room hreserve
    (segmentStores_eq _ idleRing_chain le_rfl hheader)⟩

end IdleRing

/-- The three nodes are read back from a ring of four blocks, where the third
one is stored in the first block. -/
theorem scatter_list_decodes_lastBlock :
    ∃ st', mlx5FillTxSegment Config.default 3 (idleRing 4 3) 1 none 0 = some (0, st') ∧
      ScatterListDecodes 0x10000 4 (idleRing 4 3) st' 1 none 0 [1, 2, 3] := by
  obtain ⟨st', hfill⟩ := idleRing_accepted 4 3 Config.default none 0
    (by simp) (by decide +kernel)
  exact ⟨st', hfill, scatter_list_decodes (idleRing_ring (k := 2) rfl) (by decide)
    (idleRing_accounted _ _) (.inl rfl) idleRing_chain (by decide +kernel) (by decide) hfill⟩

/-- On a ring of four gigabytes the end of the ring is computed as its start,
and the third node is stored behind the ring. -/
theorem scatter_list_leaves_huge_ring :
    ¬ ∀ (cfg : Config) (fuel base n : ℕ) (st st' : State) (m : Addr)
      (requestHeader : Option RequestHeader) (inlineLen : ℕ) (nodes : List Addr),
      RingAt st.txq base n → Accounted cfg fuel st → InlineLenOk inlineLen →
      st.heap.IsChain (some m) nodes → nodes.length = (st.heap m).nbSegs.toNat →
      nodes.length ≤ 32 →
      mlx5FillTxSegment cfg fuel st m requestHeader inlineLen = some (0, st') →
      ScatterListDecodes base n st st' m requestHeader inlineLen nodes := by
  intro hclaim
  obtain ⟨st', hfill⟩ := idleRing_accepted 0x4000000 0x3ffffff Config.default none 0 (by simp)
    (by decide +kernel)
  have hdecodes := hclaim Config.default 3 0x10000 0x4000000 (idleRing 0x4000000 0x3ffffff) st' 1
    none 0 [1, 2, 3] (idleRing_ring (k := 26) rfl) (idleRing_accounted _ _) (.inl rfl)
    idleRing_chain (by decide +kernel) (by decide) hfill
  have hbehind : (dpsegListStores (idleRing 0x4000000 0x3ffffff).txq
      (idleRing 0x4000000 0x3ffffff).heap [1, 2, 3]
      (dpsegStart (idleRing 0x4000000 0x3ffffff).txq 0)).any
      (fun s => s.addr == 0x10000 + 2 ^ 32 && s.bytes.length == 4) = true := by
    decide +kernel
  obtain ⟨s, hs, hstore⟩ := List.any_eq_true.mp hbehind
  simp only [Bool.and_eq_true, beq_iff_eq] at hstore
  obtain ⟨j, -, hx⟩ := hdecodes.inside s hs (0x10000 + 2 ^ 32)
    ⟨by omega, by omega⟩
  omega

end Mlx5Netperf
