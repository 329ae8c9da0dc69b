import Mlx5Netperf.FrameLengths
import Mlx5Netperf.Mlx5.DescriptorSpan
import Mlx5Netperf.Server.ServerCustody

/-!
# Memory of the Server

The send ring, the working set, the transmit buffers and the receive buffers lie
apart from each other. What the server stores while it builds replies then leaves the
bytes of every item alone that a chain holds, and the working set.
-/

namespace Mlx5Netperf

open ByteMemory

/-! ## The layout -/

/-- Where things lie: the items of both pools of buffers, the working set, and the send
ring with the bytes in front of it. -/
structure MemoryLayout (cfg : Config) (I : Holding) (base n : ℕ) : Prop where
  front : inlineSpill ≤ base
  items : (I.buffers ++ I.packets).Pairwise fun a b => RangesApart a.toNat 16384 b.toNat 16384
  top : ∀ a ∈ I.packets, a.toNat + 16384 ≤ 2 ^ 64
  ring : ∀ a ∈ I.buffers ++ I.packets,
    RangesApart (base - inlineSpill) (64 * n + inlineSpill) a.toNat 16384
  workingSet : ∀ a ∈ I.buffers ++ I.packets,
    RangesApart a.toNat 16384 cfg.serverWorkingSet.toNat cfg.workingSetSize.toNat
  ring_workingSet : RangesApart (base - inlineSpill) (64 * n + inlineSpill)
    cfg.serverWorkingSet.toNat cfg.workingSetSize.toNat

namespace MemoryLayout

variable {cfg : Config} {I : Holding} {base n : ℕ} {a b : Addr}

/-- Different items do not overlap. -/
theorem apart (h : MemoryLayout cfg I base n) (ha : a ∈ I.buffers ++ I.packets)
    (hb : b ∈ I.buffers ++ I.packets) (hne : a ≠ b) : RangesApart a.toNat 16384 b.toNat 16384 := by
  have hsymm : Std.Symm fun a b : Addr => RangesApart a.toNat 16384 b.toNat 16384 :=
    ⟨fun _ _ hapart => hapart.symm⟩
  exact h.items.forall ha hb hne

/-- No buffer is a packet. -/
theorem apart_packet (h : MemoryLayout cfg I base n) (ha : a ∈ I.buffers) (hb : b ∈ I.packets) :
    RangesApart a.toNat 16384 b.toNat 16384 :=
  (List.pairwise_append.mp h.items).2.2 a ha b hb

/-- The data of a packet lie in its buffer. -/
theorem placed_toNat (h : MemoryLayout cfg I base n) (ha : a ∈ I.packets) {heap : Heap}
    (hplaced : PlacedPacket heap a) : (mbufData (heap a)).toNat = a.toNat + 128 := by
  have htop := h.top a ha
  have hhead : (rxBufHead.toUInt64).toNat = 128 := rfl
  rw [hplaced, UInt64.toNat_add, hhead]
  omega

end MemoryLayout

/-! ## What is left alone -/

/-- A chain that holds `x` is as before: its mbufs but for `num_wqes`, the bytes of its
buffers and packets, and the working set. -/
structure Untouched (cfg : Config) (x : Holding) (st st' : State) : Prop where
  heap : ∀ a ∈ x.mbufs ++ x.packets, st.heap.SameAt st'.heap a
  items : ∀ a ∈ x.buffers ++ x.packets, AgreeOn st.mem st'.mem a.toNat 16384
  workingSet : AgreeOn st.mem st'.mem cfg.serverWorkingSet.toNat cfg.workingSetSize.toNat

namespace Untouched

variable {cfg : Config} {x : Holding} {st st' st'' : State}

theorem of_eq (hheap : ∀ a ∈ x.mbufs ++ x.packets, st'.heap a = st.heap a) (hmem : st'.mem = st.mem) :
    Untouched cfg x st st' where
  heap := fun a ha => .of_eq (hheap a ha)
  items := fun a _ => by rw [hmem]; exact .refl _ _ _
  workingSet := by rw [hmem]; exact .refl _ _ _

theorem trans (h : Untouched cfg x st st') (h' : Untouched cfg x st' st'') :
    Untouched cfg x st st'' where
  heap := fun a ha => (h.heap a ha).trans (h'.heap a ha)
  items := fun a ha => (h.items a ha).trans (h'.items a ha)
  workingSet := h.workingSet.trans h'.workingSet

end Untouched

/-! ## What building a batch stores -/

section Batch

variable {cfg : Config} {fuel pktIdx a n : ℕ} {st st' : State} {requests heads : List Addr}
  {res : Except Int32 (List Addr)}

/-- Copied replies are stored in free buffers, apart from the requests. -/
structure CopiesApart (cfg : Config) (st : State) (requests : List Addr) : Prop where
  fresh : ∀ r ∈ requests, r ∉ st.mbufMempool.freeList
  requests : ∀ r ∈ requests, ∀ buffer ∈ st.txBufMempool.freeList,
    RangesApart buffer.toNat 16384 (mbufData (st.heap r)).toNat 46
  workingSet : ∀ buffer ∈ st.txBufMempool.freeList,
    RangesApart buffer.toNat 16384 cfg.serverWorkingSet.toNat cfg.workingSetSize.toNat

/-- **A batch of copied replies** is stored in buffers that were free. -/
theorem BuildRun.agreeOn (hrun : BuildRun cfg pktIdx requests st heads st')
    (hzero : cfg.zeroCopy = false) (hws : WorkingSetOk cfg)
    (hfit : 58 + cfg.numSegments.toNat * cfg.segmentSize.toNat ≤ 16384)
    (happart : CopiesApart cfg st requests)
    (hrange : ∀ buffer ∈ st.txBufMempool.freeList, RangesApart buffer.toNat 16384 a n) :
    AgreeOn st.mem st'.mem a n := by
  induction hrun with
  | nil => exact .refl _ _ _
  | @cons pktIdx request m requests heads st st₁ st' hround hrest ih =>
    have hrequest := List.mem_cons_self (a := request) (l := requests)
    have hcopy : ∀ m' ∈ st.mbufMempool.freeList, ∀ buffer ∈ st.txBufMempool.freeList,
        CopyApart cfg st request m' buffer := by
      intro m' hm' buffer hbuffer
      refine ⟨?_, happart.requests request hrequest buffer hbuffer, happart.workingSet buffer hbuffer⟩
      rintro rfl
      exact happart.fresh request hrequest hm'
    obtain ⟨buffer, hbuilt⟩ := buildReply_copyBuilt hzero hws hfit hcopy hround
    have hbuffer : buffer ∈ st.txBufMempool.freeList := by simp [hbuilt.buffers]
    -- what is free after this round was free before it
    have hmbufs : ∀ a ∈ st₁.mbufMempool.freeList, a ∈ st.mbufMempool.freeList := by
      simp +contextual [hbuilt.pool]
    have hbuffers : ∀ b ∈ st₁.txBufMempool.freeList, b ∈ st.txBufMempool.freeList := by
      simp +contextual [hbuilt.buffers]
    refine (hbuilt.agreeOn hfit (hrange buffer hbuffer)).trans
      (ih ⟨fun r hr hfree => ?_, fun r hr b hb => ?_, fun b hb => ?_⟩
        fun b hb => hrange b (hbuffers b hb))
    · exact happart.fresh r (List.mem_cons_of_mem _ hr) (hmbufs r hfree)
    · have hne : r ≠ m := fun heq =>
        happart.fresh r (List.mem_cons_of_mem _ hr) (by simp [hbuilt.pool, heq])
      rw [hbuilt.frame r hne]
      exact happart.requests r (List.mem_cons_of_mem _ hr) b (hbuffers b hb)
    · exact happart.workingSet b (hbuffers b hb)

/-- Sending packets back leaves their data where they are. -/
theorem echoRequests_data (h : echoRequests cfg requests heads st = (res, st')) (m : Addr) :
    mbufData (st'.heap m) = mbufData (st.heap m) := by
  induction requests generalizing heads st with
  | nil =>
    obtain ⟨-, rfl⟩ := Prod.mk.inj h
    rfl
  | cons request requests ih =>
    have hptr : mbufData ((echoRequest cfg request st).2.heap m) = mbufData (st.heap m) :=
      UInt64.toNat_inj.mp (headerPtr_echoRequest cfg request st m)
    rw [echoRequests] at h
    rcases hret : echoRequest cfg request st with ⟨ret, st₁⟩
    rw [hret] at h hptr
    dsimp only at h hptr
    split at h
    · obtain ⟨-, rfl⟩ := Prod.mk.inj h
      exact hptr
    · exact (ih h).trans hptr

end Batch

/-! ## Held items and the others -/

section Held

variable {cfg : Config} {fuel base n : ℕ} {I x : Holding} {st st₁ : State} {taken received : ℕ}
  {own others requests heads : List Addr} {hs : List Holding} {a b : Addr}

/-- The items that a chain holds are items of the pools. -/
theorem HeldBy.mem_items (h : HeldBy I st taken received own hs) (hx : x ∈ hs)
    (ha : a ∈ x.buffers ++ x.packets) : a ∈ I.buffers ++ I.packets := by
  obtain ⟨ring, counters, hinv⟩ := h.packets
  rcases List.mem_append.mp ha with hbuffer | hpacket
  · exact List.mem_append_left _
      (h.buffers.mem_items (List.mem_flatMap.mpr ⟨x, hx, hbuffer⟩))
  · refine List.mem_append_right _ (hinv.conserved.mem_iff.mp ?_)
    exact List.mem_append_right _ (List.mem_append_right _ (List.mem_flatMap.mpr ⟨x, hx, hpacket⟩))

/-- The packets that the program has are apart from what a chain holds. -/
theorem HeldBy.apart_own (h : HeldBy I st taken received own hs) (hI : I.Distinct)
    (hlayout : MemoryLayout cfg I base n) (hx : x ∈ hs) (ha : a ∈ x.buffers ++ x.packets)
    (hb : b ∈ own) : b ∈ I.packets ∧ RangesApart b.toNat 16384 a.toNat 16384 := by
  have hitem := h.mem_items hx ha
  obtain ⟨ring, counters, hinv⟩ := h.packets
  have hpacket : b ∈ I.packets := hinv.conserved.mem_iff.mp
    (List.mem_append_right _ (List.mem_append_left _ hb))
  refine ⟨hpacket, ?_⟩
  rcases List.mem_append.mp ha with hbuffer | hheld
  · have hmem := h.buffers.mem_items (List.mem_flatMap.mpr ⟨x, hx, hbuffer⟩)
    exact (hlayout.apart_packet hmem hpacket).symm
  · refine hlayout.apart (List.mem_append_right _ hpacket) hitem ?_
    rintro rfl
    exact (h.apart hI hx (List.mem_append_right _ hheld)).2.1 hb

/-- The free buffers are apart from what a chain holds. -/
theorem HeldBy.apart_free (h : HeldBy I st taken received own hs) (hI : I.Distinct)
    (hlayout : MemoryLayout cfg I base n) (hx : x ∈ hs) (ha : a ∈ x.buffers ++ x.packets)
    (hb : b ∈ st.txBufMempool.freeList) : RangesApart b.toNat 16384 a.toNat 16384 := by
  have hitem := h.mem_items hx ha
  have hfree := h.buffers.free_mem_items hb
  rcases List.mem_append.mp ha with hbuffer | hheld
  · refine hlayout.apart (List.mem_append_left _ hfree) hitem ?_
    rintro rfl
    exact h.buffers.not_free hI.buffers (List.mem_flatMap.mpr ⟨x, hx, hbuffer⟩) hb
  · obtain ⟨ring, counters, hinv⟩ := h.packets
    refine hlayout.apart_packet hfree (hinv.conserved.mem_iff.mp ?_)
    exact List.mem_append_right _ (List.mem_append_right _ (List.mem_flatMap.mpr ⟨x, hx, hheld⟩))

/-- The buffers that are posted are items of the pool that nobody has. -/
theorem HeldBy.posted (h : HeldBy I st taken received own hs) (hI : I.Distinct) {slot : ℕ}
    (hslot : slot < st.rxq.rxWq.wqeCnt.toNat) (hb : st.rxq.PostedIn slot b) :
    b ∈ I.packets ∧ b ∉ own ++ hs.flatMap Holding.packets := by
  obtain ⟨ring, counters, hinv⟩ := h.packets
  -- a posted buffer is one of the ring
  obtain ⟨bufs, hlength, hposted, hperm⟩ := hinv.ready.exists_slots
  have hring : b ∈ ring := by
    have hlt : slot < bufs.length := by
      rw [hlength]
      exact hslot
    have hsame := (hposted slot _ (List.getElem?_eq_getElem hlt)).buffer.symm.trans hb.buffer
    rw [← Option.some.inj hsame]
    exact hperm.mem_iff.mp (List.getElem_mem _)
  have hpacket : b ∈ I.packets := hinv.conserved.mem_iff.mp
    (List.mem_append_left _ (List.mem_append_right _ hring))
  refine ⟨hpacket, fun hout => ?_⟩
  have hnodup := hinv.conserved.nodup_iff.mpr hI.packets
  rw [List.append_assoc, List.nodup_append] at hnodup
  exact (List.nodup_append.mp hnodup.2.1).2.2 b hring b hout rfl

/-- They are apart from what a chain holds. -/
theorem HeldBy.apart_posted (h : HeldBy I st taken received own hs) (hI : I.Distinct)
    (hlayout : MemoryLayout cfg I base n) (hx : x ∈ hs) (ha : a ∈ x.buffers ++ x.packets)
    {slot : ℕ} (hslot : slot < st.rxq.rxWq.wqeCnt.toNat) (hb : st.rxq.PostedIn slot b) :
    RangesApart b.toNat 16384 a.toNat 16384 := by
  obtain ⟨hpacket, hout⟩ := h.posted hI hslot hb
  rcases List.mem_append.mp ha with hbuffer | hheld
  · have hmem := h.buffers.mem_items (List.mem_flatMap.mpr ⟨x, hx, hbuffer⟩)
    exact (hlayout.apart_packet hmem hpacket).symm
  · refine hlayout.apart (List.mem_append_right _ hpacket) (h.mem_items hx ha) ?_
    rintro rfl
    exact hout (List.mem_append_right _ (List.mem_flatMap.mpr ⟨x, hx, hheld⟩))

/-- What building a batch leaves alone: the send ring, the places of all packets that
the program has, and what the chains hold. -/
structure BatchKeeps (cfg : Config) (own : List Addr) (hs : List Holding) (st st' : State) : Prop where
  txq : st'.txq = st.txq
  packets : ∀ m ∈ own, PlacedPacket st'.heap m
  untouched : ∀ x ∈ hs, Untouched cfg x st st'

/-- **Zero-copy replies** store nothing. -/
theorem HeldBy.zeroCopy_keeps (h : HeldBy I st taken received own hs) (hI : I.Distinct)
    (hready : BatchReady cfg fuel st requests) (hzero : cfg.zeroCopy = true)
    (hplaced : ∀ m ∈ own, PlacedPacket st.heap m)
    (hbuild : buildReplies cfg fuel requests [] st = some (.ok heads, st₁)) :
    BatchKeeps cfg own hs st st₁ := by
  obtain ⟨replies, hbatch, -⟩ := buildReplies_zeroCopyBatch hzero hready.nodup hready.fresh hbuild
  -- the mbufs of the replies were free
  have hheap : ∀ a, a ∉ st.mbufMempool.freeList → st₁.heap a = st.heap a := by
    intro a ha
    refine hbatch.frame a fun hmem => ha ?_
    rw [hbatch.pool]
    exact List.mem_append_left _ hmem
  refine ⟨hbatch.txq, fun m hm => ?_, fun x hx => .of_eq (fun a ha => ?_) hbatch.mem⟩
  · unfold PlacedPacket
    rw [hheap m (h.packet_not_free hI (List.mem_append_left _ hm))]
    exact hplaced m hm
  · exact hheap a (h.apart hI hx ha).1

/-- **Copied replies** are stored in buffers that no chain holds. -/
theorem HeldBy.copy_keeps (h : HeldBy I st taken received (requests ++ others) hs) (hI : I.Distinct)
    (hlayout : MemoryLayout cfg I base n) (hready : BatchReady cfg fuel st requests)
    (hzero : cfg.zeroCopy = false) (hws : WorkingSetOk cfg)
    (hfit : 58 + cfg.numSegments.toNat * cfg.segmentSize.toNat ≤ 16384)
    (hplaced : ∀ m ∈ requests ++ others, PlacedPacket st.heap m)
    (hbuild : buildReplies cfg fuel requests [] st = some (.ok heads, st₁)) :
    BatchKeeps cfg (requests ++ others) hs st st₁ := by
  obtain ⟨built, hrun, -⟩ := buildRun_of_ok hbuild
  obtain ⟨replies, hbatch, -⟩ := hrun.copyMbufs hzero hready.nodup
  have hheap : ∀ a, a ∉ st.mbufMempool.freeList → st₁.heap a = st.heap a := by
    intro a ha
    refine hbatch.frame a fun hmem => ha ?_
    rw [hbatch.pool]
    exact List.mem_append_left _ hmem
  have hbuffers : ∀ b ∈ st.txBufMempool.freeList,
      RangesApart b.toNat 16384 cfg.serverWorkingSet.toNat cfg.workingSetSize.toNat :=
    fun b hb => hlayout.workingSet b (List.mem_append_left _ (h.buffers.free_mem_items hb))
  have hcopies : CopiesApart cfg st requests := by
    refine ⟨hready.fresh, fun r hr b hb => ?_, hbuffers⟩
    obtain ⟨ring, counters, hinv⟩ := h.packets
    have hpacket : r ∈ I.packets := hinv.conserved.mem_iff.mp
      (List.mem_append_right _ (List.mem_append_left _ (List.mem_append_left _ hr)))
    have hapart := hlayout.apart_packet (h.buffers.free_mem_items hb) hpacket
    rw [hlayout.placed_toNat hpacket (hplaced r (List.mem_append_left _ hr))]
    rcases hapart with hbefore | hafter
    · exact .inl (by omega)
    · exact .inr (by omega)
  refine ⟨hbatch.txq, fun m hm => ?_, fun x hx => ⟨fun a ha => ?_, fun a ha => ?_, ?_⟩⟩
  · unfold PlacedPacket
    rw [hheap m (h.packet_not_free hI (List.mem_append_left _ hm))]
    exact hplaced m hm
  · exact .of_eq (hheap a (h.apart hI hx ha).1)
  · exact hrun.agreeOn hzero hws hfit hcopies fun b hb => h.apart_free hI hlayout hx ha hb
  · exact hrun.agreeOn hzero hws hfit hcopies hbuffers

/-- **Packets that are sent back** are stored to in their headers only. -/
theorem HeldBy.echo_keeps (h : HeldBy I st taken received (requests ++ others) hs) (hI : I.Distinct)
    (hlayout : MemoryLayout cfg I base n) {res : Except Int32 (List Addr)}
    (hplaced : ∀ m ∈ requests ++ others, PlacedPacket st.heap m)
    (hecho : echoRequests cfg requests heads st = (res, st₁)) :
    BatchKeeps cfg (requests ++ others) hs st st₁ := by
  have hkeeps := echoRequests_keeps hecho
  -- the headers of a request lie in its buffer
  have hheaders : ∀ {a k : ℕ}, (∀ r ∈ requests, r ∈ I.packets ∧ RangesApart r.toNat 16384 a k) →
      AgreeOn st.mem st₁.mem a k := by
    intro a k hapart
    refine agreeOn_iff_read.mpr (echoRequests_read hecho fun r hr => ?_)
    obtain ⟨hpacket, hrange⟩ := hapart r hr
    rw [headerPtr, hlayout.placed_toNat hpacket (hplaced r (List.mem_append_left _ hr))]
    rcases hrange with hbefore | hafter
    · exact .inl (by omega)
    · exact .inr (by omega)
  refine ⟨by rw [hkeeps.rest], fun m hm => ?_, fun x hx => ⟨fun a ha => ?_, fun a ha => ?_, ?_⟩⟩
  · unfold PlacedPacket
    rw [echoRequests_data hecho]
    exact hplaced m hm
  · refine .of_eq (hkeeps.frame a fun hmem => ?_)
    exact (h.apart hI hx ha).2.1 (List.mem_append_left _ hmem)
  · exact hheaders fun r hr => h.apart_own hI hlayout hx ha (List.mem_append_left _ hr)
  · refine hheaders fun r hr => ?_
    obtain ⟨ring, counters, hinv⟩ := h.packets
    have hpacket : r ∈ I.packets := hinv.conserved.mem_iff.mp
      (List.mem_append_right _ (List.mem_append_left _ (List.mem_append_left _ hr)))
    exact ⟨hpacket, hlayout.workingSet r (List.mem_append_right _ hpacket)⟩

end Held

end Mlx5Netperf
