import Mlx5Netperf.Server.InFlight
import Mlx5Netperf.Server.RequestedData

/-!
# Replies Arrive as They Were Built

The regions that a client asked for are in the memory that the scatter list of its
reply names, from the moment the batch is processed until the completion of the reply
is gathered, whatever the server and the device do in the meantime.
-/

namespace Mlx5Netperf

open Transition PostRun SendFifo ByteMemory

/-! ## The data of a chain -/

/-- The data of an mbuf lie in an item that the chain holds, or in the working set. -/
def Holding.Covers (cfg : Config) (x : Holding) (b : Mbuf) : Prop :=
  (∃ a ∈ x.buffers ++ x.packets, a.toNat ≤ (mbufData b).toNat ∧
    (mbufData b).toNat + (mbufLength b).toNat ≤ a.toNat + 16384) ∨
  cfg.serverWorkingSet.toNat ≤ (mbufData b).toNat ∧
    (mbufData b).toNat + (mbufLength b).toNat ≤
      cfg.serverWorkingSet.toNat + cfg.workingSetSize.toNat

section Data

variable {cfg : Config} {fuel : ℕ} {x : Holding} {st st' st₁ : State} {nodes : List Addr} {m : Addr}
  {requests heads : List Addr}

/-- Data that a chain covers are the same while the chain is left alone. -/
theorem Untouched.gatherBytes (h : Untouched cfg x st st')
    (hnodes : ∀ a ∈ nodes, a ∈ x.mbufs ++ x.packets ∧ x.Covers cfg (st.heap a)) :
    gatherBytes st'.mem st'.heap nodes = gatherBytes st.mem st.heap nodes := by
  rw [Mlx5Netperf.gatherBytes, Mlx5Netperf.gatherBytes, List.flatMap_def, List.flatMap_def]
  refine congrArg List.flatten (List.map_congr_left fun a ha => ?_)
  obtain ⟨hmem, hcovers⟩ := hnodes a ha
  obtain ⟨k, hk⟩ := h.heap a hmem
  have hdata : mbufData (st'.heap a) = mbufData (st.heap a) := by
    rw [hk]
    rfl
  have hlength : mbufLength (st'.heap a) = mbufLength (st.heap a) := by
    rw [hk]
    rfl
  rw [hdata, hlength]
  refine read_congr fun p hlo hhi => ?_
  rcases hcovers with ⟨b, hb, hfrom, hto⟩ | ⟨hfrom, hto⟩
  · exact h.items b hb p (by omega) (by omega)
  · exact h.workingSet p (by omega) (by omega)

/-- **The replies of a batch** have their data in what they hold or in the working set. -/
theorem buildReplies_covers (hready : BatchReady cfg fuel st requests) (hws : WorkingSetOk cfg)
    (hfit : cfg.zeroCopy = false → 58 + cfg.numSegments.toNat * cfg.segmentSize.toNat ≤ 16384)
    (hbuild : buildReplies cfg fuel requests [] st = some (.ok heads, st₁)) (hm : m ∈ heads)
    (hholds : Holds cfg st₁.heap m x) : ∀ a ∈ x.mbufs ++ x.packets, x.Covers cfg (st₁.heap a) := by
  cases hzero : cfg.zeroCopy with
  | true =>
    obtain ⟨replies, hbatch, rfl⟩ :=
      buildReplies_zeroCopyBatch hzero hready.nodup hready.fresh hbuild
    obtain ⟨reply, hreply, rfl⟩ := List.mem_map.mp hm
    obtain ⟨segments, -, hlist⟩ := hbatch.list_of_mem hreply
    rw [← hlist.chain.unique hholds.chain]
    intro a ha
    obtain ⟨i, hi, rfl⟩ := List.mem_iff_getElem.mp ha
    have hlt : i < segments.length := by rwa [← hlist.holds.length_eq]
    obtain ⟨segment, hsegment⟩ : ∃ segment, HoldsSegment cfg segment (st₁.heap reply.2[i]) :=
      ⟨_, hlist.holds.get hi hlt⟩
    have hle := hws.mapped.region_le segment
    have hlength : cfg.segmentSize.toUInt32.toNat ≤ cfg.segmentSize.toNat := by
      rw [UInt64.toNat_toUInt32]
      exact Nat.mod_le _ _
    -- each mbuf of the list names a region
    refine .inr ?_
    rw [hsegment.data, hsegment.len, hws.mapped.region_toNat]
    exact ⟨by omega, by omega⟩
  | false =>
    obtain ⟨built, hrun, rfl⟩ := buildRun_of_ok hbuild
    obtain ⟨replies, hbatch, rfl⟩ := hrun.copyMbufs hzero hready.nodup
    obtain ⟨reply, hreply, rfl⟩ := List.mem_map.mp hm
    have hself := hbatch.heap reply hreply
    cases hholds with
    | scatterList _ hzc _ _ => simp [hzero] at hzc
    | packet _ hrelease _ _ => simp [hself, copyMbuf] at hrelease
    | copied _ _ _ _ hhead =>
      intro a ha
      obtain rfl : a = reply.1 := by simpa using ha
      -- the frame starts where the buffer does
      have hdata : mbufData (st₁.heap reply.1) = (st₁.heap reply.1).head := by
        rw [hself]
        simp [mbufData, copyMbuf, mbufInit]
      have hlength : (mbufLength (st₁.heap reply.1)).toNat ≤ 16384 := by
        have hheader : (UInt64.ofNat headerLen).toNat = 58 := rfl
        have hcomm := Nat.mul_comm cfg.segmentSize.toNat cfg.numSegments.toNat
        have hle := hfit hzero
        rw [hself]
        show cfg.copyLen.toNat ≤ 16384
        rw [Config.copyLen, UInt64.toNat_toUInt32, UInt64.toNat_add, UInt64.toNat_mul, hheader, hcomm]
        omega
      refine .inl ⟨_, List.mem_append_left _ (List.mem_singleton_self _), ?_⟩
      rw [hdata, hhead]
      exact ⟨le_rfl, by omega⟩

end Data

/-! ## Batches of the server -/

namespace ServerRun

section Batches

variable {cfg : Config} {fuel base n taken received : ℕ} {I : Holding} {r r₁ r₂ : ServerRun}
  {st : State} {pkt : Addr} {rest batch requests others : List Addr} {hs : List Holding}

/-- What was received of a request lies in its buffer. -/
def RequestsFit (cfg : Config) (heap : Heap) (requests : List Addr) : Prop :=
  ∀ request ∈ requests, rxBufHead.toNat + requestSpan cfg (heap request) ≤ 16384

/-- **Copied replies** are apart from each other and from what they are made of. -/
theorem copyLayout (h : HeldBy I st taken received (requests ++ others) hs)
    (hwhere : InMemory cfg fuel I base n) (hready : BatchReady cfg fuel st requests)
    (hplaced : ∀ m ∈ requests ++ others, PlacedPacket st.heap m)
    (hspan : RequestsFit cfg st.heap requests) (hzero : cfg.zeroCopy = false) :
    CopyLayout cfg st requests := by
  have hlayout := hwhere.layout
  have hfree : ∀ b ∈ st.txBufMempool.freeList, b ∈ I.buffers := fun b => h.buffers.free_mem_items
  refine ⟨hwhere.workingSet, hwhere.fit hzero, hready.nodup, hready.fresh, ?_, ?_, ?_⟩
  · -- the free buffers are items
    have hall := (List.pairwise_append.mp hlayout.items).1
    have hsymm : ∀ {a b : Addr}, RangesApart a.toNat 16384 b.toNat 16384 →
        RangesApart b.toNat 16384 a.toNat 16384 := fun hapart => hapart.symm
    exact (List.pairwise_append.mp (h.buffers.perm.symm.pairwise hall hsymm)).1
  · exact fun b hb => hlayout.workingSet b (List.mem_append_left _ (hfree b hb))
  · intro b hb request hrequest
    obtain ⟨ring, counters, hinv⟩ := h.packets
    have hpacket : request ∈ I.packets := hinv.conserved.mem_iff.mp
      (List.mem_append_right _ (List.mem_append_left _ (List.mem_append_left _ hrequest)))
    have hapart := hlayout.apart_packet (hfree b hb) hpacket
    have hfits := hspan request hrequest
    have hhead : rxBufHead.toNat = 128 := rfl
    rw [hlayout.placed_toNat hpacket (hplaced request (List.mem_append_left _ hrequest))]
    rcases hapart with hbefore | hafter
    · exact .inl (by omega)
    · exact .inr (by omega)

/-- A step into `post_mbufs` is the end of a batch whose replies were built. -/
theorem posting_of_step (hphase : r.phase = .burst (pkt :: rest) batch)
    (hstep : doServerStep cfg fuel r = some r₁) {rest' requests : List Addr}
    (hposting : r₁.phase = .posting rest' requests) :
    requests = batch ++ [pkt] ∧ rest' = rest ∧ ∃ heads st,
      prepareReplies cfg fuel requests r.st = some (.ok heads, st) ∧ r₁.st = st ∧
        remaining r₁.post.ctl = replyArgs cfg st heads := by
  unfold doServerStep at hstep
  rw [hphase] at hstep
  dsimp only at hstep
  unfold handlePacket at hstep
  split at hstep
  case h_1 hinvalid =>
    obtain ⟨st, -, rfl⟩ := Option.map_eq_some_iff.mp hstep
    simp at hposting
  case h_2 hvalid =>
    dsimp only at hstep
    split at hstep
    case isFalse hmore =>
      obtain rfl := Option.some.inj hstep
      simp at hposting
    case isTrue hfull =>
      unfold processBatch at hstep
      split at hstep
      case h_1 => simp at hstep
      case h_2 ret st hprepare =>
        -- an error goes on with the burst
        obtain ⟨⟨own, post⟩, -, rfl⟩ := Option.map_eq_some_iff.mp hstep
        simp at hposting
      case h_3 heads st hprepare =>
        obtain rfl := Option.some.inj hstep
        obtain ⟨rfl, rfl⟩ := ServerPhase.posting.inj hposting
        exact ⟨rfl, rfl, heads, st, hprepare, rfl, PostRun.remaining_loop _⟩

/-- **A reply is what its client asked for until it has been sent**: when a batch is
processed outside echo mode, without reference counting, the frame that the chain of a
reply gathers from memory, behind the header that was built for it, answers the
request as it stood before the batch, in every state of the run until the completion
of the reply is gathered. -/
theorem replies_answer_in_flight {i : ℕ} {request : Addr} (hwhere : InMemory cfg fuel I base n)
    (hecho : cfg.echoMode = false) (hcounting : cfg.usingRefCounting = false)
    (hsegment : cfg.zeroCopy = true → cfg.segmentSize.toNat < 2 ^ 32)
    (h : Reachable (Start I base n) (Step cfg fuel) r) (hphase : r.phase = .burst (pkt :: rest) batch)
    (hstep : doServerStep cfg fuel r = some r₁) (hposting : r₁.phase = .posting rest requests)
    (hspan : RequestsFit cfg r.st.heap requests) (hrequest : requests[i]? = some request)
    (hsteps : Relation.ReflTransGen (Step cfg fuel) r₁ r₂)
    (hflight : r₂.gathered ≤ r.lineup.length + i) :
    ∃ m nodes, r₂.lineup[r.lineup.length + i]? = some m ∧ r₂.st.heap.IsChain (some m) nodes ∧
      AnswersRequest cfg r.st request
        (transmittedFrame cfg { r₂.st with requestHeaders := r₁.st.requestHeaders } i nodes) := by
  obtain ⟨hinv, hloc⟩ := located_of_reachable hwhere h
  have hctl : r.post.ctl = none := hinv.idle (by simp [hphase])
  obtain ⟨rfl, -, heads, st, hprepare, rfl, hremaining⟩ := posting_of_step hphase hstep hposting
  -- the packets of the batch are with the program
  have hperm : (r.hands cfg.echoMode).Perm (batch ++ [pkt] ++ (rest ++ r.lost)) := by
    rw [hands, hphase]
    refine List.perm_iff_count.mpr fun a => ?_
    simp only [List.count_append, List.count_cons, List.count_nil]
    omega
  have hheld := (hinv.held_idle hctl).perm hperm
  have hready := hheld.batchReady hwhere.distinct hwhere.segments hwhere.fuel
  have hplaced : ∀ m ∈ batch ++ [pkt] ++ (rest ++ r.lost), PlacedPacket r.st.heap m :=
    fun m hm => hloc.packets m (hperm.mem_iff.mpr hm)
  obtain ⟨hs, hboth, -⟩ := hheld.exists_heldBy
  have hbuild : buildReplies cfg fuel (batch ++ [pkt]) [] r.st = some (.ok heads, r₁.st) := by
    rwa [prepareReplies, hecho, if_neg Bool.false_ne_true] at hprepare
  have hok : BatchOk cfg r.st (batch ++ [pkt]) :=
    ⟨hecho, hcounting, hwhere.workingSet, hready.nodup, hready.fresh, hsegment,
      copyLayout hboth hwhere hready hplaced hspan⟩
  -- its replies stand in line behind those before them
  obtain ⟨m, nodes, hhead, hchain, hframe⟩ := buildReplies_transmittedFrame hok hbuild hrequest
  have hline : r₁.lineup = r.lineup ++ heads := by
    obtain ⟨tail, htrace, hquiet⟩ := (prepared_of_prepareReplies hready hprepare).trace
    rw [lineup, lineup, hctl, hremaining, map_mbuf_replyArgs, htrace, Event.posts_append,
      Event.posts_eq_nil hquiet]
    simp [remaining]
  have hplace : r₁.lineup[r.lineup.length + i]? = some m := by
    rw [hline, List.getElem?_append_right (Nat.le_add_right _ _), Nat.add_sub_cancel_left, hhead]
  obtain ⟨hplace₂, x, hholds, hholds₂, huntouched⟩ :=
    in_flight_kept hwhere (h.step (.program hstep)) hsteps hplace hflight
  obtain rfl := hchain.unique hholds.chain
  have hcovers := buildReplies_covers hready hwhere.workingSet hwhere.fit hbuild
    (List.mem_of_getElem? hhead) hholds
  have hgather := huntouched.gatherBytes fun a ha => ⟨ha, hcovers a ha⟩
  refine ⟨m, _, hplace₂, hholds₂.chain, ?_⟩
  have hsame : transmittedFrame cfg { r₂.st with requestHeaders := r₁.st.requestHeaders } i
      (x.mbufs ++ x.packets) = replyFrame cfg r.st i request := by
    rw [← hframe, transmittedFrame, transmittedFrame]
    exact congrArg _ hgather
  rw [hsame, replyFrame]
  split
  · exact answersRequest_zeroCopyFrame hok.workingSet
  · exact answersRequest_copyFrame hok.workingSet _

end Batches

/-- The reply of the small server after it was posted. -/
theorem replies_answer_in_flight_smallServer : ∃ (r r₁ r₂ : ServerRun) (m : Addr)
    (nodes : List Addr), r.phase = .burst [0x400000] [] ∧ r₁.phase = .posting [] [0x400000] ∧
      r₂.post.ctl = none ∧ r₂.st.heap.IsChain (some m) nodes ∧
      AnswersRequest smallConfig r.st 0x400000
        (transmittedFrame smallConfig { r₂.st with requestHeaders := r₁.st.requestHeaders } 0 nodes) := by
  have hruns : (doServerStep smallConfig 32 smallReceived).bind (fun r =>
      (doServerStep smallConfig 32 r).bind fun r₁ => (doServerStep smallConfig 32 r₁).map fun r₂ =>
        (r.phase, r.lineup, decide (rxBufHead.toNat + requestSpan smallConfig (r.st.heap 0x400000) ≤
          16384), r₁.phase, r₂.post.ctl.isNone, r₂.gathered)) =
      some (.burst [0x400000] [], [], true, .posting [] [0x400000], true, 0) := by
    decide +kernel
  obtain ⟨r, hpoll, hrest⟩ := Option.bind_eq_some_iff.mp hruns
  obtain ⟨r₁, hprocess, hlast⟩ := Option.bind_eq_some_iff.mp hrest
  obtain ⟨r₂, hsend, heq⟩ := Option.map_eq_some_iff.mp hlast
  simp only [Prod.mk.injEq, decide_eq_true_eq] at heq
  obtain ⟨hphase, hlineup, hspan, hposting, hdone, hgathered⟩ := heq
  have hreach : Reachable (Start smallItems 0x10000 4) (Step smallConfig 32) r :=
    (smallPolled_reachable smallServer_start hpoll).mono fun _ _ h => h.step
  have hfit : RequestsFit smallConfig r.st.heap [0x400000] := by
    intro request hrequest
    rw [List.mem_singleton.mp hrequest]
    exact hspan
  obtain ⟨m, nodes, -, hchain, hanswers⟩ := replies_answer_in_flight (i := 0) smallServer_where rfl
    rfl (fun _ => by decide) hreach hphase hprocess hposting hfit rfl (.single (.program hsend))
    (by rw [hlineup, hgathered]; exact Nat.le_refl 0)
  exact ⟨r, r₁, r₂, m, nodes, hphase, hposting, Option.isNone_iff_eq_none.mp hdone, hchain, hanswers⟩

end ServerRun

end Mlx5Netperf
