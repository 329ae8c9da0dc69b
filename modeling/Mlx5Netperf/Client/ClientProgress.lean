import Mlx5Netperf.Client.ClientCustody
import Mlx5Netperf.Client.RoundTrips
import Mlx5Netperf.Server.ServerProgress

/-!
# The Client Goes On

A step of `do_client` can fail in four ways: there is no next request, an mbuf has no
buffer to go with it, the receive pool cannot replace what a burst takes, or a reply
carries an id that no request has. And it can leave what was allocated in two: with more
segments than a request has room for, and with more replies than the packet map has.
None of this happens when the pools are large enough, enough requests were prepared and
every reply is one to a request.
-/

namespace Mlx5Netperf

open SendFifo Transition

namespace WholeClient

variable {cfg : ClientConfig} {fuel duration horizon numRequests : ℕ} {I : Holding}
  {interval now : UInt64} {running : Bool} {r r' : WholeClient}

/-! ## Single calls -/

/-- A packet of the client holds one mbuf and one buffer. -/
theorem length_buffers_of_holds {heap : Heap} {m : Addr} {x : Holding}
    (h : Holds driver heap m x) : x.buffers.length = x.mbufs.length := by
  cases h with
  | scatterList hecho hzero => exact absurd hzero (by decide)
  | copied => rfl
  | packet hecho => exact absurd hecho (by decide)

/-- As many buffers are free as mbufs, or more. -/
theorem Inv.exists_buildClientPacket (h : Inv fuel I r) (hphase : r.phase = .idle)
    (hbuffers : I.mbufs.length ≤ I.buffers.length) (cfg : ClientConfig) (request : ClientRequest) :
    ∃ result, buildClientPacket cfg request r.st = some result := by
  obtain ⟨out, rest, hout, hrest, hheld⟩ := h.held
  rw [heads, hphase, List.forall₂_nil_left_iff] at hrest
  subst hrest
  rw [List.append_nil] at hheld
  have hpairs : (out.flatMap Holding.buffers).length = (out.flatMap Holding.mbufs).length := by
    have heach : ∀ x ∈ out, x.buffers.length = x.mbufs.length := by
      intro x hx
      obtain ⟨i, hi, rfl⟩ := List.mem_iff_getElem.mp hx
      exact length_buffers_of_holds (hout.get (hout.length_eq ▸ hi) hi).holds
    rw [List.length_flatMap, List.length_flatMap, List.map_congr_left heach]
  have hmbufs := hheld.mbufs.length_add
  have hfree := hheld.buffers.length_add
  unfold buildClientPacket
  split
  case h_1 => exact ⟨_, rfl⟩
  case h_2 pkt mbufs halloc =>
    have hpos : 0 < r.st.mbufMempool.freeList.length := by
      rw [freeList_of_mempoolAlloc halloc]
      exact Nat.succ_pos _
    split
    case h_1 hnone =>
      rw [mempoolAlloc_eq_none] at hnone
      rw [hnone, List.length_nil] at hfree
      omega
    case h_2 => exact ⟨_, rfl⟩

/-- A burst can be replaced. -/
theorem Inv.exists_gather (h : Inv fuel I r) (hphase : r.phase = .waiting)
    (hpackets : r.st.rxq.rxWq.wqeCnt.toNat + min 32 r.st.rxq.rxWq.wqeCnt.toNat ≤
      I.packets.length) : ∃ ms st, mlx5GatherRx r.st 32 = some (ms, st) := by
  obtain ⟨out, rest, hout, hrest, hheld⟩ := h.held
  have hnothing := flatMap_packets (holds_of_carries hout hrest)
  obtain ⟨ring, counters, hrx⟩ := hheld.packets
  have hconserved := hrx.conserved.length_eq
  have hfull := hrx.ready.full
  have hfits := hrx.ready.fits
  simp only [hnothing, hands, hphase, List.append_nil, List.length_append] at hconserved
  simp only at hfull hfits
  have hreturns := @ReceiveReady.returns_iff r.st r.taken 32 ring counters hrx.ready
  exact hreturns.mpr (by omega)

/-- A packet of the burst is one that was received, so it can be freed. -/
theorem Inv.exists_freePacket {pkt : Addr} {rest : List Addr} {account : ClientRun} {phase : ClientPhase}
    (h : Inv fuel I r) (hphase : r.phase = .burst (pkt :: rest)) :
    ∃ r', freePacket fuel pkt { r with account := account, phase := phase } = some r' := by
  obtain ⟨out, rest', -, -, hheld⟩ := h.held
  obtain ⟨ring, counters, hrx⟩ := hheld.packets
  have hreceived := hrx.hands pkt (by simp [hands, hphase])
  have hfree : mbufFree driver fuel r.st (some pkt) = some _ := (RxRun.mbufFree_received hreceived).1
  exact ⟨_, by rw [freePacket, st, hfree]; rfl⟩

/-! ## What the client writes to -/

/-- The next step stays inside what was allocated: the request that it copies into a
packet, the buffer that it copies to, and the packet map. -/
structure StaysInside (cfg : ClientConfig) (r : WholeClient) : Prop where
  request : r.phase = .idle → 8 + (clientPayloadSize cfg).toNat ≤ sizeofClientRequest
  buffer : r.phase = .idle →
    sizeofOutgoingHeader + (clientPayloadSize cfg).toNat ≤ reqMbufsSize.toNat
  entry : ∀ pkt rest payload len, r.phase = .burst (pkt :: rest) →
    checkValidPacket r.st.mem (r.st.heap pkt) cfg.clientMac = some (payload, len) →
      r.account.map.totalCount < maxIterations

/-- The map has an entry at most for each packet that was taken, and none yet for those
that are still to be looked at. -/
def Recorded (r : WholeClient) : Prop := r.account.map.totalCount + r.hands.length ≤ r.taken

theorem Init.recorded (h : Init I r) : Recorded r := by
  simp [Recorded, hands, h.account.map, h.phase]

/-- A packet leaves the burst, and at most one entry is made for it. -/
theorem Recorded.freePacket {pkt : Addr} {rest : List Addr} {account : ClientRun}
    (h : Recorded r) (hphase : r.phase = .burst (pkt :: rest))
    (hcount : account.map.totalCount ≤ r.account.map.totalCount + 1)
    (hfree : freePacket fuel pkt { r with account := account, phase := .burst rest } = some r') :
    Recorded r' := by
  obtain ⟨st, -, rfl⟩ := Option.map_eq_some_iff.mp hfree
  simp only [Recorded, hands, hphase, withState, List.length_cons] at h ⊢
  omega

theorem doClientStep_recorded (h : Recorded r)
    (hrun : doClientStep cfg fuel running now r = some r') : Recorded r' := by
  unfold doClientStep at hrun
  split at hrun
  case h_1 hphase =>
    split at hrun
    case isTrue =>
      obtain ⟨request, -, hmap⟩ := Option.bind_eq_some_iff.mp hrun
      obtain ⟨⟨result, st⟩, -, hresult⟩ := Option.map_eq_some_iff.mp hmap
      cases result with
      | error ret =>
        subst hresult
        simpa [Recorded, hands, hphase, withState] using h
      | ok pkt =>
        subst hresult
        simpa [Recorded, hands, hphase, withState] using h
    case isFalse =>
      obtain rfl := Option.some.inj hrun
      simpa [Recorded, hands, hphase] using h
  case h_2 pkt hphase =>
    obtain ⟨⟨ret, st⟩, -, hresult⟩ := Option.map_eq_some_iff.mp hrun
    dsimp only at hresult
    split at hresult
    case isTrue =>
      subst hresult
      simpa [Recorded, hands, hphase, withState] using h
    case isFalse =>
      subst hresult
      simpa [Recorded, hands, hphase, withState] using h
  case h_3 hphase =>
    obtain ⟨request, -, hmap⟩ := Option.bind_eq_some_iff.mp hrun
    split at hmap
    case isTrue =>
      obtain rfl := Option.some.inj hmap
      simpa [Recorded, hands, hphase] using h
    case isFalse =>
      split at hmap
      case isTrue =>
        obtain rfl := Option.some.inj hmap
        simpa [Recorded, hands, hphase] using h
      case isFalse =>
        -- what a poll takes is in the hands of the client
        obtain ⟨⟨ms, st⟩, -, rfl⟩ := Option.map_eq_some_iff.mp hmap
        simp only [Recorded, hands, hphase, withState, List.length_nil] at h ⊢
        omega
  case h_4 hphase =>
    obtain rfl := Option.some.inj hrun
    simpa [Recorded, hands, hphase] using h
  case h_5 pkt rest hphase =>
    unfold handleReply at hrun
    split at hrun
    case h_1 => exact h.freePacket hphase (Nat.le_succ _) hrun
    case h_2 payload len hvalid =>
      obtain ⟨request, -, hfree⟩ := Option.bind_eq_some_iff.mp hrun
      exact h.freePacket hphase le_rfl hfree
  case h_6 ret hphase =>
    obtain rfl := Option.some.inj hrun
    exact h

theorem Step.recorded (h : Recorded r) (hstep : Step cfg fuel duration horizon r r') :
    Recorded r' := by
  cases hstep with
  | reports hnic => exact h
  | receives hnic => exact h
  | program hfirst hnow hhorizon hrunning hrun =>
    have hafter := doClientStep_recorded h hrun
    exact hafter

/-- **The client stays inside** while the map has room for every packet it receives. -/
theorem Inv.staysInside (h : Inv fuel I r) (hrecorded : Recorded r)
    (hsegments : cfg.numSegments.toNat ≤ maxScatters) (hreceived : r.received ≤ maxIterations) :
    StaysInside cfg r := by
  have hpayload := clientPayloadSize_toNat hsegments
  have hscatters : maxScatters = 32 := rfl
  have hrequest : sizeofClientRequest = 272 := rfl
  have hheader : sizeofOutgoingHeader = 44 := rfl
  have hbuffer : reqMbufsSize.toNat = 16384 := rfl
  refine ⟨fun _ => by omega, fun _ => by omega, fun pkt rest payload len hphase _ => ?_⟩
  obtain ⟨out, rest', -, -, hheld⟩ := h.held
  obtain ⟨ring, counters, hrx⟩ := hheld.packets
  have htaken := hrx.received
  simp only [Recorded, hands, hphase, List.length_cons] at hrecorded htaken
  omega

/-! ## Every step -/

/-- The pools are large enough for the rings. -/
structure Sized (I : Holding) (r : WholeClient) : Prop where
  buffers : I.mbufs.length ≤ I.buffers.length
  packets : r.st.rxq.rxWq.wqeCnt.toNat + min 32 r.st.rxq.rxWq.wqeCnt.toNat ≤ I.packets.length

/-- **The client never crashes** in its main loop, and never leaves what was allocated: with
clean mbufs, pools of this size, requests of at most 32 segments, enough of them for the
time of the run and room in the map for what the device delivered, every state that it
reaches has a next step, as long as the reply it looks at is one to a request that was
sent. -/
theorem client_never_crashes (hI : I.Distinct) (hfuel : 1 ≤ fuel)
    (hsegments : cfg.numSegments.toNat ≤ maxScatters)
    (hwrap : horizon + interval.toNat ≤ 2 ^ 64) (hsome : 0 < numRequests)
    (henough : duration ≤ (numRequests - 1) * interval.toNat)
    (h : Reachable (fun r => CleanStart I r ∧ Start I interval numRequests r)
      (Step cfg fuel duration horizon) r) (hsized : Sized I r)
    (hreceived : r.received ≤ maxIterations) (hanswers : AnswersSent cfg r)
    (running : Bool) (now : UInt64) :
    StaysInside cfg r ∧ ∃ r', doClientStep cfg fuel running now r = some r' := by
  have hinv : Inv fuel I r := Reachable.invariant (P := Inv fuel I) (fun _ hstart => hstart.1.inv)
    (fun _ _ hinv hstep => hstep.inv hI hfuel hinv) h
  have hpaced : Paced interval numRequests duration horizon r :=
    Reachable.invariant (P := Paced interval numRequests duration horizon)
      (fun _ hstart => hstart.2.paced) (fun _ _ hpaced hstep => hstep.paced hwrap hpaced) h
  have hrecorded : Recorded r := Reachable.invariant (P := Recorded)
    (fun _ hstart => hstart.2.init.recorded) (fun _ _ hbefore hstep => hstep.recorded hbefore) h
  refine ⟨hinv.staysInside hrecorded hsegments hreceived, ?_⟩
  obtain ⟨next, hnext⟩ := hpaced.exists_request hsome henough
  unfold doClientStep
  split
  case h_1 hphase =>
    split
    case isTrue =>
      obtain ⟨result, hbuild⟩ := hinv.exists_buildClientPacket hphase hsized.buffers cfg next
      exact ⟨_, by rw [hnext, Option.bind_some, hbuild]; rfl⟩
    case isFalse => exact ⟨_, rfl⟩
  case h_2 pkt hphase =>
    obtain ⟨q, hq, hpending⟩ := hinv.ring
    have hlegal := hinv.legal pkt (by rw [heads, hphase]; exact List.mem_singleton_self _)
    rw [hq.run.outstanding_eq] at hlegal
    obtain ⟨ret, st', q', hcall, -⟩ := mlx5TransmitOne_spec driver hq hpending hlegal
    exact ⟨_, by rw [st, hcall]; rfl⟩
  case h_3 hphase =>
    rw [hnext, Option.bind_some]
    split
    case isTrue => exact ⟨_, rfl⟩
    case isFalse =>
      split
      case isTrue => exact ⟨_, rfl⟩
      case isFalse =>
        obtain ⟨ms, st', hcall⟩ := hinv.exists_gather hphase hsized.packets
        exact ⟨_, by rw [hcall]; rfl⟩
  case h_4 => exact ⟨_, rfl⟩
  case h_5 pkt rest hphase =>
    unfold handleReply
    split
    case h_1 => exact hinv.exists_freePacket hphase
    case h_2 payload len hvalid =>
      have hsent := hanswers pkt rest payload len hphase hvalid
      -- the last request that was sent is in the array, so those before it are
      obtain ⟨last, hlast, -⟩ := hpaced.last (r.stamped - 1) (by omega)
      obtain ⟨hlt, -⟩ := List.getElem?_eq_some_iff.mp hlast
      obtain ⟨request, hrequest⟩ : ∃ request,
          getClientReq r.account.requests (readU64 r.st.mem payload).toNat = some request :=
        ⟨_, List.getElem?_eq_getElem (by omega)⟩
      dsimp only
      rw [hrequest, Option.bind_some]
      exact hinv.exists_freePacket hphase
  case h_6 => exact ⟨_, rfl⟩

/-- The small client with a reply to its first packet, in a run of a thousand cycles. -/
theorem client_never_crashes_replyTaken : ∃ r : WholeClient, r.phase = .burst [0x400000] ∧
    StaysInside plainClient r ∧ ∃ r', doClientStep plainClient 32 true 700 r = some r' := by
  obtain ⟨r, hreach, hphase, -, hanswers, hreceived, hsize, -⟩ :=
    exists_replyTaken (fun r => CleanStart ServerRun.smallItems r ∧ Start ServerRun.smallItems 1000 2 r)
      ⟨smallClient_clean, smallClient_start fitMbuf⟩
  refine ⟨r, hphase, client_never_crashes ServerRun.smallItems_distinct (by decide) (by decide)
    (by decide) two_pos (by decide) (hreach.mono fun _ _ hstep => hstep.2) ⟨by decide, ?_⟩
    (hreceived.le.trans (by decide)) hanswers true 700⟩
  rw [hsize]
  decide

end WholeClient

end Mlx5Netperf
