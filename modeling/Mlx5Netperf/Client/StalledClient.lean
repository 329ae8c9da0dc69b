import Mlx5Netperf.Client.WholeClient
import Mlx5Netperf.Mlx5.RefusedSend

/-!
# The First Packet of the Client

`mempool_memory_init` fills the pool of mbufs with the byte `DEFAULT_CHAR`, and
`do_client` does not set `nb_segs`. So its first packet asks for more blocks than any
send ring has: `mlx5_transmit_one` refuses it each time, and `while (sent != 1)` has
no other end.
-/

namespace Mlx5Netperf

open SendFifo Transition

/-! ## A chain that is too long -/

/-- **A chain that does not fit the ring at all** is refused, after one round of completions. -/
theorem mlx5TransmitOne_tooLong {cfg : Config} {fuel reported : ℕ} {st : State} {q : SendFifo}
    {m : Addr} {requestHeader : Option RequestHeader} {inlineLen : ℕ}
    (h : SendInv fuel reported st.txq st.heap st.trace q) (hpending : q.pending = [])
    (hlong : st.txq.sq.wqeCnt.toNat <
      (numWqes (numUnits inlineLen (st.heap m).nbSegs)).toUInt32.toNat) :
    ∃ st' q', mlx5TransmitOne cfg fuel st m requestHeader inlineLen = some (0, st') ∧
      Completes cfg fuel reported st q st' q' := by
  obtain ⟨room, st', q', hreserve, hcompletes, -, -⟩ :=
    reserveWqes_spec cfg (numWqes (numUnits inlineLen (st.heap m).nbSegs)) h hpending
  obtain ⟨room', st'', hreserve', hroom⟩ :=
    reserveWqes_room cfg h hpending (numWqes (numUnits inlineLen (st.heap m).nbSegs))
  obtain ⟨rfl, rfl⟩ := Prod.mk.inj (Option.some.inj (hreserve.symm.trans hreserve'))
  -- there is never that much room
  obtain rfl : room = false := by
    rw [← Bool.not_eq_true, hroom]
    omega
  refine ⟨st', q', ?_, hcompletes⟩
  simp [mlx5TransmitOne, mlx5PostTransmission, mlx5FillTxSegment, hreserve]

/-- On an idle ring a round of completions does nothing to the history. -/
theorem idle_kept (cfg : Config) (fuel reported : ℕ) (st : State) :
    KeptByCompletions cfg fuel reported fun st' q =>
      q.outstanding = [] ∧ q.pending = [] ∧ st'.trace = st.trace where
  gather := by
    rintro st' p s rest pending - ⟨houtstanding, -⟩
    cases houtstanding
  free := by
    rintro st₁ st₂ p outstanding m pending - ⟨-, hpending, -⟩
    cases hpending
  txq := fun _ h => h

/-- The blocks of a packet whose `nb_segs` is four times `DEFAULT_CHAR`. -/
theorem numWqes_defaultChar :
    (numWqes (numUnits 0 defaultCharMbuf.nbSegs)).toUInt32.toNat = 416864474 := by
  decide +kernel

namespace WholeClient

variable {cfg : ClientConfig} {fuel duration horizon : ℕ} {I : Holding} {now : UInt64}
  {running : Bool} {r r' : WholeClient}

/-! ## The invariant -/

/-- The client did not get beyond its first packet, and the send ring is as it was. -/
structure Stalled (fuel : ℕ) (r : WholeClient) : Prop where
  ring : ∃ q, SendInv fuel r.run.reported r.st.txq r.st.heap r.st.trace q ∧ q.pending = [] ∧
    q.outstanding = []
  posts : Event.posts r.st.trace = []
  current : r.account.current = 0
  idle : r.phase = .idle →
    ∀ a ∈ r.st.mbufMempool.freeList, (r.st.heap a).nbSegs = defaultCharMbuf.nbSegs
  sending : ∀ pkt, r.phase = .sending pkt → (r.st.heap pkt).nbSegs = defaultCharMbuf.nbSegs
  phase : r.phase ≠ .waiting ∧ ∀ rest, r.phase ≠ .burst rest

/-- The pool of mbufs as `mempool_memory_init` leaves it. -/
structure DefaultChar (I : Holding) (r : WholeClient) : Prop where
  init : Init I r
  nbSegs : ∀ a ∈ I.mbufs, (r.st.heap a).nbSegs = defaultCharMbuf.nbSegs

theorem DefaultChar.stalled (h : DefaultChar I r) : Stalled fuel r := by
  obtain ⟨q, hq, hpending⟩ := (h.init.run.inv : SendRun.Inv fuel r.run)
  have hposts : Event.posts r.st.trace = [] := by rw [h.init.run.trace]; rfl
  have houtstanding : q.outstanding = [] := by
    rw [← hq.run.outstanding_eq, h.init.run.trace]
    rfl
  refine ⟨⟨q, hq, hpending, houtstanding⟩, hposts, h.init.account.current, fun _ a ha => ?_, ?_, ?_⟩
  · rw [h.init.mbufs] at ha
    exact h.nbSegs a ha
  · simp [h.init.phase]
  · simp [h.init.phase]

/-! ## Steps -/

/-- Every send of the first packet is refused. -/
theorem Stalled.refused (h : Stalled fuel r) {pkt : Addr} (hphase : r.phase = .sending pkt) :
    ∃ st', mlx5TransmitOne driver fuel r.st pkt (some r.requestHeader) 0 = some (0, st') ∧
      Stalled fuel (r.withState st') := by
  obtain ⟨q, hq, hpending, houtstanding⟩ := h.ring
  have hsize : r.st.txq.sq.wqeCnt.toNat ≤ 2 ^ 16 := by
    obtain ⟨k, hk, hcnt⟩ := hq.size
    rw [hcnt]
    exact Nat.pow_le_pow_right two_pos hk
  have hlong : r.st.txq.sq.wqeCnt.toNat <
      (numWqes (numUnits 0 (r.st.heap pkt).nbSegs)).toUInt32.toNat := by
    rw [h.sending pkt hphase, numWqes_defaultChar]
    omega
  obtain ⟨st', q', hcall, hcompletes⟩ : ∃ st' q',
      mlx5TransmitOne driver fuel r.st pkt (some r.requestHeader) 0 = some (0, st') ∧
        Completes driver fuel r.run.reported r.st q st' q' :=
    mlx5TransmitOne_tooLong hq hpending hlong
  obtain ⟨houtstanding', hpending', htrace⟩ := hcompletes.kept
    (idle_kept driver fuel r.run.reported r.st) ⟨houtstanding, hpending, rfl⟩
  refine ⟨st', hcall, ⟨⟨q', hcompletes.inv, hpending', houtstanding'⟩, ?_, h.current, ?_, ?_, h.phase⟩⟩
  · show Event.posts st'.trace = []
    rw [htrace]
    exact h.posts
  · intro hidle
    exact absurd (hphase.symm.trans hidle) (by simp)
  · intro pkt' hphase'
    show (st'.heap pkt').nbSegs = _
    rw [hcompletes.same.heap]
    exact h.sending pkt' hphase'

/-- The packet that is built first has the `nb_segs` of its memory. -/
theorem Stalled.built {request : ClientRequest} {pkt buffer : Addr} {st' : State} (h : Stalled fuel r)
    (hphase : r.phase = .idle) (hbuilt : Built cfg request r.st pkt buffer st') :
    (st'.heap pkt).nbSegs = defaultCharMbuf.nbSegs := by
  obtain ⟨-, -, -, hnbSegs⟩ := hbuilt.self
  rw [hnbSegs]
  exact h.idle hphase pkt hbuilt.free

/-- On an idle ring no chain depends on the mbufs. -/
theorem sendInv_heap {reported : ℕ} {v : Mlx5Txq} {heap : Heap} {tr : List Event} {q : SendFifo}
    (h : SendInv fuel reported v heap tr q) (houtstanding : q.outstanding = [])
    (hpending : q.pending = []) (heap' : Heap) : SendInv fuel reported v heap' tr q :=
  { h with
    waiting := by simp [houtstanding]
    pending := by simp [hpending] }

/-- **The program does not get further.** -/
theorem Stalled.doClientStep (h : Stalled fuel r)
    (hstep : doClientStep cfg fuel running now r = some r') : Stalled fuel r' := by
  unfold WholeClient.doClientStep at hstep
  split at hstep
  case h_1 hphase =>
    split at hstep
    case isTrue hrunning =>
      obtain ⟨request, hrequest, hmap⟩ := Option.bind_eq_some_iff.mp hstep
      obtain ⟨⟨result, st⟩, hbuild, hresult⟩ := Option.map_eq_some_iff.mp hmap
      obtain ⟨q, hq, hpending, houtstanding⟩ := h.ring
      cases result with
      | error ret =>
        subst hresult
        obtain rfl := buildClientPacket_error hbuild
        exact ⟨h.ring, h.posts, h.current, by simp, by simp, by simp⟩
      | ok pkt =>
        subst hresult
        obtain ⟨buffer, hbuilt⟩ := built_of_buildClientPacket hbuild
        refine ⟨⟨q, ?_, hpending, houtstanding⟩, ?_, h.current, by simp, ?_, by simp⟩
        · have hring := sendInv_heap hq houtstanding hpending st.heap
          rw [← hbuilt.txq, ← hbuilt.trace] at hring
          exact hring
        · show Event.posts st.trace = []
          rw [hbuilt.trace]
          exact h.posts
        · intro pkt' hphase'
          obtain rfl := ClientPhase.sending.inj hphase'
          exact h.built hphase hbuilt
    case isFalse =>
      obtain rfl := Option.some.inj hstep
      exact ⟨h.ring, h.posts, h.current, by simp, by simp, by simp⟩
  case h_2 pkt hphase =>
    obtain ⟨⟨ret, st⟩, hcall, hresult⟩ := Option.map_eq_some_iff.mp hstep
    obtain ⟨st', hrefused, hstalled⟩ := h.refused hphase
    obtain ⟨rfl, rfl⟩ := Prod.mk.inj (Option.some.inj (hcall.symm.trans hrefused))
    subst hresult
    exact hstalled
  case h_3 hphase => exact absurd hphase h.phase.1
  case h_4 hphase => exact absurd hphase (h.phase.2 _)
  case h_5 pkt rest hphase => exact absurd hphase (h.phase.2 _)
  case h_6 =>
    obtain rfl := Option.some.inj hstep
    exact h

theorem Step.stalled (h : Stalled fuel r) (hstep : Step cfg fuel duration horizon r r') :
    Stalled fuel r' := by
  cases hstep with
  | @reports run' hnic =>
    obtain ⟨q, hq, hpending, houtstanding⟩ := h.ring
    have hring := hnic.sendInv hq
    obtain ⟨run, taken, received, account, header, lastSent, budget, phase, clock⟩ := r
    cases hnic
    exact ⟨⟨q, hring, hpending, houtstanding⟩, h.posts, h.current, h.idle, h.sending, h.phase⟩
  | receives hnic =>
    obtain ⟨⟨st₀, reported⟩, taken, received, account, header, lastSent, budget, phase, clock⟩ := r
    cases hnic
    exact ⟨h.ring, h.posts, h.current, h.idle, h.sending, h.phase⟩
  | program hfirst hnow hhorizon hrunning hrun =>
    have hstalled := h.doClientStep hrun
    exact ⟨hstalled.ring, hstalled.posts, hstalled.current, hstalled.idle, hstalled.sending,
      hstalled.phase⟩

/-! ## Runs -/

/-- **The client never sends anything**: when its mbufs come from memory that
`mempool_memory_init` filled, then whatever the device does and however long it runs,
no descriptor is ever posted and no request counts as sent. Once it has built its
first packet, every further step of the program is a refused send of that packet. -/
theorem never_posts (h : Reachable (DefaultChar I) (Step cfg fuel duration horizon) r) :
    Event.posts r.st.trace = [] ∧ r.account.current = 0 ∧
      ∀ pkt, r.phase = .sending pkt → ∀ running now, ∃ r',
        doClientStep cfg fuel running now r = some r' ∧ r'.phase = .sending pkt := by
  have hstalled : Stalled fuel r := Reachable.invariant (P := Stalled fuel)
    (fun _ hinit => hinit.stalled) (fun _ _ hbefore hstep => hstep.stalled hbefore) h
  refine ⟨hstalled.posts, hstalled.current, fun pkt hphase running now => ?_⟩
  obtain ⟨st', hcall, -⟩ := hstalled.refused hphase
  refine ⟨r.withState st', ?_, hphase⟩
  have hne : (0 : ℕ) ≠ 1 := by decide
  rw [doClientStep, hphase]
  simp only [hcall, Option.map_some, if_neg hne]

theorem smallClient_defaultChar : DefaultChar ServerRun.smallItems (smallClient defaultCharMbuf) where
  init := smallClient_init defaultCharMbuf
  nbSegs := by
    have hall : ServerRun.smallItems.mbufs.map
        (fun a => ((smallClient defaultCharMbuf).st.heap a).nbSegs) =
          List.replicate ServerRun.smallItems.mbufs.length defaultCharMbuf.nbSegs := by
      decide +kernel
    exact List.map_eq_replicate_iff.mp hall

/-- The small client is at its first send for good. -/
theorem never_posts_smallClient : ∃ r : WholeClient, r.phase = .sending 0x100000 ∧
    r.account.current = 0 ∧ ∃ r', doClientStep oneSegmentClient 32 true 1000 r = some r' ∧
      r'.phase = .sending 0x100000 := by
  have hruns : (steps oneSegmentClient 32 [10, 10, 500] (smallClient defaultCharMbuf)).map phase =
      some (.sending 0x100000) := by
    decide +kernel
  obtain ⟨r, hr, hphase⟩ := Option.map_eq_some_iff.mp hruns
  have hreach := reachable_of_steps (.init smallClient_defaultChar :
    Reachable (DefaultChar ServerRun.smallItems) (Step oneSegmentClient 32 1500 2000) _)
    (by decide : ([0, 10, 10, 500] : List UInt64).IsChain (· ≤ ·)) (by simp) hr
  obtain ⟨-, hcurrent, hstuck⟩ := never_posts hreach
  exact ⟨r, hphase, hcurrent, hstuck _ hphase true 1000⟩

end WholeClient

end Mlx5Netperf
