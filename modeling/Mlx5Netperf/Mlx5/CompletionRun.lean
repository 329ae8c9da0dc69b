import Mlx5Netperf.Mlx5.CompletionOrder

/-!
# Runs of the Completion Queues

The device writes completions to the send and the receive completion queue, the
program polls them with `mlx5_gather_completions` and `mlx5_gather_rx`, and does
anything else with its state in between.
-/

namespace Mlx5Netperf

open Transition

/-! ## One call -/

section Calls

variable {budget : ℕ} {st st' : State} {ms : List Addr} {lane : CqLane}

/-- Taking sends off the queue leaves the receive queue alone. -/
theorem takeAll_tx_rxq (cqes : List Mlx5Cqe64) (ms : List Addr) (st : State) :
    (txPoller.takeAll st cqes ms).rxq = st.rxq := by
  induction cqes generalizing st ms with
  | nil => rfl
  | cons cqe cqes ih =>
    cases ms with
    | nil => rfl
    | cons m ms => exact ih ms _

/-- What a call of a polling function says of its queue: it returns the buffers
of the next completions and moves the head over them. -/
structure PolledNext (p : Poller) (lane : CqLane) (budget : ℕ) (st st' : State)
    (ms : List Addr) : Prop where
  read : (p.cq st).entriesAt (p.head st) ms.length = lane.next budget
  accepts : List.Forall₂ (p.Accepts st) (lane.next budget) ms
  lane : LaneInv (p.cq st') (p.head st') { lane with read := lane.read ++ lane.next budget }

/-- The loop of a polling function, and what follows it, seen from the queue. -/
theorem LaneInv.polledNext {p : Poller} {st₁ : State} (h : LaneInv (p.cq st) (p.head st) lane)
    (hloop : p.loop budget st = some (ms, st₁)) (hbuf : (p.cq st').buf = (p.cq st₁).buf)
    (hcnt : (p.cq st').cqeCnt = (p.cq st₁).cqeCnt) (hhead : p.head st' = p.head st₁) :
    PolledNext p lane budget st st' ms := by
  obtain ⟨haccepts, rfl⟩ := Poller.loop_eq_some_iff.mp hloop
  -- the loop finds the next completions
  have hnext : p.entries budget st = lane.next budget := h.poll_eq budget
  -- and moves the head over as many
  obtain ⟨hcq, hmoved⟩ := Poller.takeAll_queue haccepts.length_eq st
  rw [hcq] at hbuf hcnt
  rw [hmoved, ← haccepts.length_eq, hnext] at hhead
  refine ⟨?_, hnext ▸ haccepts, (h.advance budget).congr hbuf hcnt hhead⟩
  rw [← haccepts.length_eq, ← hnext]
  exact Cq.entriesAt_poll ..

/-- **`mlx5_gather_completions` returns the next completions.** -/
theorem mlx5GatherCompletions_polledNext (h : LaneInv st.txq.txCq st.txq.cqHead lane)
    (hcall : mlx5GatherCompletions st budget = some (ms, st')) :
    PolledNext txPoller lane budget st st' ms ∧ st'.rxq = st.rxq := by
  obtain ⟨⟨ms', st₁⟩, hloop, heq⟩ := Option.map_eq_some_iff.mp hcall
  obtain ⟨rfl, rfl⟩ := Prod.mk.inj heq
  rw [mlx5GatherCompletionsLoop_eq] at hloop
  refine ⟨@LaneInv.polledNext _ _ _ _ _ txPoller st₁ h hloop rfl rfl rfl, ?_⟩
  obtain ⟨-, rfl⟩ := Poller.loop_eq_some_iff.mp hloop
  exact takeAll_tx_rxq ..

/-- **`mlx5_gather_rx` returns the next completions**, whatever it refills. -/
theorem mlx5GatherRx_polledNext (h : LaneInv st.rxq.rxCq st.rxq.consumerIdx lane)
    (hcall : mlx5GatherRx st budget = some (ms, st')) :
    PolledNext rxPoller lane budget st st' ms ∧ st'.txq = st.txq := by
  obtain ⟨st₁, hloop, hcases⟩ := mlx5GatherRx_cases hcall
  rw [mlx5GatherRxLoop_eq] at hloop
  have htxq : st₁.txq = st.txq := by
    obtain ⟨-, rfl⟩ := Poller.loop_eq_some_iff.mp hloop
    exact (takeAll_rx_frame ..).1
  rcases hcases with ⟨-, rfl⟩ | ⟨-, hrefill⟩
  case inl =>
    -- nothing arrived, nothing to refill
    exact ⟨@LaneInv.polledNext _ _ _ _ _ rxPoller st' h hloop rfl rfl rfl, htxq⟩
  case inr =>
    -- the refill leaves entries and head alone
    have hkeeps := mlx5RefillRxqueue_keeps hrefill
    have hcq : (rxPoller.cq st').buf = (rxPoller.cq st₁).buf ∧
        (rxPoller.cq st').cqeCnt = (rxPoller.cq st₁).cqeCnt := by
      have hrx : st'.rxq.rxCq = st₁.ringRxCqDoorbell.rxq.rxCq := hkeeps.rxCq
      simp only [rxPoller, hrx]
      exact ⟨rfl, rfl⟩
    exact ⟨@LaneInv.polledNext _ _ _ _ _ rxPoller st₁ h hloop hcq.1 hcq.2 hkeeps.consumerIdx,
      hkeeps.txq.trans htxq⟩

/-- The call returns when each of the next completions names a buffer. -/
theorem exists_mlx5GatherCompletions (h : LaneInv st.txq.txCq st.txq.cqHead lane)
    (hnext : ∀ cqe ∈ lane.next budget, ∃ m, txPoller.Accepts st cqe m) :
    ∃ ms st', mlx5GatherCompletions st budget = some (ms, st') := by
  have hentries : txPoller.entries budget st = lane.next budget := h.poll_eq budget
  rw [← hentries] at hnext
  obtain ⟨ms, hloop⟩ := Poller.exists_loop hnext
  rw [mlx5GatherCompletions, mlx5GatherCompletionsLoop_eq, hloop]
  exact ⟨_, _, rfl⟩

/-- The receiving call needs as many free buffers besides. -/
theorem exists_mlx5GatherRx (h : LaneInv st.rxq.rxCq st.rxq.consumerIdx lane)
    (hnext : ∀ cqe ∈ lane.next budget, ∃ m, rxPoller.Accepts st cqe m)
    (hpool : (lane.next budget).length ≤ st.rxBufMempool.freeList.length) :
    ∃ ms st', mlx5GatherRx st budget = some (ms, st') := by
  have hentries : rxPoller.entries budget st = lane.next budget := h.poll_eq budget
  rw [← hentries] at hnext hpool
  obtain ⟨ms, hloop⟩ := Poller.exists_loop hnext
  -- as many buffers as packets
  have hlen := Poller.length_entries hloop
  exact exists_mlx5GatherRx_of_loop hloop (by omega)

end Calls

/-! ## Runs -/

/-- The program with the completions of its two queues. -/
structure CqRun where
  st : State
  tx : CqLane
  rx : CqLane

namespace CqRun

/-- Both queues as they are set up, the heads at zero. -/
structure Init (r : CqRun) : Prop where
  tx : r.st.txq.txCq.Fresh
  rx : r.st.rxq.rxCq.Fresh
  cqHead : r.st.txq.cqHead = 0
  consumerIdx : r.st.rxq.consumerIdx = 0
  tx_lane : r.tx = ⟨[], []⟩
  rx_lane : r.rx = ⟨[], []⟩

/-- What the rest of the program leaves alone: the entries, the sizes and the heads. -/
structure AppStep (st st' : State) : Prop where
  txBuf : st'.txq.txCq.buf = st.txq.txCq.buf
  txCnt : st'.txq.txCq.cqeCnt = st.txq.txCq.cqeCnt
  cqHead : st'.txq.cqHead = st.txq.cqHead
  rxBuf : st'.rxq.rxCq.buf = st.rxq.rxCq.buf
  rxCnt : st'.rxq.rxCq.cqeCnt = st.rxq.rxCq.cqeCnt
  consumerIdx : st'.rxq.consumerIdx = st.rxq.consumerIdx

/-- One step of the device or of the program. A poll reads as many entries as
buffers it returns. -/
inductive Step : CqRun → CqRun → Prop where
  /-- The device completes a send. -/
  | txWrite {st : State} {tx rx : CqLane} {cqe : Mlx5Cqe64}
      (hwrites : DeviceWrites st.txq.txCq st.txq.cqHead tx.written.length cqe) :
      Step ⟨st, tx, rx⟩
        ⟨{ st with txq := { st.txq with txCq := st.txq.txCq.write tx.written.length cqe } },
          { tx with written := tx.written ++ [cqe] }, rx⟩
  /-- The device receives a packet. -/
  | rxWrite {st : State} {tx rx : CqLane} {cqe : Mlx5Cqe64}
      (hwrites : DeviceWrites st.rxq.rxCq st.rxq.consumerIdx rx.written.length cqe) :
      Step ⟨st, tx, rx⟩
        ⟨{ st with rxq := { st.rxq with rxCq := st.rxq.rxCq.write rx.written.length cqe } },
          tx, { rx with written := rx.written ++ [cqe] }⟩
  | gatherCompletions {st st' : State} {tx rx : CqLane} {budget : ℕ} {ms : List Addr}
      (hcall : mlx5GatherCompletions st budget = some (ms, st')) :
      Step ⟨st, tx, rx⟩
        ⟨st', { tx with read := tx.read ++ st.txq.txCq.entriesAt st.txq.cqHead ms.length }, rx⟩
  | gatherRx {st st' : State} {tx rx : CqLane} {budget : ℕ} {ms : List Addr}
      (hcall : mlx5GatherRx st budget = some (ms, st')) :
      Step ⟨st, tx, rx⟩
        ⟨st', tx, { rx with read := rx.read ++ st.rxq.rxCq.entriesAt st.rxq.consumerIdx ms.length }⟩
  | app {st st' : State} {tx rx : CqLane} (happ : AppStep st st') :
      Step ⟨st, tx, rx⟩ ⟨st', tx, rx⟩

/-- Both queues keep their invariant. -/
structure Inv (r : CqRun) : Prop where
  tx : LaneInv r.st.txq.txCq r.st.txq.cqHead r.tx
  rx : LaneInv r.st.rxq.rxCq r.st.rxq.consumerIdx r.rx

theorem Init.inv {r : CqRun} (h : Init r) : Inv r := by
  constructor
  case tx =>
    rw [h.cqHead, h.tx_lane]
    exact h.tx.laneInv
  case rx =>
    rw [h.consumerIdx, h.rx_lane]
    exact h.rx.laneInv

/-- **Every step keeps the invariant.** -/
theorem Step.inv {r r' : CqRun} (h : Inv r) (hstep : Step r r') : Inv r' := by
  obtain ⟨htx, hrx⟩ := h
  cases hstep with
  | txWrite hwrites => exact ⟨htx.write hwrites, hrx⟩
  | rxWrite hwrites => exact ⟨htx, hrx.write hwrites⟩
  | gatherCompletions hcall =>
    -- a poll of one queue does not touch the other
    obtain ⟨hpolled, hrxq⟩ := mlx5GatherCompletions_polledNext htx hcall
    have hread := hpolled.read
    refine ⟨?_, by rw [hrxq]; exact hrx⟩
    simp only [txPoller] at hread
    rw [hread]
    exact hpolled.lane
  | gatherRx hcall =>
    obtain ⟨hpolled, htxq⟩ := mlx5GatherRx_polledNext hrx hcall
    have hread := hpolled.read
    refine ⟨by rw [htxq]; exact htx, ?_⟩
    simp only [rxPoller] at hread
    rw [hread]
    exact hpolled.lane
  | app happ =>
    exact ⟨htx.congr happ.txBuf happ.txCnt happ.cqHead,
      hrx.congr happ.rxBuf happ.rxCnt happ.consumerIdx⟩

theorem Inv.of_reachable {r : CqRun} (h : Reachable Init Step r) : Inv r :=
  Reachable.invariant (P := Inv) (fun _ hinit => hinit.inv) (fun _ _ hinv hstep =>
    hstep.inv hinv) h

/-- What a moment of a run shows: the polls have read the completions in the
order they were written, none left out and none twice; the next poll of either
queue returns the buffers of the next completions, all there are up to its
budget; and it does return when each of these names a buffer and, for received
packets, the pool can replace them. -/
structure InOrder (r : CqRun) : Prop where
  tx_read : r.tx.read <+: r.tx.written
  rx_read : r.rx.read <+: r.rx.written
  tx_next : ∀ budget ms st', mlx5GatherCompletions r.st budget = some (ms, st') →
    r.st.txq.txCq.entriesAt r.st.txq.cqHead ms.length = r.tx.next budget ∧
      List.Forall₂ (Takes mlx5CqeReq r.st.txq.buffers r.st.txq.sq.wqeCnt) (r.tx.next budget) ms
  rx_next : ∀ budget ms st', mlx5GatherRx r.st budget = some (ms, st') →
    r.st.rxq.rxCq.entriesAt r.st.rxq.consumerIdx ms.length = r.rx.next budget ∧
      List.Forall₂ (Takes mlx5CqeRespSend r.st.rxq.buffers r.st.rxq.rxWq.wqeCnt)
        (r.rx.next budget) ms
  tx_returns : ∀ budget, (∀ cqe ∈ r.tx.next budget,
      ∃ m, Takes mlx5CqeReq r.st.txq.buffers r.st.txq.sq.wqeCnt cqe m) →
    ∃ ms st', mlx5GatherCompletions r.st budget = some (ms, st')
  rx_returns : ∀ budget, (∀ cqe ∈ r.rx.next budget,
      ∃ m, Takes mlx5CqeRespSend r.st.rxq.buffers r.st.rxq.rxWq.wqeCnt cqe m) →
    (r.rx.next budget).length ≤ r.st.rxBufMempool.freeList.length →
    ∃ ms st', mlx5GatherRx r.st budget = some (ms, st')

/-- **Completions are read exactly once and in order** in every run of the
device, the two polling functions and the rest of the program. -/
theorem completions_read_in_order {r : CqRun} (h : Reachable Init Step r) : InOrder r := by
  obtain ⟨htx, hrx⟩ := Inv.of_reachable h
  refine ⟨htx.in_order, hrx.in_order, ?_, ?_, ?_, ?_⟩
  · intro budget ms st' hcall
    have hpolled := (mlx5GatherCompletions_polledNext htx hcall).1
    exact ⟨hpolled.read, hpolled.accepts⟩
  · intro budget ms st' hcall
    have hpolled := (mlx5GatherRx_polledNext hrx hcall).1
    exact ⟨hpolled.read, hpolled.accepts⟩
  · exact fun budget hnext => exists_mlx5GatherCompletions htx hnext
  · exact fun budget hnext hpool => exists_mlx5GatherRx hrx hnext hpool

/-- One chain is posted in every slot of a send ring; nothing was written yet. -/
def oneChain : CqRun where
  st := { State.zeroed 4 4 with
    txq := { Mlx5Txq.zeroed 0x10000 4 with buffers := fun _ => some 7 } }
  tx := ⟨[], []⟩
  rx := ⟨[], []⟩

/-- The first completion of a send. -/
def oneCompletion : Mlx5Cqe64 := ⟨0, 0, 0, 0, 0⟩

theorem oneChain_init : Init oneChain where
  tx := Cq.fresh_deviceOwned (show 7 ≤ 15 by decide) rfl
  rx := Cq.fresh_deviceOwned (show 10 ≤ 15 by decide) rfl
  cqHead := rfl
  consumerIdx := rfl
  tx_lane := rfl
  rx_lane := rfl

/-- The device completes the send, and the next poll returns it. -/
theorem completions_read_in_order_oneChain :
    ∃ r : CqRun, r.tx.read = [oneCompletion] ∧ InOrder r := by
  -- the first lap has owner bit 0
  have hwrites : DeviceWrites oneChain.st.txq.txCq oneChain.st.txq.cqHead 0 oneCompletion :=
    ⟨by decide, by decide, by decide⟩
  have hwritten := (Reachable.init oneChain_init).step (Step.txWrite hwrites)
  have hpoll : (mlx5GatherCompletions { oneChain.st with txq := { oneChain.st.txq with
      txCq := oneChain.st.txq.txCq.write 0 oneCompletion } } 32).map Prod.fst = some [7] := by
    decide +kernel
  obtain ⟨⟨ms, st'⟩, hcall, hms⟩ := Option.map_eq_some_iff.mp hpoll
  obtain rfl : ms = [7] := hms
  exact ⟨_, rfl, completions_read_in_order (hwritten.step (.gatherCompletions hcall))⟩

end CqRun

end Mlx5Netperf
