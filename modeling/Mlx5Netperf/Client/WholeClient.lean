import Mlx5Netperf.Client.Accounting
import Mlx5Netperf.Client.SentChains
import Mlx5Netperf.Server.WholeServer

/-!
# The Whole Client

`do_client` with both rings, all three pools, its requests and its packet map. It is
a function that goes from one driver call to the next and is given what it reads from
the clock; the device receives packets and reports completions at any moment.
-/

namespace Mlx5Netperf

open Transition

/-! ## Where the client stands -/

/-- Where `do_client` stands between two calls. -/
inductive ClientPhase where
  /-- at the head of the main loop -/
  | idle
  /-- in `while (sent != 1)`, with the packet that is sent -/
  | sending (pkt : Addr)
  /-- at the head of `while (true)` -/
  | waiting
  /-- in the loop over a burst -/
  | burst (rest : List Addr)
  /-- behind the main loop, or returned with an error -/
  | over (ret : Int32)
  deriving DecidableEq

/-- The client with both rings, the packets it took and the device received so far, its
requests and replies, and what its loops keep. `requestHeader` is the header that it
never writes, and `clock` the last value that it read. -/
structure WholeClient where
  run : SendRun
  taken : ℕ
  received : ℕ
  account : ClientRun
  requestHeader : RequestHeader
  lastSentCycle : UInt64
  latenessBudget : UInt64
  phase : ClientPhase
  clock : UInt64

namespace WholeClient

/-- The state of the program. -/
abbrev st (r : WholeClient) : State := r.run.st

/-- The same moment in another state. -/
def withState (r : WholeClient) (st : State) : WholeClient := { r with run := { r.run with st := st } }

/-- The packets that `do_client` has itself. -/
def hands (r : WholeClient) : List Addr :=
  match r.phase with
  | .burst rest => rest
  | _ => []

/-- The chain that is still to be sent. -/
def heads (r : WholeClient) : List Addr :=
  match r.phase with
  | .sending pkt => [pkt]
  | _ => []

/-! ## The program -/

/-- The options of the drivers. The one release function that looks at them,
`zero_copy_tx_completion`, is not the client's. -/
def driver : Config := { Config.default with zeroCopy := false }

/-- `mbuf_free` of a packet. The history of the send ring goes on without it. -/
def freePacket (fuel : ℕ) (pkt : Addr) (r : WholeClient) : Option WholeClient :=
  (mbufFree driver fuel r.st (some pkt)).map fun st =>
    r.withState { st with trace := r.st.trace }

/-- A packet of the burst: a reply is looked up by its id, and the time since its
request was sent is recorded. -/
def handleReply (cfg : ClientConfig) (fuel : ℕ) (now : UInt64) (pkt : Addr) (rest : List Addr)
    (r : WholeClient) : Option WholeClient :=
  match checkValidPacket r.st.mem (r.st.heap pkt) cfg.clientMac with
  | none => freePacket fuel pkt { r with phase := .burst rest }
  | some (payload, _) =>
    let id := readU64 r.st.mem payload
    (getClientReq r.account.requests id.toNat).bind fun request =>
      let rtt := now - request.timestampOffset
      let account := { r.account with map := (addLatencyToMap r.account.map rtt id.toUInt32).2 }
      freePacket fuel pkt { r with account := account, phase := .burst rest }

/-- `do_client` from one call to the next, when `nanotime` says whether the time is
over and `cycles_offset` is `now`; `none` is a crash. -/
def doClientStep (cfg : ClientConfig) (fuel : ℕ) (running : Bool) (now : UInt64) (r : WholeClient) :
    Option WholeClient :=
  match r.phase with
  | .idle =>
    if running then
      (getClientReq r.account.requests r.account.current).bind fun request =>
        (buildClientPacket cfg request r.st).map fun
          | (.error ret, st) => { r.withState st with phase := .over ret }
          | (.ok pkt, st) =>
            let request := { request with timestampOffset := now }
            { r.withState st with
              account := { r.account with
                requests := r.account.requests.set r.account.current request }
              lastSentCycle := now
              phase := .sending pkt }
    else some { r with phase := .over 0 }
  | .sending pkt =>
    (mlx5TransmitOne driver fuel r.st pkt (some r.requestHeader) 0).map fun (ret, st) =>
      if ret = 1 then
        { r.withState st with
          account := { r.account with current := r.account.current + 1 }
          phase := .waiting }
      else r.withState st
  | .waiting =>
    -- the time of the next request is still its distance from the one before
    (getClientReq r.account.requests r.account.current).bind fun request =>
      if r.latenessBudget > request.timestampOffset then
        some { r with
          latenessBudget := r.latenessBudget - request.timestampOffset
          phase := .idle }
      else if now ≥ request.timestampOffset - r.latenessBudget + r.lastSentCycle then
        some { r with latenessBudget := 0, phase := .idle }
      else
        (mlx5GatherRx r.st 32).map fun (ms, st) =>
          { r.withState st with taken := r.taken + ms.length, phase := .burst ms }
  | .burst [] => some { r with phase := .waiting }
  | .burst (pkt :: rest) => handleReply cfg fuel now pkt rest r
  | .over _ => some r

/-! ## Building a packet -/

/-- Without an mbuf nothing is changed. -/
theorem buildClientPacket_error {cfg : ClientConfig} {request : ClientRequest} {ret : Int32} {st st' : State}
    (h : buildClientPacket cfg request st = some (.error ret, st')) : st' = st := by
  unfold buildClientPacket at h
  split at h
  case h_1 => exact (Prod.mk.inj (Option.some.inj h)).2.symm
  case h_2 =>
    split at h
    case h_1 => simp at h
    case h_2 => simp at h

/-- What `do_client` does to build a packet. -/
structure Built (cfg : ClientConfig) (request : ClientRequest) (st : State) (pkt buffer : Addr)
    (st' : State) : Prop where
  mbufs : ∃ mbufs, mempoolAlloc st.mbufMempool = some (pkt, mbufs) ∧ st'.mbufMempool = mbufs
  buffers : ∃ buffers, mempoolAlloc st.txBufMempool = some (buffer, buffers) ∧
    st'.txBufMempool = buffers
  heap : st'.heap = Function.update st.heap pkt
    (fillClientPacket cfg request st.mem (st.heap pkt) buffer).2
  txq : st'.txq = st.txq
  rxq : st'.rxq = st.rxq
  rxBufMempool : st'.rxBufMempool = st.rxBufMempool
  trace : st'.trace = st.trace

theorem built_of_buildClientPacket {cfg : ClientConfig} {st : State} {request : ClientRequest} {pkt : Addr} {st' : State}
    (h : buildClientPacket cfg request st = some (.ok pkt, st')) :
    ∃ buffer, Built cfg request st pkt buffer st' := by
  unfold buildClientPacket at h
  split at h
  case h_1 => simp at h
  case h_2 a mbufs halloc =>
    split at h
    case h_1 => simp at h
    case h_2 buffer buffers halloc' =>
      obtain ⟨hpkt, rfl⟩ := Prod.mk.inj (Option.some.inj h)
      obtain rfl := Except.ok.inj hpkt
      exact ⟨buffer, ⟨_, halloc, rfl⟩, ⟨_, halloc', rfl⟩, rfl, rfl, rfl, rfl, rfl⟩

namespace Built

variable {cfg : ClientConfig} {request : ClientRequest} {st st' : State} {pkt buffer : Addr}

theorem free (h : Built cfg request st pkt buffer st') : pkt ∈ st.mbufMempool.freeList := by
  obtain ⟨mbufs, halloc, -⟩ := h.mbufs
  rw [freeList_of_mempoolAlloc halloc]
  exact List.mem_cons_self ..

/-- The mbuf of the packet as the last assignments left it. -/
theorem self (h : Built cfg request st pkt buffer st') :
    (st'.heap pkt).release = some .txCompletion ∧ (st'.heap pkt).head = buffer ∧
      (st'.heap pkt).next = (st.heap pkt).next ∧ (st'.heap pkt).nbSegs = (st.heap pkt).nbSegs := by
  rw [h.heap, Function.update_self, fillClientPacket_mbuf]
  exact ⟨rfl, rfl, rfl, rfl⟩

theorem frame (h : Built cfg request st pkt buffer st') {a : Addr} (ha : a ≠ pkt) :
    st'.heap a = st.heap a := by
  rw [h.heap, Function.update_of_ne ha]

end Built

/-! ## Runs -/

/-- One step of the device or the program. The clock never runs back and stays below
`horizon`; the time is over once `duration` cycles have passed. -/
inductive Step (cfg : ClientConfig) (fuel duration horizon : ℕ) : WholeClient → WholeClient → Prop where
  /-- The device reports completions of sends. -/
  | reports {r : WholeClient} {run' : SendRun} (hnic : SendRun.NicStep r.run run') :
      Step cfg fuel duration horizon r { r with run := run' }
  /-- The device receives packets. -/
  | receives {r : WholeClient} {st' : State} {received' : ℕ}
      (hnic : RxRun.NicStep ⟨r.st, r.taken, r.received, []⟩ ⟨st', r.taken, received', []⟩) :
      Step cfg fuel duration horizon r { r.withState st' with received := received' }
  /-- The program runs on to its next call, with two looks at the clock. -/
  | program {r r' : WholeClient} {running : Bool} {first now : UInt64} (hfirst : r.clock ≤ first)
      (hnow : first ≤ now) (hhorizon : now.toNat < horizon)
      (hrunning : running = true → first.toNat < duration)
      (hstep : doClientStep cfg fuel running now r = some r') :
      Step cfg fuel duration horizon r { r' with clock := now }

/-- The client as `init_mlx5` and `init_workload` leave it, with the items `I` in its
pools. -/
structure Init (I : Holding) (r : WholeClient) : Prop where
  run : SendRun.Init r.run
  receive : RxRun.Init I.packets ⟨r.st, r.taken, r.received, []⟩
  account : ClientRun.Init r.account
  latenessBudget : r.latenessBudget = 0
  phase : r.phase = .idle
  mbufs : r.st.mbufMempool.freeList = I.mbufs
  mbufs_allocated : r.st.mbufMempool.allocated = 0
  mbufs_capacity : r.st.mbufMempool.capacity < 2 ^ 64
  buffers : r.st.txBufMempool.freeList = I.buffers
  buffers_allocated : r.st.txBufMempool.allocated = 0
  buffers_capacity : r.st.txBufMempool.capacity < 2 ^ 64

/-- Steps of the program alone, with the looks at the clock at these times. -/
def steps (cfg : ClientConfig) (fuel : ℕ) : List UInt64 → WholeClient → Option WholeClient
  | [], r => some r
  | now :: times, r =>
    (doClientStep cfg fuel true now r).bind fun r' => steps cfg fuel times { r' with clock := now }

/-- While the time is not over they are steps of a run. -/
theorem reachable_of_steps {init : WholeClient → Prop} {cfg : ClientConfig}
    {fuel duration horizon : ℕ} {times : List UInt64} {r r' : WholeClient}
    (h : Reachable init (Step cfg fuel duration horizon) r)
    (htimes : (r.clock :: times).IsChain (· ≤ ·))
    (hbound : ∀ now ∈ times, now.toNat < duration ∧ now.toNat < horizon)
    (hsteps : steps cfg fuel times r = some r') :
    Reachable init (Step cfg fuel duration horizon) r' := by
  induction times generalizing r with
  | nil =>
    obtain rfl := Option.some.inj hsteps
    exact h
  | cons now times ih =>
    obtain ⟨r₁, hfirst, hrest⟩ := Option.bind_eq_some_iff.mp hsteps
    obtain ⟨hclock, hlater⟩ := List.isChain_cons_cons.mp htimes
    obtain ⟨hduration, hhorizon⟩ := hbound now (List.mem_cons_self ..)
    refine ih (h.step (.program hclock (UInt64.le_refl now) hhorizon (fun _ => hduration) hfirst))
      hlater (fun t ht => hbound t (List.mem_cons_of_mem _ ht)) hrest

/-! ## A small client -/

/-- The rings and the pools of the small server, with mbufs that hold `b` before they
are used. -/
def smallBefore (b : Mbuf) : State := { ServerRun.smallBefore with heap := fun _ => b }

/-- After `mlx5_init_rxq`. -/
def smallStart (b : Mbuf) : State :=
  match mlx5InitRxq 0 (smallBefore b) with
  | .ok st => st
  | .error _ => smallBefore b

/-- Two requests that are 1000 cycles apart. -/
def smallClient (b : Mbuf) : WholeClient where
  run := ⟨smallStart b, 0⟩
  taken := 0
  received := 0
  account :=
    { requests := initializeClientRequests (fun _ => 0) 2 1 1000 fun _ => Vector.replicate 32 0
      current := 0
      map := ⟨fun _ => 0, fun _ => 0, 0⟩ }
  requestHeader := ⟨clientHeader oneSegmentClient, 0, 0, 0⟩
  lastSentCycle := 0
  latenessBudget := 0
  phase := .idle
  clock := 0

theorem smallStart_eq (b : Mbuf) : mlx5InitRxq 0 (smallBefore b) = .ok (smallStart b) := by
  have hok : (mlx5InitRxq 0 (smallBefore b)).isOk = true := rfl
  unfold smallStart
  cases hcall : mlx5InitRxq 0 (smallBefore b) with
  | ok st => rfl
  | error e =>
    rw [hcall] at hok
    cases hok

/-- The send ring and the pools it is fed from are as they were. -/
theorem smallStart_keeps (b : Mbuf) : (smallStart b).txq = ServerRun.smallBefore.txq ∧
    (smallStart b).trace = [] ∧ (smallStart b).mbufMempool = ServerRun.smallBefore.mbufMempool ∧
      (smallStart b).txBufMempool = ServerRun.smallBefore.txBufMempool :=
  ⟨rfl, rfl, rfl, rfl⟩

theorem smallClient_init (b : Mbuf) : Init ServerRun.smallItems (smallClient b) := by
  obtain ⟨htxq, htrace, hmbufs, hbuffers⟩ := smallStart_keeps b
  constructor
  case run => exact ServerRun.smallBefore_sendInit htxq htrace
  case receive =>
    exact ⟨⟨0, smallBefore b, ServerRun.smallBefore_beforeInit rfl rfl, smallStart_eq b⟩, rfl, rfl,
      rfl⟩
  case account => exact ⟨⟨_, _, _, _, _, rfl⟩, rfl, rfl⟩
  case latenessBudget => rfl
  case phase => rfl
  case mbufs => exact (congrArg Mempool.freeList hmbufs).trans (by decide)
  case mbufs_allocated => exact congrArg Mempool.allocated hmbufs
  case mbufs_capacity => exact (congrArg Mempool.capacity hmbufs).trans_lt (by decide)
  case buffers => exact (congrArg Mempool.freeList hbuffers).trans (by decide)
  case buffers_allocated => exact congrArg Mempool.allocated hbuffers
  case buffers_capacity => exact (congrArg Mempool.capacity hbuffers).trans_lt (by decide)

end WholeClient

end Mlx5Netperf
