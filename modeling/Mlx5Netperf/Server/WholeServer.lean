import Mlx5Netperf.Mlx5.ReceiveFrame
import Mlx5Netperf.Server.QueueHoldings
import Mlx5Netperf.Server.ReferenceCounts

/-!
# The Whole Server

`do_server` with both rings and all three pools: it takes bursts of packets off the
receive ring, collects the accepted ones into batches, builds and posts the replies
and frees the packets, while the device receives and reports completions at any
moment. The program is a function that goes from one driver call to the next.
-/

namespace Mlx5Netperf

open Transition PostRun

/-! ## Where the server stands -/

/-- Where `do_server` stands between two calls. -/
inductive ServerPhase where
  /-- at the head of `while (1)` -/
  | polling
  /-- in the loop over a burst: the packets from `rx_idx` on, and `mbufs_to_process` -/
  | burst (rest batch : List Addr)
  /-- in `post_mbufs`, which answers the packets `batch` -/
  | posting (rest batch : List Addr)
  deriving DecidableEq

/-- The program with both rings, the packets it took and the device received so far,
where it stands, and the packets that were still in `mbufs_to_process` when the loop
over their burst ended. -/
structure ServerRun where
  post : PostRun
  taken : ℕ
  received : ℕ
  phase : ServerPhase
  lost : List Addr

/-- The same moment of `post_mbufs` in another state. -/
def PostRun.withState (r : PostRun) (st : State) : PostRun :=
  { r with run := { r.run with st := st } }

namespace ServerRun

/-- The state of the program. -/
abbrev st (r : ServerRun) : State := r.post.run.st

/-- The packets that `do_server` has itself. In echo mode those that it sends back
are no longer among them. -/
def hands (echoMode : Bool) (r : ServerRun) : List Addr :=
  match r.phase with
  | .polling => r.lost
  | .burst rest batch => rest ++ batch ++ r.lost
  | .posting rest batch => rest ++ (if echoMode then [] else batch) ++ r.lost

/-! ## The program -/

/-- `do_server` after `process_server_requests` returned `ret`: the packets are
cleaned up, and the next batch starts empty. -/
def finish (cfg : Config) (fuel : ℕ) (rest batch : List Addr) (ret : Int32) (r : ServerRun) :
    Option ServerRun :=
  (finishBatch cfg fuel batch ret r.post).map fun (_, post) =>
    { r with post := post, phase := .burst rest [] }

/-- `process_server_requests` builds the replies to `batch` and calls `post_mbufs`,
or returns with an error. -/
def processBatch (cfg : Config) (fuel : ℕ) (rest batch : List Addr) (r : ServerRun) :
    Option ServerRun :=
  match prepareReplies cfg fuel batch r.st with
  | none => none
  | some (.error ret, st) => finish cfg fuel rest batch ret { r with post := r.post.withState st }
  | some (.ok heads, st) =>
    let args := replyArgs cfg st heads
    some { r with
      post := ⟨⟨st, r.post.run.reported⟩, PostMbufs.loop args 0, r.post.batches ++ [args]⟩
      phase := .posting rest batch }

/-- A packet of the burst: a rejected one is freed, an accepted one is collected and
may complete a batch. -/
def handlePacket (cfg : Config) (fuel : ℕ) (pkt : Addr) (rest batch : List Addr) (r : ServerRun) :
    Option ServerRun :=
  match checkValidPacket r.st.mem (r.st.heap pkt) cfg.serverMac with
  | none =>
    -- the history of the send ring goes on without this release
    (mbufFree cfg fuel r.st (some pkt)).map fun st =>
      { r with post := r.post.withState { st with trace := r.st.trace }, phase := .burst rest batch }
  | some _ =>
    let batch := batch ++ [pkt]
    if batch.length = batchSize ∨ rest = [] then processBatch cfg fuel rest batch r
    else some { r with phase := .burst rest batch }

/-- `do_server` from one call to the next; `none` is a crash. -/
def doServerStep (cfg : Config) (fuel : ℕ) (r : ServerRun) : Option ServerRun :=
  match r.phase with
  | .polling =>
    (mlx5GatherRx r.st burstSize).map fun (ms, st) =>
      { r with post := r.post.withState st, taken := r.taken + ms.length, phase := .burst ms [] }
  -- the loop over the burst ends, whatever `mbufs_to_process` still holds
  | .burst [] batch => some { r with phase := .polling, lost := r.lost ++ batch }
  | .burst (pkt :: rest) batch => handlePacket cfg fuel pkt rest batch r
  | .posting rest batch =>
    match r.post.ctl with
    | none => finish cfg fuel rest batch 0 r
    | some c =>
      -- the loops of `post_mbufs` stand before packet `i` of their batch
      (c.batch[c.i]?).bind fun a =>
        (mlx5TransmitOne cfg fuel r.st a.mbuf a.requestHeader a.inlineLen).map fun (ret, st) =>
          { r with post := { r.post.withState st with ctl := c.resume ret } }

/-! ## Runs -/

/-- The device receives further packets, in ring order and into posted slots only. It
writes the bytes that the descriptors of the ring name, and no others. -/
inductive NicReceives : ServerRun → ServerRun → Prop where
  | receive {r : ServerRun} {received' : ℕ} {cq : Cq} {mem : ByteMemory} {counters : List UInt16}
      (hle : r.received ≤ received') (hlen : received' = r.taken + counters.length)
      (hposted : counters.length ≤ (r.st.rxq.wqHead - r.st.rxq.consumerIdx).toNat)
      (horder : InRingOrder r.st.rxq.rxWq.wqeCnt.toNat r.taken counters)
      (hreports : cq.Reports mlx5CqeRespSend r.st.rxq.consumerIdx counters)
      (hmem : ∀ p, (∀ slot < r.st.rxq.rxWq.wqeCnt.toNat, ∀ buf, r.st.rxq.PostedIn slot buf →
        p < buf.toNat + rxBufHead.toNat ∨
          buf.toNat + rxBufHead.toNat + (netMtu + rxBufTail).toNat ≤ p) → mem p = r.st.mem p) :
      NicReceives r { r with
        post := r.post.withState { r.st with mem := mem, rxq := { r.st.rxq with rxCq := cq } }
        received := received' }

/-- One step of the device or the program. -/
inductive Step (cfg : Config) (fuel : ℕ) : ServerRun → ServerRun → Prop where
  /-- The device reports completions of sends. -/
  | reports {r : ServerRun} {run' : SendRun} (hnic : SendRun.NicStep r.post.run run') :
      Step cfg fuel r { r with post := { r.post with run := run' } }
  /-- The device receives packets. -/
  | receives {r r' : ServerRun} (hnic : NicReceives r r') : Step cfg fuel r r'
  /-- The program runs on to its next call. -/
  | program {r r' : ServerRun} (hstep : doServerStep cfg fuel r = some r') : Step cfg fuel r r'

/-- The step of the program from `r` to `r'` stays inside what was allocated: the replies
that it builds, or the releases of the send that it makes. -/
def StepInside (cfg : Config) (numRefcntArrays : UInt64) (r r' : ServerRun) : Prop :=
  match r.phase with
  | .burst (pkt :: rest) batch =>
    checkValidPacket r.st.mem (r.st.heap pkt) cfg.serverMac ≠ none →
      batch.length + 1 = batchSize ∨ rest = [] →
        PrepareInside cfg numRefcntArrays (batch ++ [pkt]) r.st
  | .posting _ _ => FreesInside cfg numRefcntArrays r.st r'.st
  | _ => True

/-- One step of the device, or of the program while it stays inside. What the program
does after an access to memory that was not allocated, nobody knows. -/
inductive CheckedStep (cfg : Config) (numRefcntArrays : UInt64) (fuel : ℕ) :
    ServerRun → ServerRun → Prop where
  | reports {r : ServerRun} {run' : SendRun} (hnic : SendRun.NicStep r.post.run run') :
      CheckedStep cfg numRefcntArrays fuel r { r with post := { r.post with run := run' } }
  | receives {r r' : ServerRun} (hnic : NicReceives r r') :
      CheckedStep cfg numRefcntArrays fuel r r'
  | program {r r' : ServerRun} (hstep : doServerStep cfg fuel r = some r')
      (hinside : StepInside cfg numRefcntArrays r r') : CheckedStep cfg numRefcntArrays fuel r r'

/-- A step that stays inside is a step. -/
theorem CheckedStep.step {cfg : Config} {numRefcntArrays : UInt64} {fuel : ℕ} {r r' : ServerRun}
    (h : CheckedStep cfg numRefcntArrays fuel r r') : Step cfg fuel r r' := by
  cases h with
  | reports hnic => exact .reports hnic
  | receives hnic => exact .receives hnic
  | program hstep _ => exact .program hstep

/-- The server as `init_mlx5` leaves it, with the items `I` in its pools. -/
structure Init (I : Holding) (r : ServerRun) : Prop where
  post : PostRun.Init r.post
  receive : RxRun.Init I.packets ⟨r.st, r.taken, r.received, []⟩
  phase : r.phase = .polling
  lost : r.lost = []
  mbufs : r.st.mbufMempool.freeList = I.mbufs
  mbufs_allocated : r.st.mbufMempool.allocated = 0
  mbufs_capacity : r.st.mbufMempool.capacity < 2 ^ 64
  buffers : r.st.txBufMempool.freeList = I.buffers
  buffers_allocated : r.st.txBufMempool.allocated = 0
  buffers_capacity : r.st.txBufMempool.capacity < 2 ^ 64

/-! ## A small server -/

/-- Rings of four blocks and four slots, and pools whose memory does not overlap. -/
def smallBefore : State :=
  { State.zeroed 4 4 with
    mbufMempool := ⟨fun i => 0x100000 + 0x100 * UInt64.ofNat i, 0, 8, 0x100⟩
    txBufMempool := ⟨fun i => 0x200000 + 0x4000 * UInt64.ofNat i, 0, 8, 0x4000⟩
    rxBufMempool := ⟨fun i => 0x400000 + 0x4000 * UInt64.ofNat i, 0, 8, 0x4000⟩ }

/-- The small server after `mlx5_init_rxq`. -/
def smallStart : State :=
  match mlx5InitRxq 0 smallBefore with
  | .ok st => st
  | .error _ => smallBefore

/-- The items of its pools. -/
def smallItems : Holding where
  mbufs := [0x100000, 0x100100, 0x100200, 0x100300, 0x100400, 0x100500, 0x100600, 0x100700]
  buffers := [0x200000, 0x204000, 0x208000, 0x20c000, 0x210000, 0x214000, 0x218000, 0x21c000]
  packets := [0x400000, 0x404000, 0x408000, 0x40c000, 0x410000, 0x414000, 0x418000, 0x41c000]

/-- A working set of sixteen regions of 1024 bytes, copied into the replies. -/
def smallConfig : Config :=
  { Config.default with serverWorkingSet := 0x300000, numTotalSegments := 16, zeroCopy := false }

theorem smallItems_distinct : smallItems.Distinct where
  mbufs := by simp [smallItems]
  buffers := by simp [smallItems]
  packets := by simp [smallItems]
  apart := by simp [smallItems]

/-- A send ring like that of the small server, before anything was sent. -/
theorem smallBefore_sendInit {st : State} (htxq : st.txq = smallBefore.txq) (htrace : st.trace = []) :
    SendRun.Init ⟨st, 0⟩ := by
  constructor
  case size => rw [htxq]; exact ⟨2, by decide, rfl⟩
  case trace => exact htrace
  case reported => rfl
  case reports =>
    rw [htxq]
    exact (by decide +kernel : (Cq.deviceOwned 128).Reports mlx5CqeReq 0 [])
  all_goals rw [htxq]; rfl

/-- A receive ring and a pool like those of the small server, before `mlx5_init_rxq`. -/
theorem smallBefore_beforeInit {st : State} (hrxq : st.rxq = smallBefore.rxq)
    (hpool : st.rxBufMempool = smallBefore.rxBufMempool) :
    RxRun.BeforeInit smallItems.packets st := by
  have h : RxRun.BeforeInit smallItems.packets smallBefore :=
    ⟨⟨2, by decide, rfl⟩, by decide, rfl, rfl, by decide, by decide, rfl, by decide⟩
  exact ⟨by rw [hrxq]; exact h.size, by rw [hrxq]; exact h.cqeCnt, by rw [hrxq]; exact h.consumerIdx,
    by rw [hrxq]; exact h.wqHead, by rw [hpool]; exact h.free, h.nodup,
    by rw [hpool]; exact h.allocated, by rw [hpool]; exact h.capacity⟩

/-- The small server before anything was received. -/
def smallServer : ServerRun := ⟨⟨⟨smallStart, 0⟩, none, []⟩, 0, 0, .polling, []⟩

theorem smallServer_init : Init smallItems smallServer where
  post :=
    { run :=
        { size := ⟨2, by decide, rfl⟩
          sqHead := rfl
          cqHead := rfl
          trueCqHead := rfl
          trace := rfl
          reported := rfl
          reports := (by decide +kernel : (Cq.deviceOwned 128).Reports mlx5CqeReq 0 []) }
      ctl := rfl
      batches := rfl }
  receive :=
    { call := ⟨0, smallBefore, ⟨⟨2, by decide, rfl⟩, by decide, rfl, rfl, by decide, by decide, rfl,
        by decide⟩, rfl⟩
      taken := rfl
      received := rfl
      hands := rfl }
  phase := rfl
  lost := rfl
  mbufs := by decide
  mbufs_allocated := rfl
  mbufs_capacity := by decide
  buffers := by decide
  buffers_allocated := rfl
  buffers_capacity := by decide

/-- Its completion queue with one received packet of 100 bytes, in slot 0. -/
def smallCq : Cq :=
  { smallStart.rxq.rxCq with
    buf := Function.update smallStart.rxq.rxCq.buf 0 ⟨0, 0, htobe32 100, 0, 0x20⟩ }

/-- An IPv4 packet with UDP in the first buffer. -/
def smallPacket : ByteMemory :=
  Function.update (Function.update smallStart.mem (0x400080 + 12) 8) (0x400080 + 23) 17

/-- The small server with one packet received. -/
def smallReceived : ServerRun :=
  ⟨⟨⟨{ smallStart with mem := smallPacket, rxq := { smallStart.rxq with rxCq := smallCq } }, 0⟩,
    none, []⟩, 0, 1, .polling, []⟩

theorem smallReceived_reachable {init : ServerRun → Prop} (hinit : init smallServer) (cfg : Config)
    (numRefcntArrays : UInt64) (fuel : ℕ) :
    Reachable init (CheckedStep cfg numRefcntArrays fuel) smallReceived := by
  have horder : InRingOrder smallStart.rxq.rxWq.wqeCnt.toNat 0 [0] := by
    intro i counter hi
    obtain ⟨hlt, rfl⟩ := List.getElem?_eq_some_iff.mp hi
    obtain rfl : i = 0 := by simpa using hlt
    rfl
  -- both bytes lie in the buffer that is posted in slot 0
  have hposted : smallStart.rxq.PostedIn 0 0x400000 := ⟨rfl, by decide +kernel⟩
  have hmem : ∀ p, (∀ slot < smallStart.rxq.rxWq.wqeCnt.toNat, ∀ buf,
      smallStart.rxq.PostedIn slot buf → p < buf.toNat + rxBufHead.toNat ∨
        buf.toNat + rxBufHead.toNat + (netMtu + rxBufTail).toNat ≤ p) →
      smallPacket p = smallStart.mem p := by
    intro p houtside
    have hp := houtside 0 (by decide) _ hposted
    have hbuf : (0x400000 : Addr).toNat + rxBufHead.toNat = 0x400080 := rfl
    rw [hbuf] at hp
    have hlen : (netMtu + rxBufTail).toNat = 9280 := rfl
    rw [hlen] at hp
    rw [smallPacket, Function.update_of_ne (by omega), Function.update_of_ne (by omega)]
  exact (Reachable.init hinit).step
    (.receives (.receive (Nat.zero_le 1) rfl (by decide) horder (by decide +kernel) hmem))

/-- Whatever a packet asks the small server for, its reply stays inside. -/
theorem smallConfig_replyInside (st : State) (request : Addr) :
    ReplyInside smallConfig 1 st request where
  checksum := by simp [smallConfig, Config.default]
  divisor := fun _ => by decide
  counts := by simp [smallConfig]
  fits := fun _ => by decide

theorem smallConfig_placed : WorkingSetPlaced smallConfig := ⟨by decide, by decide, by decide⟩

/-- And so do its steps, until it posts. -/
theorem stepInside_smallConfig {r r' : ServerRun} (hphase : ∀ rest batch, r.phase ≠ .posting rest batch) :
    StepInside smallConfig 1 r r' := by
  unfold StepInside
  split
  · exact fun _ _ _ => buildInside_of_forall smallConfig_placed (by decide) smallConfig_replyInside
  · rename_i hposting
    exact absurd hposting (hphase _ _)
  · trivial

/-- It polls its packet. -/
theorem smallPolled_reachable {init : ServerRun → Prop} (hinit : init smallServer) {r : ServerRun}
    (hpoll : doServerStep smallConfig 32 smallReceived = some r) :
    Reachable init (CheckedStep smallConfig 1 32) r :=
  (smallReceived_reachable hinit smallConfig 1 32).step
    (.program hpoll (stepInside_smallConfig (by simp [smallReceived])))

/-- Then it processes what it polled. -/
theorem smallProcessed_reachable {init : ServerRun → Prop} (hinit : init smallServer)
    {r r' : ServerRun} (hpoll : doServerStep smallConfig 32 smallReceived = some r)
    (hprocess : doServerStep smallConfig 32 r = some r') :
    Reachable init (CheckedStep smallConfig 1 32) r' := by
  refine (smallPolled_reachable hinit hpoll).step (.program hprocess (stepInside_smallConfig ?_))
  have hphase : smallReceived.phase = .polling := rfl
  rw [doServerStep, hphase] at hpoll
  obtain ⟨⟨ms, st⟩, -, rfl⟩ := Option.map_eq_some_iff.mp hpoll
  simp

/-- Two steps of the program later its reply is about to be posted. -/
theorem exists_smallPosting {init : ServerRun → Prop} (hinit : init smallServer) :
    ∃ r, Reachable init (CheckedStep smallConfig 1 32) r ∧ r.phase = .posting [] [0x400000] ∧
      r.lost = [] ∧ r.st.txq.sq.wqeCnt = 4 ∧ r.st.rxq.rxWq.wqeCnt = 4 := by
  have hruns : ((doServerStep smallConfig 32 smallReceived).bind (doServerStep smallConfig 32)).map
      (fun r => (r.phase, r.lost, r.st.txq.sq.wqeCnt, r.st.rxq.rxWq.wqeCnt)) =
        some (.posting [] [0x400000], [], 4, 4) := by
    decide +kernel
  obtain ⟨r, hr, heq⟩ := Option.map_eq_some_iff.mp hruns
  obtain ⟨r₁, hpoll, hprocess⟩ := Option.bind_eq_some_iff.mp hr
  simp only [Prod.mk.injEq] at heq
  exact ⟨r, smallProcessed_reachable hinit hpoll hprocess, heq⟩

end ServerRun

end Mlx5Netperf
