import Mlx5Netperf.Client.Request
import Mlx5Netperf.Server.ReplyChains

/-!
# Chains in Stale Memory

The mbufs that the pools hand out still hold what their last user, or the byte
that the pool was filled with, left there. The producers of the server set every
field that sending reads; `do_client` sets neither `next` nor `nb_segs`.
-/

namespace Mlx5Netperf

/-! ## The packet of the client -/

/-- `do_client` up to its call of `mlx5_transmit_one`. It gives up without an
mbuf; without a buffer it copies through a null pointer, which is `none`. -/
def buildClientPacket (cfg : ClientConfig) (r : ClientRequest) (st : State) :
    Option (Except Int32 Addr × State) :=
  match mempoolAlloc st.mbufMempool with
  | none => some (.error (-enomem), st)
  | some (pkt, mbufs) =>
    match mempoolAlloc st.txBufMempool with
    -- the header goes through the null pointer
    | none => none
    | some (buffer, buffers) =>
      let (mem, b) := fillClientPacket cfg r st.mem (st.heap pkt) buffer
      some (.ok pkt, { st with
        mem := mem
        heap := Function.update st.heap pkt b
        mbufMempool := mbufs
        txBufMempool := buffers })

/-! ## What the producers mean to send -/

/-- The data of a packet of the client in `buffer`. -/
def clientSegs (cfg : ClientConfig) (r : ClientRequest) (buffer : Addr) : List DataSeg :=
  [⟨UInt32.ofNat (clientFrame cfg r).length, cfg.txLkey, buffer⟩]

/-- The functions that pass chains to `mlx5_transmit_one`. -/
inductive Producer where
  | doClient
  | processServerRequests
  | processEchoRequests
  deriving DecidableEq

/-- A producer that ran in `st` passes the chain at `m` to `mlx5_transmit_one` in
the state `st'`, after other chains were sent. `segs` and `release` are its data
and its release function as the producer means them. Requests and rows of `send_mbufs`
have no end in the model; in the program they have `MAX_SCATTERS` entries, so these are
its chains for at most as many segments. -/
inductive PassedChain (fuel : ℕ) : Producer → State → State → Addr → List DataSeg → ReleaseFn →
    Prop where
  | doClient {cfg : ClientConfig} {server : Config} {r : ClientRequest} {st st₁ st' : State}
      {m buffer : Addr} (hbuild : buildClientPacket cfg r st = some (.ok m, st₁))
      (hbuffer : st.txBufMempool.freeList.head? = some buffer)
      (hsends : Transmits server fuel st₁ st') :
      PassedChain fuel .doClient st st' m (clientSegs cfg r buffer) .txCompletion
  | zeroCopy {cfg : Config} {requests heads : List Addr} {i : ℕ} {request m : Addr}
      {st st₁ st' : State} (hzero : cfg.zeroCopy = true)
      -- `nb_segs` has 32 bits
      (hsmall : cfg.numSegments.toNat < 2 ^ 32) (hnodup : st.mbufMempool.freeList.Nodup)
      (hfresh : ∀ r ∈ requests, r ∉ st.mbufMempool.freeList)
      (hbuild : buildReplies cfg fuel requests [] st = some (.ok heads, st₁))
      (hrequest : requests[i]? = some request) (hhead : heads[i]? = some m)
      (hsends : Transmits cfg fuel st₁ st') :
      PassedChain fuel .processServerRequests st st' m
        (zeroCopySegs cfg (requestedSegments cfg st request)) .zeroCopyTxCompletion
  | copy {cfg : Config} {requests heads : List Addr} {i : ℕ} {m buffer : Addr}
      {st st₁ st' : State} (hzero : cfg.zeroCopy = false)
      (hnodup : st.mbufMempool.freeList.Nodup)
      (hbuild : buildReplies cfg fuel requests [] st = some (.ok heads, st₁))
      (hhead : heads[i]? = some m) (hbuffer : st.txBufMempool.freeList[i]? = some buffer)
      (hsends : Transmits cfg fuel st₁ st') :
      PassedChain fuel .processServerRequests st st' m (copySegs cfg buffer) .txCompletion
  | echo {cfg : Config} {requests heads : List Addr} {m : Addr} {st st₁ st' : State}
      -- the requests are as `mbuf_fill_cqe` left them, in memory that held anything
      (hreceived : ∀ r ∈ requests, ∃ cqe b, st.heap r = mbufFillCqe r cqe b)
      (hbuild : echoRequests cfg requests [] st = (.ok heads, st₁)) (hhead : m ∈ heads)
      (hsends : Transmits cfg fuel st₁ st') :
      PassedChain fuel .processEchoRequests st st' m (echoSegs cfg m) .rxCompletion

/-! ## The client -/

section Client

variable {cfg : ClientConfig} {r : ClientRequest} {st st' : State} {m buffer : Addr}

/-- What the client sets in its mbuf, and what it leaves. -/
theorem fillClientPacket_mbuf (cfg : ClientConfig) (r : ClientRequest) (mem : ByteMemory)
    (b : Mbuf) (buffer : Addr) :
    (fillClientPacket cfg r mem b buffer).2 =
      { b with
        head := buffer
        headLen := reqMbufsSize
        data := buffer
        len := UInt32.ofNat (clientFrame cfg r).length
        release := some .txCompletion
        lkey := cfg.txLkey } := by
  simp [fillClientPacket, mbufCopy, mbufInit, clientFrame, UInt32.ofNat_add]

/-- **The packet of the client** has its shape exactly when the mbuf it got from
the pool happened to point nowhere and to say that it is alone. -/
theorem chainShape_client_iff (hbuild : buildClientPacket cfg r st = some (.ok m, st'))
    (hbuffer : st.txBufMempool.freeList.head? = some buffer) :
    ChainShape st'.heap m (clientSegs cfg r buffer) .txCompletion ↔
      (st.heap m).next = none ∧ (st.heap m).nbSegs = 1 := by
  unfold buildClientPacket at hbuild
  rcases hmbuf : mempoolAlloc st.mbufMempool with _ | ⟨pkt, mbufs⟩
  · simp [hmbuf] at hbuild
  rcases hbuf : mempoolAlloc st.txBufMempool with _ | ⟨buffer', buffers⟩
  · simp [hmbuf, hbuf] at hbuild
  simp only [hmbuf, hbuf, Option.some.injEq, Prod.mk.injEq, Except.ok.injEq] at hbuild
  obtain ⟨rfl, rfl⟩ := hbuild
  -- the packet lies in the buffer on top of the pool
  obtain rfl : buffer' = buffer := by
    rw [freeList_of_mempoolAlloc hbuf] at hbuffer
    exact Option.some.inj hbuffer
  have hself : Function.update st.heap pkt
      (fillClientPacket cfg r st.mem (st.heap pkt) buffer').2 pkt = _ :=
    (Function.update_self ..).trans (fillClientPacket_mbuf cfg r st.mem (st.heap pkt) buffer')
  dsimp only
  rw [clientSegs, ChainShape.singleton_iff, hself]
  · rw [hself]
    rfl
  · rw [hself]

end Client

/-! ## All producers -/

section Passed

variable {fuel : ℕ} {producer : Producer} {st st' : State} {m : Addr} {segs : List DataSeg}
  {release : ReleaseFn}

/-- Sending other chains does not change the shape. -/
theorem Transmits.chainShape_iff {cfg : Config} (h : Transmits cfg fuel st st') :
    ChainShape st'.heap m segs release ↔ ChainShape st.heap m segs release := by
  constructor
  · intro hshape
    -- `num_wqes` is the only field that sending writes
    refine hshape.sameButWqes fun a => ?_
    obtain ⟨n, hn⟩ := h.sameButWqes a
    exact ⟨(st.heap a).numWqes, by rw [hn]⟩
  · exact fun hshape => hshape.sameButWqes h.sameButWqes

/-- **Chains are well formed regardless of stale memory** when the server
builds them; a chain of the client is when the stale mbuf has no `next` and an
`nb_segs` of one. The descriptor of a well-formed chain does not depend on what
the memory held. -/
theorem chain_well_formed_iff (h : PassedChain fuel producer st st' m segs release) :
    (ChainShape st'.heap m segs release ∧ DescribedBy st' m segs) ↔
      (producer = .doClient → (st.heap m).next = none ∧ (st.heap m).nbSegs = 1) := by
  have hshape : ChainShape st'.heap m segs release ↔
      (producer = .doClient → (st.heap m).next = none ∧ (st.heap m).nbSegs = 1) := by
    cases h with
    | doClient hbuild hbuffer hsends =>
      rw [hsends.chainShape_iff, chainShape_client_iff hbuild hbuffer]
      simp
    | zeroCopy hzero hsmall hnodup hfresh hbuild hrequest hhead hsends =>
      rw [hsends.chainShape_iff]
      exact iff_of_true (chainShape_zeroCopy hzero hsmall hnodup hfresh hbuild hrequest hhead)
        (by simp)
    | copy hzero hnodup hbuild hhead hbuffer hsends =>
      rw [hsends.chainShape_iff]
      exact iff_of_true (chainShape_copy hzero hnodup hbuild hhead hbuffer) (by simp)
    | echo hreceived hbuild hhead hsends =>
      rw [hsends.chainShape_iff]
      exact iff_of_true (chainShape_echo hreceived hbuild hhead) (by simp)
  rw [← hshape]
  exact ⟨And.left, fun h => ⟨h, h.describedBy⟩⟩

/-- A client with one mbuf, which holds `b`, and one buffer. -/
def oneMbufClient (b : Mbuf) : State :=
  { State.zeroed 4 4 with
    heap := fun _ => b
    mbufMempool := ⟨fun _ => 0x1000, 0, 1, 0⟩
    txBufMempool := ⟨fun _ => 0x2000, 0, 1, 0⟩ }

/-- Its first packet. -/
theorem exists_passedChain_oneMbufClient (b : Mbuf) :
    ∃ st', PassedChain 1 .doClient (oneMbufClient b) st' 0x1000
      (clientSegs oneSegmentClient firstRequest 0x2000) .txCompletion :=
  ⟨_, .doClient rfl rfl (.refl : Transmits Config.default 1 _ _)⟩

/-- The first packet from an mbuf that its last user left alone in a chain. -/
theorem chain_well_formed_cleanMbuf :
    ∃ st', ChainShape st'.heap 0x1000 (clientSegs oneSegmentClient firstRequest 0x2000)
        .txCompletion ∧
      DescribedBy st' 0x1000 (clientSegs oneSegmentClient firstRequest 0x2000) := by
  obtain ⟨st', h⟩ := exists_passedChain_oneMbufClient { Mbuf.zeroed with nbSegs := 1 }
  exact ⟨st', (chain_well_formed_iff h).mpr fun _ => ⟨rfl, rfl⟩⟩

/-- An mbuf in memory that was filled with the byte `DEFAULT_CHAR`, as
`mempool_memory_init` leaves it. -/
def defaultCharMbuf : Mbuf :=
  { Mbuf.zeroed with next := some 0x6363636363636363, nbSegs := 0x63636363 }

/-- The very first packet of the client is no chain of one mbuf. -/
theorem chain_malformed_firstPacket :
    ¬ ∀ (fuel : ℕ) (producer : Producer) (st st' : State) (m : Addr) (segs : List DataSeg)
      (release : ReleaseFn), PassedChain fuel producer st st' m segs release →
      ChainShape st'.heap m segs release := by
  intro hclaim
  have hbuild : buildClientPacket oneSegmentClient firstRequest (oneMbufClient defaultCharMbuf) =
      some (.ok 0x1000, _) := rfl
  have hshape := hclaim 1 .doClient _ _ 0x1000 _ _
    (.doClient hbuild rfl (.refl : Transmits Config.default 1 _ _))
  have hclean := (chainShape_client_iff hbuild rfl).mp hshape
  exact absurd hclean.1 (by decide)

end Passed

end Mlx5Netperf
