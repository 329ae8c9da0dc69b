import Mlx5Netperf.Client.Pacing
import Mlx5Netperf.Server.ServerCustody

/-!
# Custody of the Whole Client

With mbufs that say of themselves that they are alone, the client keeps its pools: in
every state that it reaches each item is free, posted in the receive ring, held by a
packet that is outstanding or being sent, or in the hands of `do_client`. Unlike the
server it never loses a packet.
-/

namespace Mlx5Netperf

open SendFifo Transition

namespace WholeClient

variable {cfg : ClientConfig} {fuel duration horizon : ℕ} {I : Holding} {now : UInt64}
  {running : Bool} {r r' : WholeClient} {st : State}

/-! ## The invariant -/

/-- The mbufs of the pool point nowhere, and each says that it is alone. -/
def CleanMbufs (I : Holding) (st : State) : Prop :=
  ∀ a ∈ I.mbufs, (st.heap a).next = none ∧ (st.heap a).nbSegs = 1

/-- What holds in every state that the client reaches. -/
structure Inv (fuel : ℕ) (I : Holding) (r : WholeClient) : Prop where
  ring : SendRun.Inv fuel r.run
  held : ChainsHold driver I r.taken r.received r.hands r.heads r.st
  legal : ∀ pkt ∈ r.heads,
    LegalSend fuel r.st.heap (Event.outstanding r.st.trace) pkt (some r.requestHeader) 0
  clean : CleanMbufs I r.st

/-- The client at the start, with clean mbufs. It is no state that `init_mlx5` leaves:
`mempool_memory_init` fills them with `DEFAULT_CHAR`, and then nothing is ever posted.
This is what the client does once the two fields are set. -/
structure CleanStart (I : Holding) (r : WholeClient) : Prop where
  init : Init I r
  clean : CleanMbufs I r.st

theorem CleanStart.inv (h : CleanStart I r) : Inv fuel I r := by
  obtain ⟨ring, hreceive⟩ := h.init.receive.inv
  have hhands : r.hands = [] := by rw [hands, h.init.phase]
  have hheads : r.heads = [] := by rw [heads, h.init.phase]
  constructor
  case ring => exact h.init.run.inv
  case held =>
    rw [hhands, hheads]
    refine ⟨[], [], ?_, .nil, ?_, ?_, ring, [], hreceive⟩
    · rw [h.init.run.trace]
      exact .nil
    · have hfresh := Mempool.HandedOut.fresh h.init.mbufs_allocated h.init.mbufs_capacity
      rwa [h.init.mbufs] at hfresh
    · have hfresh := Mempool.HandedOut.fresh h.init.buffers_allocated h.init.buffers_capacity
      rwa [h.init.buffers] at hfresh
  case legal => simp [hheads]
  case clean => exact h.clean

/-! ## Building a packet -/

namespace Built

variable {request : ClientRequest} {pkt buffer : Addr} {st' : State} {taken received : ℕ}
  {own : List Addr} {hs : List Holding}

/-- What the chains hold is left alone. -/
theorem apart (h : Built cfg request st pkt buffer st') (hI : I.Distinct)
    (hheld : HeldBy I st taken received own hs) {x : Holding} (hx : x ∈ hs) {a : Addr}
    (ha : a ∈ x.mbufs ++ x.packets) : st'.heap a = st.heap a := by
  refine h.frame fun heq => (hheld.apart hI hx ha).1 ?_
  rw [heq]
  exact h.free

/-- **The packet takes one mbuf and one buffer.** -/
theorem heldBy (h : Built cfg request st pkt buffer st') (hI : I.Distinct)
    (hheld : HeldBy I st taken received own hs) :
    HeldBy I st' taken received own (hs ++ [⟨[pkt], [buffer], []⟩]) := by
  obtain ⟨mbufs, hmbufs, hmbufs'⟩ := h.mbufs
  obtain ⟨buffers, hbuffers, hbuffers'⟩ := h.buffers
  obtain ⟨-, -, hpool⟩ := mempoolAlloc_eq_some hmbufs
  obtain ⟨-, -, hpool'⟩ := mempoolAlloc_eq_some hbuffers
  constructor
  case mbufs =>
    rw [hmbufs', List.flatMap_append]
    have htake : mbufs.HandedOut I.mbufs ([pkt] ++ hs.flatMap Holding.mbufs) :=
      hheld.mbufs.take (freeList_of_mempoolAlloc hmbufs) (by rw [hpool]) (by rw [hpool]; rfl)
    exact htake.congr List.perm_append_comm
  case buffers =>
    rw [hbuffers', List.flatMap_append]
    have htake : buffers.HandedOut I.buffers ([buffer] ++ hs.flatMap Holding.buffers) :=
      hheld.buffers.take (freeList_of_mempoolAlloc hbuffers) (by rw [hpool']) (by rw [hpool']; rfl)
    exact htake.congr List.perm_append_comm
  case packets =>
    obtain ⟨ring, counters, hinv⟩ := hheld.packets
    refine ⟨ring, counters, hinv.congr h.rxq h.rxBufMempool (by simp) fun m hm hreceived => ?_⟩
    -- a packet is none of the free mbufs
    have hne : m ≠ pkt := fun heq => hheld.packet_not_free hI hm (heq ▸ h.free)
    have hsame := h.frame hne
    exact ⟨by rw [hsame, hreceived.head], by rw [hsame, hreceived.release]⟩

end Built

/-! ## Steps of the program -/

/-- An mbuf of the pool is none of the packets that wait for it. -/
theorem CleanMbufs.congr {st' : State} (h : CleanMbufs I st)
    (hsame : ∀ a ∈ I.mbufs, (st'.heap a).next = (st.heap a).next ∧
      (st'.heap a).nbSegs = (st.heap a).nbSegs) : CleanMbufs I st' := by
  intro a ha
  rw [(hsame a ha).1, (hsame a ha).2]
  exact h a ha

/-- **A packet is built**, and is sent next. -/
theorem Inv.built {request : ClientRequest} {pkt buffer : Addr} (h : Inv fuel I r) (hI : I.Distinct)
    (hfuel : 1 ≤ fuel) (hhands : r.hands = []) (hheads : r.heads = [])
    (hbuilt : Built cfg request r.st pkt buffer st) (hst : r'.run = { r.run with st := st })
    (htaken : r'.taken = r.taken) (hreceived : r'.received = r.received)
    (hphase : r'.phase = .sending pkt) : Inv fuel I r' := by
  have hhands' : r'.hands = [] := by rw [hands, hphase]
  have hheads' : r'.heads = [pkt] := by rw [heads, hphase]
  have hst' : r'.st = st := by rw [WholeClient.st, hst]
  have hheld := h.held
  rw [hhands, hheads] at hheld
  obtain ⟨hs, hsome, -⟩ := hheld.exists_heldBy
  have hfree : pkt ∈ I.mbufs := hsome.mbufs.free_mem_items hbuilt.free
  obtain ⟨hrelease, hhead, hnext, hnbSegs⟩ := hbuilt.self
  rw [(h.clean pkt hfree).1] at hnext
  rw [(h.clean pkt hfree).2] at hnbSegs
  obtain ⟨q, hq, hpending⟩ := h.ring
  have happ : SendRun.AppStep r.st st := hheld.appStep hbuilt.txq hbuilt.trace
    fun hs hboth x hx a ha => hbuilt.apart hI hboth hx ha
  constructor
  case ring =>
    rw [hst]
    exact ⟨q, happ.sendInv hq hpending, hpending⟩
  case held =>
    rw [hhands', hheads', htaken, hreceived, hst']
    refine hheld.extend (by rw [hbuilt.trace]) (fun hs hboth => ⟨hbuilt.heldBy hI hboth,
      fun x hx a ha => hbuilt.apart hI hboth hx ha⟩) (.cons ?_ .nil)
    exact .copied rfl rfl hrelease hnext hhead
  case legal =>
    intro pkt' hpkt'
    rw [hheads', List.mem_singleton] at hpkt'
    subst hpkt'
    rw [hst', hbuilt.trace]
    refine ⟨⟨[pkt'], NullTerminated.isChain_singleton hnext, ?_, hfuel⟩, ?_, ?_, ?_, .inl rfl, ?_⟩
    · rw [hnbSegs]
      rfl
    · rw [hnbSegs]
      decide
    · rw [hrelease]
      exact Option.some_ne_none _
    · -- the mbufs of the outstanding chains are not free
      rw [hq.run.outstanding_eq]
      intro hmem
      obtain ⟨s, hs', rfl⟩ := List.mem_map.mp hmem
      obtain ⟨nodes, hchain, -⟩ := (hq.waiting s hs').releasable.chain
      obtain ⟨hs, hboth, hchains⟩ := hheld.exists_heldBy
      obtain ⟨x, hx, rfl⟩ := hchains s (by rwa [hq.run.outstanding_eq]) nodes hchain
      exact (hboth.apart hI hx hchain.head_mem).1 hbuilt.free
    · intro hpos
      exact absurd hpos (by decide)
  case clean =>
    rw [hst']
    refine h.clean.congr fun a ha => ?_
    by_cases heq : a = pkt
    · subst heq
      exact ⟨hbuilt.self.2.2.1, hbuilt.self.2.2.2⟩
    · rw [hbuilt.frame heq]
      exact ⟨rfl, rfl⟩

/-- **A packet is sent or refused.** -/
theorem Inv.transmit {pkt : Addr} {ret : ℕ} (h : Inv fuel I r) (hphase : r.phase = .sending pkt)
    (hcall : mlx5TransmitOne driver fuel r.st pkt (some r.requestHeader) 0 = some (ret, st))
    (hrun : r'.run = { r.run with st := st }) (htaken : r'.taken = r.taken)
    (hreceived : r'.received = r.received) (hheader : r'.requestHeader = r.requestHeader)
    (hphase' : r'.phase = if ret = 1 then .waiting else .sending pkt) : Inv fuel I r' := by
  have hheads : r.heads = [pkt] := by rw [heads, hphase]
  have hhands : r.hands = [] := by rw [hands, hphase]
  have hhands' : r'.hands = [] := by
    rw [hands, hphase']
    by_cases hret : ret = 1 <;> simp [hret]
  have hheads' : r'.heads = if ret = 1 then [] else [pkt] := by
    rw [heads, hphase']
    by_cases hret : ret = 1 <;> simp [hret]
  have hst : r'.st = st := by rw [WholeClient.st, hrun]
  obtain ⟨q, hq, hpending⟩ := h.ring
  have hlegal := h.legal pkt (by rw [hheads]; exact List.mem_singleton_self _)
  rw [hq.run.outstanding_eq] at hlegal
  have hheld := h.held
  rw [hhands, hheads] at hheld
  obtain ⟨q', hq', hpending', hsent⟩ :=
    ((queueHolds_iff hq hpending).mpr hheld).transmit hq hpending hlegal hcall
  obtain ⟨ret', st', q'', hcall', hq'', hpending'', hcase⟩ :=
    mlx5TransmitOne_outcome driver hq hpending hlegal
  obtain ⟨rfl, rfl⟩ := Prod.mk.inj (Option.some.inj (hcall.symm.trans hcall'))
  have hsame : r.st.heap.SameButWqes st.heap := by
    rcases hcase with ⟨-, hring, -⟩ | ⟨-, hring, -⟩
    · rw [hring.heap]
      exact .refl _
    · rw [hring.heap]
      exact Heap.sameButWqes_modify r.st.heap pkt _
  constructor
  case ring =>
    rw [hrun]
    exact ⟨q', hq', hpending'⟩
  case held =>
    rw [hhands', hheads', htaken, hreceived, hst]
    exact (queueHolds_iff hq' hpending').mp hsent
  case legal =>
    intro pkt' hpkt'
    rw [hheads'] at hpkt'
    split at hpkt'
    case isTrue => simp at hpkt'
    case isFalse hret =>
      obtain rfl := List.mem_singleton.mp hpkt'
      rw [hst, hheader, hq''.run.outstanding_eq]
      -- what is outstanding after a refusal was outstanding before
      rcases hcase with ⟨-, -, hsub⟩ | ⟨hone, -, -⟩
      · exact hlegal.mono hsame fun s hs => .inl (hsub s hs)
      · exact absurd hone hret
  case clean =>
    rw [hst]
    refine h.clean.congr fun a _ => ?_
    obtain ⟨n, hn⟩ := hsame a
    rw [hn]
    exact ⟨rfl, rfl⟩

/-- **A burst of packets is taken.** -/
theorem Inv.gather {ms : List Addr} (h : Inv fuel I r) (hI : I.Distinct) (hphase : r.phase = .waiting)
    (hcall : mlx5GatherRx r.st 32 = some (ms, st)) (hrun : r'.run = { r.run with st := st })
    (htaken : r'.taken = r.taken + ms.length) (hreceived : r'.received = r.received)
    (hphase' : r'.phase = .burst ms) : Inv fuel I r' := by
  have hst : r'.st = st := by rw [WholeClient.st, hrun]
  have hheads' : r'.heads = [] := by rw [heads, hphase']
  have hhands' : r'.hands = ms := by rw [hands, hphase']
  have hheld := h.held
  rw [hands, heads, hphase] at hheld
  obtain ⟨hgathered, happ⟩ := hheld.gather hI hcall
  have hkeeps := mlx5GatherRx_keeps hcall
  obtain ⟨q, hq, hpending⟩ := h.ring
  constructor
  case ring =>
    rw [hrun]
    exact ⟨q, happ.sendInv hq hpending, hpending⟩
  case held =>
    rw [hhands', hheads', htaken, hreceived, hst]
    exact hgathered.perm (by simp)
  case legal => simp [hheads']
  case clean =>
    rw [hst]
    refine h.clean.congr fun a ha => ?_
    obtain ⟨hs, hboth, -⟩ := hheld.exists_heldBy
    -- what was written are packets, taken or posted
    have hsame : st.heap a = r.st.heap a := by
      refine hkeeps.heap a fun htouched => hI.apart a ha ?_
      rcases htouched with hms | hfree
      · obtain ⟨ring, counters, hinv⟩ := (hboth.gather hcall).packets
        refine hinv.conserved.mem_iff.mp ?_
        simp [hms]
      · obtain ⟨ring, counters, hinv⟩ := hboth.packets
        refine hinv.conserved.mem_iff.mp ?_
        simp [hfree]
    rw [hsame]
    exact ⟨rfl, rfl⟩

/-- **A packet of the burst is freed.** -/
theorem Inv.free {pkt : Addr} {rest : List Addr} (h : Inv fuel I r)
    (hphase : r.phase = .burst (pkt :: rest))
    (hfree : mbufFree driver fuel r.st (some pkt) = some st)
    (hrun : r'.run = { r.run with st := { st with trace := r.st.trace } })
    (htaken : r'.taken = r.taken) (hreceived : r'.received = r.received)
    (hphase' : r'.phase = .burst rest) : Inv fuel I r' := by
  have hst : r'.st = { st with trace := r.st.trace } := by rw [WholeClient.st, hrun]
  have hhands : r.hands = pkt :: rest := by rw [hands, hphase]
  have hheads : r.heads = [] := by rw [heads, hphase]
  have hhands' : r'.hands = rest := by rw [hands, hphase']
  have hheads' : r'.heads = [] := by rw [heads, hphase']
  have hheap := mbufFree_heap hfree
  obtain ⟨tail, hreleased⟩ := mbufFree_released hfree
  obtain ⟨q, hq, hpending⟩ := h.ring
  have hheld := h.held
  rw [hhands, hheads] at hheld
  constructor
  case ring =>
    rw [hrun]
    have htxq : st.txq = r.st.txq := hreleased.keeps.txq
    refine ⟨q, ?_, hpending⟩
    show SendInv fuel r.run.reported st.txq st.heap r.st.trace q
    rw [htxq, hheap]
    exact hq
  case held =>
    rw [hhands', hheads', htaken, hreceived, hst]
    refine hheld.congr rfl fun hs hboth => ⟨?_, fun _ _ a _ => congrFun hheap a⟩
    have hfreed := hboth.freeOwn (List.mem_cons_self ..) hfree
    exact hfreed.congr rfl rfl rfl rfl (by simp) (.refl _) fun _ _ hreceived => hreceived
  case legal => simp [hheads']
  case clean =>
    rw [hst]
    refine h.clean.congr fun a _ => ?_
    simp only [hheap, and_self]

/-- The queues, the pools and the mbufs stay, and the program goes on. -/
theorem Inv.quiet (h : Inv fuel I r) (hrun : r'.run = r.run) (htaken : r'.taken = r.taken)
    (hreceived : r'.received = r.received) (hhands : r'.hands = r.hands) (hheads : r.heads = [])
    (hheads' : r'.heads = []) : Inv fuel I r' := by
  have hst : r'.st = r.st := by rw [WholeClient.st, hrun]
  have hheld := h.held
  rw [hheads] at hheld
  constructor
  case ring => rw [hrun]; exact h.ring
  case held => rw [hhands, hheads', htaken, hreceived, hst]; exact hheld
  case legal => simp [hheads']
  case clean => rw [hst]; exact h.clean

/-- **Every step of the program** keeps the invariant. -/
theorem doClientStep_inv (h : Inv fuel I r) (hI : I.Distinct) (hfuel : 1 ≤ fuel)
    (hstep : doClientStep cfg fuel running now r = some r') : Inv fuel I r' := by
  unfold doClientStep at hstep
  split at hstep
  case h_1 hphase =>
    have hhands : r.hands = [] := by rw [hands, hphase]
    have hheads : r.heads = [] := by rw [heads, hphase]
    split at hstep
    case isTrue =>
      obtain ⟨request, -, hmap⟩ := Option.bind_eq_some_iff.mp hstep
      obtain ⟨⟨result, st⟩, hbuild, hresult⟩ := Option.map_eq_some_iff.mp hmap
      cases result with
      | error ret =>
        subst hresult
        obtain rfl := buildClientPacket_error hbuild
        exact h.quiet rfl rfl rfl hhands.symm hheads rfl
      | ok pkt =>
        subst hresult
        obtain ⟨buffer, hbuilt⟩ := built_of_buildClientPacket hbuild
        exact h.built hI hfuel hhands hheads hbuilt rfl rfl rfl rfl
    case isFalse =>
      obtain rfl := Option.some.inj hstep
      exact h.quiet rfl rfl rfl hhands.symm hheads rfl
  case h_2 pkt hphase =>
    obtain ⟨⟨ret, st⟩, hcall, hresult⟩ := Option.map_eq_some_iff.mp hstep
    dsimp only at hresult
    split at hresult
    case isTrue hret =>
      subst hresult
      exact h.transmit hphase hcall rfl rfl rfl rfl (if_pos hret).symm
    case isFalse hret =>
      subst hresult
      exact h.transmit hphase hcall rfl rfl rfl rfl (hphase.trans (if_neg hret).symm)
  case h_3 hphase =>
    have hhands : r.hands = [] := by rw [hands, hphase]
    have hheads : r.heads = [] := by rw [heads, hphase]
    obtain ⟨request, -, hmap⟩ := Option.bind_eq_some_iff.mp hstep
    split at hmap
    case isTrue =>
      obtain rfl := Option.some.inj hmap
      exact h.quiet rfl rfl rfl hhands.symm hheads rfl
    case isFalse =>
      split at hmap
      case isTrue =>
        obtain rfl := Option.some.inj hmap
        exact h.quiet rfl rfl rfl hhands.symm hheads rfl
      case isFalse =>
        obtain ⟨⟨ms, st⟩, hcall, rfl⟩ := Option.map_eq_some_iff.mp hmap
        exact h.gather hI hphase hcall rfl rfl rfl rfl
  case h_4 hphase =>
    obtain rfl := Option.some.inj hstep
    exact h.quiet rfl rfl rfl (by rw [hands, hands, hphase]) (by rw [heads, hphase]) rfl
  case h_5 pkt rest hphase =>
    -- with or without an entry in the packet map
    unfold handleReply at hstep
    split at hstep
    case h_1 =>
      obtain ⟨st, hfree, rfl⟩ := Option.map_eq_some_iff.mp hstep
      exact h.free hphase hfree rfl rfl rfl rfl
    case h_2 =>
      obtain ⟨request, -, hreply⟩ := Option.bind_eq_some_iff.mp hstep
      obtain ⟨st, hfree, rfl⟩ := Option.map_eq_some_iff.mp hreply
      exact h.free hphase hfree rfl rfl rfl rfl
  case h_6 =>
    obtain rfl := Option.some.inj hstep
    exact h

/-! ## Runs -/

/-- **Every step keeps the invariant.** -/
theorem Step.inv (hI : I.Distinct) (hfuel : 1 ≤ fuel) (h : Inv fuel I r)
    (hstep : Step cfg fuel duration horizon r r') : Inv fuel I r' := by
  cases hstep with
  | @reports run' hnic =>
    obtain ⟨q, hq, hpending⟩ := h.ring
    have hring : SendRun.Inv fuel run' := ⟨q, hnic.sendInv hq, hpending⟩
    -- the device writes completion entries and nothing else
    obtain ⟨run, taken, received, account, header, lastSent, budget, phase, clock⟩ := r
    cases hnic
    refine ⟨hring, h.held.congr rfl fun hs hboth => ⟨?_, fun _ _ _ _ => rfl⟩, h.legal, h.clean⟩
    exact hboth.congr rfl rfl rfl rfl (.refl _) (.refl _) fun _ _ hreceived => hreceived
  | receives hnic =>
    obtain ⟨⟨st₀, reported⟩, taken, received, account, header, lastSent, budget, phase, clock⟩ := r
    cases hnic with
    | receive hle hlen hposted horder hreports =>
      refine ⟨h.ring, h.held.congr rfl fun hs hboth => ⟨?_, fun _ _ _ _ => rfl⟩, h.legal, h.clean⟩
      obtain ⟨ring, counters, hrx⟩ := hboth.packets
      obtain ⟨counters', hrx'⟩ := (RxRun.NicStep.receive hle hlen hposted horder hreports).inv hrx
      exact ⟨hboth.mbufs, hboth.buffers, ring, counters', hrx'⟩
  | program hfirst hnow hhorizon hrunning hrun =>
    have hinv := doClientStep_inv h hI hfuel hrun
    -- the clock is no part of it
    exact ⟨hinv.ring, hinv.held, hinv.legal, hinv.clean⟩

theorem Inv.of_reachable (hI : I.Distinct) (hfuel : 1 ≤ fuel)
    (h : Reachable (CleanStart I) (Step cfg fuel duration horizon) r) : Inv fuel I r :=
  Reachable.invariant (P := Inv fuel I) (fun _ hstart => hstart.inv)
    (fun _ _ hinv hstep => hstep.inv hI hfuel hinv) h

/-! ## Every item is in one place -/

/-- Where the items of the three pools are: the free ones, the buffers that are posted
in the slots of the receive ring, the packets of the burst, and what the packets hold
that are outstanding or being sent. -/
structure ItemsAccounted (I : Holding) (r : WholeClient) (slots : List Addr) (hs : List Holding) :
    Prop where
  ring : slots.length = r.st.rxq.rxWq.wqeCnt.toNat ∧
    ∀ s buf, slots[s]? = some buf → r.st.rxq.PostedIn s buf
  chains : List.Forall₂ (Holds driver r.st.heap)
    ((Event.outstanding r.st.trace).map Send.mbuf ++ r.heads) hs
  mbufs : (r.st.mbufMempool.freeList ++ hs.flatMap Holding.mbufs).Perm I.mbufs
  buffers : (r.st.txBufMempool.freeList ++ hs.flatMap Holding.buffers).Perm I.buffers
  packets : (r.st.rxBufMempool.freeList ++ slots ++ r.hands).Perm I.packets

/-- The packets that are outstanding, and those that are being sent. -/
theorem holds_of_carries {heap : Heap} {sends : List Send} {heads : List Addr}
    {out rest : List Holding} (hout : List.Forall₂ (Carries driver heap) sends out)
    (hrest : List.Forall₂ (Holds driver heap) heads rest) :
    List.Forall₂ (Holds driver heap) (sends.map Send.mbuf ++ heads) (out ++ rest) := by
  refine List.rel_append (List.forall₂_map_left_iff.mpr ?_) hrest
  exact hout.imp fun _ _ hcarries => hcarries.holds

/-- A packet of the client holds no receive buffer. -/
theorem flatMap_packets {heap : Heap} {heads : List Addr} {hs : List Holding}
    (h : List.Forall₂ (Holds driver heap) heads hs) : hs.flatMap Holding.packets = [] := by
  rw [List.flatMap_eq_nil_iff]
  intro x hx
  obtain ⟨i, hi, rfl⟩ := List.mem_iff_getElem.mp hx
  exact (h.get (h.length_eq ▸ hi) hi).eq_nil.1 rfl

/-- **The client loses nothing**: with clean mbufs, in every state that it reaches each
item of every pool is in one place. While it waits with nothing outstanding, the pools
that it sends from are full and only the posted buffers are missing from the other. -/
theorem items_accounted_client (hI : I.Distinct) (hfuel : 1 ≤ fuel)
    (h : Reachable (CleanStart I) (Step cfg fuel duration horizon) r) :
    (∃ slots hs, ItemsAccounted I r slots hs) ∧
      (r.phase = .waiting → Event.outstanding r.st.trace = [] →
        r.st.mbufMempool.freeList.Perm I.mbufs ∧ r.st.txBufMempool.freeList.Perm I.buffers ∧
          r.st.rxBufMempool.freeList.length + r.st.rxq.rxWq.wqeCnt.toNat = I.packets.length) := by
  have hinv : Inv fuel I r := Inv.of_reachable hI hfuel h
  obtain ⟨out, rest, hout, hrest, hheld⟩ := hinv.held
  obtain ⟨ring, counters, hrx⟩ := hheld.packets
  obtain ⟨slots, hlength, hposted, hslots⟩ := hrx.ready.exists_slots
  have hchains := holds_of_carries hout hrest
  have hperm := ((hslots.append_left r.st.rxBufMempool.freeList).append_right
    (r.hands ++ (out ++ rest).flatMap Holding.packets)).trans hrx.conserved
  rw [flatMap_packets hchains, List.append_nil] at hperm
  refine ⟨⟨slots, out ++ rest, ⟨hlength, hposted⟩, hchains, hheld.mbufs.perm, hheld.buffers.perm,
    hperm⟩, fun hphase hnone => ?_⟩
  -- nothing is outstanding and nothing is being sent
  have hnothing : out ++ rest = [] := by
    rw [hnone, heads, hphase, List.map_nil, List.append_nil, List.forall₂_nil_left_iff] at hchains
    exact hchains
  have hhands : r.hands = [] := by rw [hands, hphase]
  have hmbufs := hheld.mbufs.perm
  have hbuffers := hheld.buffers.perm
  have hpackets := hperm.length_eq
  simp only [hnothing, List.flatMap_nil, List.append_nil, hhands, List.length_append, hlength]
    at hmbufs hbuffers hpackets
  exact ⟨hmbufs, hbuffers, hpackets⟩

theorem smallClient_clean : CleanStart ServerRun.smallItems (smallClient fitMbuf) where
  init := smallClient_init fitMbuf
  clean := by
    have hall : ServerRun.smallItems.mbufs.map (fun a => (((smallClient fitMbuf).st.heap a).next,
        ((smallClient fitMbuf).st.heap a).nbSegs)) =
          List.replicate ServerRun.smallItems.mbufs.length (none, 1) := by
      decide +kernel
    exact fun a ha => Prod.mk.inj (List.map_eq_replicate_iff.mp hall a ha)

/-- The small client with its first packet outstanding. -/
theorem items_accounted_client_oneSent : ∃ r : WholeClient, r.phase = .waiting ∧
    r.account.current = 1 ∧ ∃ slots hs, ItemsAccounted ServerRun.smallItems r slots hs := by
  have hruns : (steps oneSegmentClient 32 [10, 10] (smallClient fitMbuf)).map
      (fun r => (r.phase, r.account.current)) = some (.waiting, 1) := by
    decide +kernel
  obtain ⟨r, hr, hphase⟩ := Option.map_eq_some_iff.mp hruns
  obtain ⟨hwaiting, hcurrent⟩ := Prod.mk.inj hphase
  have hreach := reachable_of_steps (.init smallClient_clean :
    Reachable (CleanStart ServerRun.smallItems) (Step oneSegmentClient 32 1500 2000) _)
    (by decide : ([0, 10, 10] : List UInt64).IsChain (· ≤ ·)) (by simp) hr
  exact ⟨r, hwaiting, hcurrent,
    (items_accounted_client ServerRun.smallItems_distinct (by decide) hreach).1⟩

end WholeClient

end Mlx5Netperf
