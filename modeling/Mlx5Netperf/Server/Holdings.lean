import Mlx5Netperf.Mlx5.ReceiveRun
import Mlx5Netperf.ReleasedPools
import Mlx5Netperf.Server.LiveChains

/-!
# What a Chain Holds

Until its release a chain keeps items of the three pools: a zero-copy chain its
mbufs, a copied reply its mbuf and its buffer, an echoed packet the receive buffer
that it came in. What the pools lack is what the chains hold, through completions
and posting, in every mode.
-/

namespace Mlx5Netperf

open SendFifo

/-! ## Items handed out -/

/-- Of the `items` of the pool `out` are handed out, the others are free. -/
structure Mempool.HandedOut (pool : Mempool) (items out : List Addr) : Prop where
  perm : (pool.freeList ++ out).Perm items
  length_items : items.length = pool.capacity
  allocated : pool.allocated ≤ pool.capacity
  capacity : pool.capacity < 2 ^ 64

namespace Mempool.HandedOut

variable {pool pool' : Mempool} {items out out' : List Addr} {a : Addr}

/-- A pool that nothing was taken from. -/
theorem fresh (hallocated : pool.allocated = 0) (hcapacity : pool.capacity < 2 ^ 64) :
    pool.HandedOut pool.freeList [] where
  perm := by rw [List.append_nil]
  length_items := by rw [length_freeList, hallocated, Nat.sub_zero]
  allocated := by omega
  capacity := hcapacity

theorem congr (h : pool.HandedOut items out) (hout : out.Perm out') :
    pool.HandedOut items out' :=
  { h with perm := (hout.symm.append_left _).trans h.perm }

/-- Nothing is free and handed out. -/
theorem not_free (h : pool.HandedOut items out) (hnodup : items.Nodup) (ha : a ∈ out) :
    a ∉ pool.freeList := fun hfree =>
  (List.nodup_append.mp (h.perm.nodup_iff.mpr hnodup)).2.2 a hfree a ha rfl

theorem mem_items (h : pool.HandedOut items out) (ha : a ∈ out) : a ∈ items :=
  h.perm.mem_iff.mp (List.mem_append_right _ ha)

theorem free_mem_items (h : pool.HandedOut items out) (ha : a ∈ pool.freeList) : a ∈ items :=
  h.perm.mem_iff.mp (List.mem_append_left _ ha)

/-- What is not handed out is free. -/
theorem length_add (h : pool.HandedOut items out) :
    pool.freeList.length + out.length = items.length := by
  rw [← List.length_append, h.perm.length_eq]

/-- Items are taken off the free list. -/
theorem take (h : pool.HandedOut items out) {taken : List Addr}
    (hfree : pool.freeList = taken ++ pool'.freeList) (hcapacity : pool'.capacity = pool.capacity)
    (hallocated : pool'.allocated = pool.allocated + taken.length) :
    pool'.HandedOut items (taken ++ out) := by
  have hlength := congrArg List.length hfree
  have hle := h.allocated
  rw [List.length_append, length_freeList, length_freeList] at hlength
  constructor
  case perm =>
    have hperm := h.perm
    rw [hfree, List.append_assoc] at hperm
    refine List.Perm.trans ?_ hperm
    rw [← List.append_assoc, ← List.append_assoc]
    exact List.perm_append_comm.append_right _
  case length_items => rw [hcapacity, h.length_items]
  case allocated =>
    -- as many as were taken were free
    omega
  case capacity => rw [hcapacity]; exact h.capacity

/-- **An item that is handed out is given back.** -/
theorem give (h : pool.HandedOut items (a :: out)) : (mempoolFree pool a).HandedOut items out := by
  have hlength := h.length_add
  have hitems := h.length_items
  have hle := h.allocated
  have hcapacity := h.capacity
  rw [length_freeList, List.length_cons] at hlength
  have hpos : 0 < pool.allocated := by omega
  have hallocated : (mempoolFree pool a).allocated = pool.allocated - 1 :=
    WordArith.sizeSub_of_le hpos (by omega)
  constructor
  case perm =>
    rw [freeList_mempoolFree a hpos hle hcapacity]
    exact List.perm_middle.symm.trans h.perm
  case length_items => exact hitems
  case allocated =>
    rw [hallocated, mempoolFree_capacity]
    omega
  case capacity => exact hcapacity

/-- Several items, one after the other. -/
theorem giveAll {nodes : List Addr} (h : pool.HandedOut items (nodes ++ out)) :
    (nodes.foldl mempoolFree pool).HandedOut items out := by
  induction nodes generalizing pool with
  | nil => exact h
  | cons a nodes ih => exact ih h.give

end Mempool.HandedOut

/-! ## Holdings -/

/-- What a chain keeps from each pool until it is released. -/
structure Holding where
  mbufs : List Addr
  buffers : List Addr
  packets : List Addr

/-- The chain that starts at `m` is a reply of this mode, and what it holds. -/
inductive Holds (cfg : Config) (heap : Heap) (m : Addr) : Holding → Prop where
  | scatterList {nodes : List Addr} (hecho : cfg.echoMode = false) (hzero : cfg.zeroCopy = true)
      (hrelease : (heap m).release = some .zeroCopyTxCompletion)
      (hchain : heap.IsChain (some m) nodes) : Holds cfg heap m ⟨nodes, [], []⟩
  | copied {buffer : Addr} (hecho : cfg.echoMode = false) (hzero : cfg.zeroCopy = false)
      (hrelease : (heap m).release = some .txCompletion) (hnext : (heap m).next = none)
      (hhead : (heap m).head = buffer) : Holds cfg heap m ⟨[m], [buffer], []⟩
  | packet (hecho : cfg.echoMode = true) (hrelease : (heap m).release = some .rxCompletion)
      (hnext : (heap m).next = none) (hhead : (heap m).head = m) : Holds cfg heap m ⟨[], [], [m]⟩

namespace Holds

variable {cfg : Config} {heap heap' : Heap} {m : Addr} {h : Holding}

/-- The mbufs of the chain are of the pool of mbufs, or the packet itself. -/
theorem chain (hh : Holds cfg heap m h) : heap.IsChain (some m) (h.mbufs ++ h.packets) := by
  cases hh with
  | scatterList _ _ _ hchain => rwa [List.append_nil]
  | copied _ _ _ hnext _ => exact NullTerminated.isChain_singleton hnext
  | packet _ _ hnext _ => exact NullTerminated.isChain_singleton hnext

theorem congr (hh : Holds cfg heap m h) (hsame : ∀ a ∈ h.mbufs ++ h.packets, heap.SameAt heap' a) :
    Holds cfg heap' m h := by
  have hself := hsame m hh.chain.head_mem
  have hrelease : (heap' m).release = (heap m).release ∧ (heap' m).head = (heap m).head := by
    obtain ⟨n, hn⟩ := hself
    rw [hn]
    exact ⟨rfl, rfl⟩
  -- of the mbufs only `num_wqes` may be another
  cases hh with
  | scatterList hecho hzero hzc hchain =>
    refine .scatterList hecho hzero (hrelease.1.trans hzc) ?_
    exact NullTerminated.IsChain.congr hchain fun a ha => (hsame a (by simpa using ha)).next
  | copied hecho hzero htx hnext hhead =>
    exact .copied hecho hzero (hrelease.1.trans htx) (hself.next.trans hnext)
      (hrelease.2.trans hhead)
  | packet hecho hrx hnext hhead =>
    exact .packet hecho (hrelease.1.trans hrx) (hself.next.trans hnext) (hrelease.2.trans hhead)

/-- Unless it is a scatter list, a chain is one mbuf. -/
theorem length_le (hh : Holds cfg heap m h) :
    (cfg.zeroCopy = false ∨ cfg.echoMode = true → h.mbufs.length ≤ 1) ∧ h.buffers.length ≤ 1 ∧
      h.packets.length ≤ 1 := by
  cases hh with
  | scatterList hecho hzero _ _ => exact ⟨by simp [hecho, hzero], by simp, by simp⟩
  | copied _ _ _ _ _ => simp
  | packet _ _ _ _ => simp

/-- Outside echo mode no packet is held, and buffers only by copies. -/
theorem eq_nil (hh : Holds cfg heap m h) : (cfg.echoMode = false → h.packets = []) ∧
    (cfg.echoMode = true → h.mbufs = []) ∧
    (cfg.echoMode = true ∨ cfg.zeroCopy = true → h.buffers = []) := by
  cases hh with
  | scatterList hecho hzero _ _ => simp [hecho]
  | copied hecho hzero _ _ _ => simp [hecho, hzero]
  | packet hecho _ _ _ => simp [hecho]

end Holds

/-- A send of the queue, what its chain holds, and that four of its mbufs at most
were put in one block of the ring. -/
structure Carries (cfg : Config) (heap : Heap) (s : Send) (h : Holding) : Prop where
  holds : Holds cfg heap s.mbuf h
  blocks : h.mbufs.length ≤ 4 * s.numWqes.toNat

section Several

variable {cfg : Config} {heap heap' : Heap} {heads : List Addr} {sends : List Send}
  {hs : List Holding}

theorem holds_congr (hall : List.Forall₂ (Holds cfg heap) heads hs)
    (hsame : ∀ h ∈ hs, ∀ a ∈ h.mbufs ++ h.packets, heap.SameAt heap' a) :
    List.Forall₂ (Holds cfg heap') heads hs := by
  refine List.forall₂_iff_zip.mpr ⟨hall.length_eq, fun {m h} hmem => ?_⟩
  exact ((List.forall₂_iff_zip.mp hall).2 hmem).congr (hsame h (List.of_mem_zip hmem).2)

theorem carries_congr (hall : List.Forall₂ (Carries cfg heap) sends hs)
    (hsame : ∀ h ∈ hs, ∀ a ∈ h.mbufs ++ h.packets, heap.SameAt heap' a) :
    List.Forall₂ (Carries cfg heap') sends hs := by
  refine List.forall₂_iff_zip.mpr ⟨hall.length_eq, fun {s h} hmem => ?_⟩
  have hcarries := (List.forall₂_iff_zip.mp hall).2 hmem
  exact ⟨hcarries.holds.congr (hsame h (List.of_mem_zip hmem).2), hcarries.blocks⟩

end Several

/-! ## What the pools lack -/

/-- Only the receive ring, its pool and what makes the mbufs received ones matter. -/
theorem RxRun.Inv.congr {items ring hands hands' : List Addr} {counters : List UInt16}
    {st st' : State} {taken received : ℕ}
    (h : RxRun.Inv items ⟨st, taken, received, hands⟩ ring counters) (hrxq : st'.rxq = st.rxq)
    (hpool : st'.rxBufMempool = st.rxBufMempool) (hhands : hands.Perm hands')
    (hheap : ∀ m ∈ hands, ReceivedMbuf st.heap m → ReceivedMbuf st'.heap m) :
    RxRun.Inv items ⟨st', taken, received, hands'⟩ ring counters := by
  constructor
  case ready =>
    rw [hrxq]
    exact h.ready
  case received => exact h.received
  case hands =>
    intro m hm
    have hmem := hhands.mem_iff.mpr hm
    exact hheap m hmem (h.hands m hmem)
  case conserved =>
    rw [hpool]
    exact (hhands.symm.append_left _).trans h.conserved
  case nodup => exact h.nodup
  case length_items => rw [hpool]; exact h.length_items
  case allocated => rw [hpool]; exact h.allocated
  case capacity => rw [hpool]; exact h.capacity

/-- Of the items `I` the chains hold `hs`, and the program itself the packets `own`;
the others are free, or posted in the receive ring. -/
structure HeldBy (I : Holding) (st : State) (taken received : ℕ) (own : List Addr)
    (hs : List Holding) : Prop where
  mbufs : st.mbufMempool.HandedOut I.mbufs (hs.flatMap Holding.mbufs)
  buffers : st.txBufMempool.HandedOut I.buffers (hs.flatMap Holding.buffers)
  packets : ∃ ring counters, RxRun.Inv I.packets
    ⟨st, taken, received, own ++ hs.flatMap Holding.packets⟩ ring counters

namespace HeldBy

variable {cfg : Config} {fuel : ℕ} {I x : Holding} {st st' : State} {taken received : ℕ}
  {own own' : List Addr} {hs hs' : List Holding} {m : Addr}

theorem congr (h : HeldBy I st taken received own hs) (hmbufs : st'.mbufMempool = st.mbufMempool)
    (hbuffers : st'.txBufMempool = st.txBufMempool) (hrxq : st'.rxq = st.rxq)
    (hpackets : st'.rxBufMempool = st.rxBufMempool) (hown : own.Perm own') (hhs : hs.Perm hs')
    (hheap : ∀ m ∈ own ++ hs.flatMap Holding.packets,
      ReceivedMbuf st.heap m → ReceivedMbuf st'.heap m) :
    HeldBy I st' taken received own' hs' := by
  constructor
  case mbufs =>
    rw [hmbufs]
    exact h.mbufs.congr (hhs.flatMap_right _)
  case buffers =>
    rw [hbuffers]
    exact h.buffers.congr (hhs.flatMap_right _)
  case packets =>
    obtain ⟨ring, counters, hinv⟩ := h.packets
    exact ⟨ring, counters, hinv.congr hrxq hpackets (hown.append (hhs.flatMap_right _)) hheap⟩

/-- The holdings in another order. -/
theorem perm (h : HeldBy I st taken received own hs) (hown : own.Perm own') (hhs : hs.Perm hs') :
    HeldBy I st taken received own' hs' :=
  h.congr rfl rfl rfl rfl hown hhs fun _ _ hreceived => hreceived

/-- The pools that a scatter list gives its mbufs back to. -/
theorem foldl_zeroCopyTxCompletionStep_mbufs (cfg : Config) (nodes : List Addr) (st : State) :
    (nodes.foldl (fun s a => zeroCopyTxCompletionStep cfg a s) st).mbufMempool =
      nodes.foldl mempoolFree st.mbufMempool := by
  induction nodes generalizing st with
  | nil => rfl
  | cons a nodes ih =>
    rw [List.foldl_cons, List.foldl_cons, ih, (zeroCopyTxCompletionStep_pools cfg a st).1]

/-- **Freeing a chain** gives back what it holds. -/
theorem free (h : HeldBy I st taken received own (x :: hs)) (hholds : Holds cfg st.heap m x)
    (hfree : mbufFree cfg fuel st (some m) = some st') : HeldBy I st' taken received own hs := by
  have hheap := mbufFree_heap hfree
  obtain ⟨tail, hreleased⟩ := mbufFree_released hfree
  have hrxq : st'.rxq = st.rxq := hreleased.keeps.rxq
  have hmbufs := h.mbufs
  have hbuffers := h.buffers
  obtain ⟨ring, counters, hpackets⟩ := h.packets
  rw [List.flatMap_cons] at hmbufs hbuffers hpackets
  -- the release function of the first mbuf decides what is given back
  cases hholds with
  | @scatterList nodes hecho hzero hrelease hchain =>
    cases mbufFree_cases hfree with
    | zeroCopy _ hchain' hfold _ htx hrx =>
      obtain rfl := hchain.unique hchain'
      refine ⟨?_, by rwa [htx], ring, counters, ?_⟩
      · rw [hfold, foldl_zeroCopyTxCompletionStep_mbufs]
        exact hmbufs.giveAll
      · refine hpackets.congr hrxq hrx (.refl _) fun _ _ hreceived => ?_
        rwa [hheap]
    | tx htx _ _ _ _ => simp [hrelease] at htx
    | rx hrx _ => simp [hrelease] at hrx
  | @copied buffer hecho hzero hrelease hnext hhead =>
    simp only [mbufFree, State.log_heap, hrelease, txCompletion] at hfree
    obtain ⟨nodes, hchain, -, rfl⟩ := NullTerminated.exists_chain_of_traverse hfree
    obtain rfl : nodes = [m] := hchain.unique (NullTerminated.isChain_singleton hnext)
    refine ⟨hmbufs.give, ?_, ring, counters, ?_⟩
    · -- the buffer that `head` points to
      have hgive : (mempoolFree st.txBufMempool (st.heap m).head).HandedOut I.buffers
          (hs.flatMap Holding.buffers) := by
        rw [hhead]
        exact hbuffers.give
      exact hgive
    · exact hpackets.congr rfl rfl (.refl _) fun _ _ hreceived => hreceived
  | packet hecho hrelease hnext hhead =>
    have hmem : m ∈ own ++ ([m] ++ hs.flatMap Holding.packets) := by simp
    have hinv := RxRun.inv_release hmem hfree hpackets
    obtain rfl : st' = rxCompletion (st.log (.freed m)) m := by
      rw [(RxRun.mbufFree_received ⟨hhead, hrelease⟩).1] at hfree
      exact (Option.some.inj hfree).symm
    refine ⟨hmbufs, hbuffers, ring, counters, ?_⟩
    refine hinv.congr rfl rfl ?_ fun _ _ hreceived => hreceived
    -- the packet was one of the hands
    have hperm : (own ++ ([m] ++ hs.flatMap Holding.packets)).Perm
        (m :: (own ++ hs.flatMap Holding.packets)) := List.perm_middle
    have herase := hperm.erase m
    rwa [List.erase_cons_head] at herase

/-- **Freeing a packet** that the program has. -/
theorem freeOwn (h : HeldBy I st taken received own hs) (hm : m ∈ own)
    (hfree : mbufFree cfg fuel st (some m) = some st') :
    HeldBy I st' taken received (own.erase m) hs := by
  obtain ⟨ring, counters, hpackets⟩ := h.packets
  have hmem : m ∈ own ++ hs.flatMap Holding.packets := List.mem_append_left _ hm
  have hinv := RxRun.inv_release hmem hfree hpackets
  obtain rfl : st' = rxCompletion (st.log (.freed m)) m := by
    rw [(RxRun.mbufFree_received (hpackets.hands m hmem)).1] at hfree
    exact (Option.some.inj hfree).symm
  rw [List.erase_append_left _ hm] at hinv
  exact ⟨h.mbufs, h.buffers, ring, counters, hinv⟩

end HeldBy

end Mlx5Netperf
