import Mlx5Netperf.Lib.Transition
import Mlx5Netperf.Mlx5.ReceiveCall

/-!
# Runs of the Receive Ring

The device receives packets into the posted buffers in ring order, the program
takes them with `mlx5_gather_rx` and releases them one by one with `mbuf_free`.
-/

namespace Mlx5Netperf

open Transition

/-- The program, the packets it took so far and the device received so far, and
the mbufs that were delivered and not released yet. -/
structure RxRun where
  st : State
  taken : ℕ
  received : ℕ
  hands : List Addr

namespace RxRun

/-- The state before `mlx5_init_rxq`: counters zero, a pool with these items. -/
structure BeforeInit (items : List Addr) (st : State) : Prop where
  size : ∃ k ≤ 16, st.rxq.rxWq.wqeCnt.toNat = 2 ^ k
  cqeCnt : 0 < st.rxq.rxCq.cqeCnt.toNat
  consumerIdx : st.rxq.consumerIdx = 0
  wqHead : st.rxq.wqHead = 0
  free : st.rxBufMempool.freeList = items
  nodup : items.Nodup
  allocated : st.rxBufMempool.allocated = 0
  capacity : st.rxBufMempool.capacity < 2 ^ 64

/-- The state that `mlx5_init_rxq` leaves. -/
structure Init (items : List Addr) (r : RxRun) : Prop where
  call : ∃ mrLkey st, BeforeInit items st ∧ mlx5InitRxq mrLkey st = .ok r.st
  taken : r.taken = 0
  received : r.received = 0
  hands : r.hands = []

/-- The device receives further packets, in ring order and into posted slots
only; each completion carries the index of its slot. -/
inductive NicStep : RxRun → RxRun → Prop where
  | receive {st : State} {taken received received' : ℕ} {hands : List Addr} {cq : Cq}
      {mem : ByteMemory} {counters : List UInt16} (hle : received ≤ received')
      (hlen : received' = taken + counters.length)
      (hposted : counters.length ≤ (st.rxq.wqHead - st.rxq.consumerIdx).toNat)
      (horder : InRingOrder st.rxq.rxWq.wqeCnt.toNat taken counters)
      (hreports : cq.Reports mlx5CqeRespSend st.rxq.consumerIdx counters) :
      NicStep ⟨st, taken, received, hands⟩
        ⟨{ st with mem := mem, rxq := { st.rxq with rxCq := cq } }, taken, received', hands⟩

/-- What the rest of the program leaves alone: the ring, the pool, and in the
mbufs it holds the two fields that their release needs. -/
structure AppStep (hands : List Addr) (st st' : State) : Prop where
  rxq : st'.rxq = st.rxq
  pool : st'.rxBufMempool = st.rxBufMempool
  head : ∀ m ∈ hands, (st'.heap m).head = (st.heap m).head
  release : ∀ m ∈ hands, (st'.heap m).release = (st.heap m).release

/-- One step of the device or the program. -/
inductive Step (cfg : Config) (fuel : ℕ) : RxRun → RxRun → Prop where
  | nic {r r' : RxRun} (hnic : NicStep r r') : Step cfg fuel r r'
  | gather {st st' : State} {taken received budget : ℕ} {hands ms : List Addr}
      (hcall : mlx5GatherRx st budget = some (ms, st')) :
      Step cfg fuel ⟨st, taken, received, hands⟩ ⟨st', taken + ms.length, received, hands ++ ms⟩
  | release {st st' : State} {taken received : ℕ} {hands : List Addr} {m : Addr} (hm : m ∈ hands)
      (hcall : mbufFree cfg fuel st (some m) = some st') :
      Step cfg fuel ⟨st, taken, received, hands⟩ ⟨st', taken, received, hands.erase m⟩
  | app {st st' : State} {taken received : ℕ} {hands : List Addr} (happ : AppStep hands st st') :
      Step cfg fuel ⟨st, taken, received, hands⟩ ⟨st', taken, received, hands⟩

/-! ## The invariant -/

/-- Ring, counters, pool and application together. -/
structure Inv (items : List Addr) (r : RxRun) (ring : List Addr) (counters : List UInt16) :
    Prop where
  ready : ReceiveReady r.st.rxq r.taken ring counters
  received : r.received = r.taken + counters.length
  hands : ∀ m ∈ r.hands, ReceivedMbuf r.st.heap m
  conserved : (r.st.rxBufMempool.freeList ++ ring ++ r.hands).Perm items
  nodup : items.Nodup
  length_items : items.length = r.st.rxBufMempool.capacity
  allocated : r.st.rxBufMempool.allocated ≤ r.st.rxBufMempool.capacity
  capacity : r.st.rxBufMempool.capacity < 2 ^ 64

variable {items ring : List Addr} {counters : List UInt16} {cfg : Config} {fuel : ℕ}

/-- The entries' owner is the device once they were given to it. -/
theorem reports_giveToDevice {cq : Cq} (hcnt : 0 < cq.cqeCnt.toNat) :
    cq.giveToDevice.Reports mlx5CqeRespSend 0 [] := by
  have hat : cq.giveToDevice.at 0 = mlx5dvSetCqeOwner (cq.buf 0) mlx5CqeOwnerHw := by
    have hslot : ((0 : UInt32) &&& (cq.cqeCnt - 1)).toNat = 0 := by simp
    simp only [Cq.at, Cq.giveToDevice, hslot]
    exact if_pos hcnt
  -- whatever else the byte held
  have howner : ∀ byte : UInt8, ((mlx5CqeOwnerHw &&& mlx5CqeOwnerMask) |||
      (byte &&& ~~~mlx5CqeOwnerMask)) &&& mlx5CqeOwnerMask = 1 := by
    intro byte
    have hbytes : ∀ b : Fin 256, ((mlx5CqeOwnerHw &&& mlx5CqeOwnerMask) |||
        (UInt8.ofFin b &&& ~~~mlx5CqeOwnerMask)) &&& mlx5CqeOwnerMask = 1 := by decide +kernel
    exact hbytes byte.toFin
  have hparity : ((0 : UInt32) &&& cq.giveToDevice.cqeCnt).toUInt16 = 0 := by simp
  rw [Cq.Reports, Cq.status, hat]
  refine Eq.trans ?_ (invalid_or_opcode (mlx5dvSetCqeOwner (cq.buf 0) mlx5CqeOwnerHw))
  simp only [cqeStatus, hparity, if_true, mlx5dvSetCqeOwner, howner, Mlx5Cqe64.opcode]

/-- **`mlx5_init_rxq` establishes the invariant.** -/
theorem Init.inv {r : RxRun} (h : Init items r) : ∃ ring, Inv items r ring [] := by
  obtain ⟨mrLkey, st, hbefore, hcall⟩ := h.call
  obtain ⟨k, hk, hsize⟩ := hbefore.size
  -- before the first slot the ring is empty, all items are free
  have hempty : st.rxq.Posted 0 [] :=
    ⟨hbefore.size, hbefore.wqHead, Nat.zero_le _, by simp⟩
  simp only [mlx5InitRxq] at hcall
  cases hloop : (List.range st.rxq.rxWq.wqeCnt.toNat).foldlM (mlx5InitRxqSlot mrLkey) st with
  | error e =>
    rw [hloop] at hcall
    simp [Except.map] at hcall
  | ok st₁ =>
    rw [hloop] at hcall
    have hst := Except.ok.inj hcall
    -- the loop succeeds, slot after slot
    rw [List.range_eq_range'] at hloop
    obtain ⟨bufs, hlen, hrefilled, hkeeps⟩ :=
      foldlM_mlx5InitRxqSlot hempty (by simp) hloop
    have hallocated := hrefilled.allocated
    have hcapacity := hrefilled.capacity
    have hfree := hrefilled.free
    rw [hbefore.free] at hfree
    have hitems : items.length = st.rxBufMempool.capacity := by
      rw [← hbefore.free, Mempool.length_freeList, hbefore.allocated, Nat.sub_zero]
    have hlengths := congrArg List.length hfree
    rw [List.length_append, Mempool.length_freeList] at hlengths
    refine ⟨bufs, ⟨?_, ?_, ?_, ?_, ?_, ?_⟩, ?_, ?_, ?_, ?_, ?_, ?_, ?_⟩
    · rw [← hst, h.taken]
      exact hrefilled.posted.congr rfl rfl rfl rfl
    · rw [← hst, hlen]
      exact (congrArg UInt32.toNat hkeeps.wqeCnt).symm
    · rw [← hst, h.taken]
      exact hkeeps.consumerIdx.trans hbefore.consumerIdx
    · rw [← hst]
      have hconsumer : st₁.rxq.consumerIdx = 0 := hkeeps.consumerIdx.trans hbefore.consumerIdx
      have hcnt : 0 < st₁.rxq.rxCq.cqeCnt.toNat := by
        rw [hkeeps.rxCq]
        exact hbefore.cqeCnt
      simp only [State.ringRxDoorbell, hconsumer]
      -- no packet was reported yet
      exact reports_giveToDevice hcnt
    · exact fun i counter hi => by simp at hi
    · exact Nat.zero_le _
    · rw [h.received, h.taken]
      rfl
    · rw [h.hands]
      simp
    · rw [h.hands, ← hst, List.append_nil, hfree]
      -- no mbuf is in the hands of the application
      exact List.perm_append_comm
    · exact hbefore.nodup
    · rw [← hst]
      exact hitems.trans hcapacity.symm
    · rw [← hst]
      have hzero := hbefore.allocated
      show st₁.rxBufMempool.allocated ≤ st₁.rxBufMempool.capacity
      omega
    · rw [← hst]
      exact hcapacity ▸ hbefore.capacity

/-- The device's packets join those that wait. -/
theorem NicStep.inv {r r' : RxRun} (hnic : NicStep r r') (h : Inv items r ring counters) :
    ∃ counters', Inv items r' ring counters' := by
  cases hnic with
  | @receive st taken received received' hands cq mem counters' hle hlen hposted horder hreports =>
    refine ⟨counters', ⟨h.ready.posted.congr rfl rfl rfl rfl, h.ready.full, h.ready.consumerIdx,
      hreports, horder, ?_⟩, hlen, h.hands, h.conserved, h.nodup, h.length_items, h.allocated,
      h.capacity⟩
    -- a full ring has a slot for every packet
    have hcounters := h.ready.counters_eq
    have hfull := h.ready.full
    simp only at hcounters hfull
    rw [hcounters, ← hfull] at hposted
    exact hposted

/-- **A call** moves buffers from the ring to the application and from the pool to the ring. -/
theorem inv_gather {st st' : State} {taken received budget : ℕ} {hands ms : List Addr}
    (hcall : mlx5GatherRx st budget = some (ms, st'))
    (h : Inv items ⟨st, taken, received, hands⟩ ring counters) :
    ∃ ring' counters', Inv items ⟨st', taken + ms.length, received, hands ++ ms⟩ ring' counters' := by
  obtain ⟨bufs, hgathered⟩ := h.ready.gathered hcall
  have hle := hgathered.le
  have hfree := congrArg List.length hgathered.free
  have hallocated := hgathered.allocated
  have hcapacity := hgathered.capacity
  have hbound := h.allocated
  have hbufs := hgathered.length_bufs
  have hreceived := h.received
  simp only [List.length_append, Mempool.length_freeList] at hfree hbound hreceived
  simp only at hallocated hcapacity
  refine ⟨ring.drop ms.length ++ bufs, counters.drop ms.length, hgathered.ready, ?_, ?_, ?_,
    h.nodup, ?_, ?_, ?_⟩
  · simp only [List.length_drop]
    omega
  · intro m hm
    apply hgathered.received
    -- what it held before, and what the call returned
    rcases List.mem_append.mp hm with hold | hnew
    · exact .inr (h.hands m hold)
    · exact .inl hnew
  · -- the same buffers, in other places
    have hconserved := h.conserved
    have hring : ring = ms ++ ring.drop ms.length := by
      conv_lhs => rw [← List.take_append_drop ms.length ring, ← hgathered.taken]
    rw [hgathered.free, hring] at hconserved
    refine List.Perm.trans ?_ hconserved
    refine List.perm_iff_count.mpr fun a => ?_
    simp only [List.count_append]
    omega
  · rw [hcapacity]
    exact h.length_items
  · simp only
    omega
  · rw [hcapacity]
    exact h.capacity

/-- A delivered mbuf is released to the pool. -/
theorem mbufFree_received {st : State} {m : Addr} (h : ReceivedMbuf st.heap m) :
    mbufFree cfg fuel st (some m) = some (rxCompletion (st.log (.freed m)) m) ∧
      (rxCompletion (st.log (.freed m)) m).rxBufMempool = mempoolFree st.rxBufMempool m := by
  constructor
  · simp only [mbufFree, State.log_heap, h.release]
  · simp only [rxCompletion, State.log_heap, h.head]
    rfl

/-- Some buffer is out while the application holds one. -/
theorem Inv.allocated_pos {r : RxRun} {m : Addr} (h : Inv items r ring counters)
    (hm : m ∈ r.hands) : 0 < r.st.rxBufMempool.allocated := by
  have hlen := h.conserved.length_eq
  have hhands := List.length_pos_of_mem hm
  have hbound := h.allocated
  have hitems := h.length_items
  simp only [List.length_append, Mempool.length_freeList] at hlen
  omega

/-- **A release** moves a buffer from the application to the pool. -/
theorem inv_release {st st' : State} {taken received : ℕ} {hands : List Addr} {m : Addr}
    (hm : m ∈ hands) (hcall : mbufFree cfg fuel st (some m) = some st')
    (h : Inv items ⟨st, taken, received, hands⟩ ring counters) :
    Inv items ⟨st', taken, received, hands.erase m⟩ ring counters := by
  obtain ⟨hfree, hpool⟩ := @mbufFree_received cfg fuel st m (h.hands m hm)
  obtain rfl := Option.some.inj (hcall.symm.trans hfree)
  have hpos := h.allocated_pos hm
  have hbound := h.allocated
  have hcapacity := h.capacity
  simp only at hpos hbound hcapacity
  -- the count goes down by one, the free list gets the mbuf
  have hlist := freeList_mempoolFree m hpos hbound hcapacity
  have hallocated : (mempoolFree st.rxBufMempool m).allocated = st.rxBufMempool.allocated - 1 :=
    WordArith.sizeSub_of_le hpos (by omega)
  refine ⟨h.ready, h.received, fun a ha => h.hands a (List.mem_of_mem_erase ha), ?_, h.nodup, ?_, ?_,
    ?_⟩
  · have hconserved := h.conserved
    simp only [hpool, hlist] at hconserved ⊢
    refine List.Perm.trans ?_ hconserved
    refine List.perm_iff_count.mpr fun a => ?_
    -- erased here, in front of the free list there
    have hcount := List.perm_iff_count.mp (List.perm_cons_erase hm) a
    simp only [List.count_append, List.count_cons] at hcount ⊢
    omega
  · simp only [hpool, mempoolFree_capacity]
    exact h.length_items
  · simp only [hpool, hallocated, mempoolFree_capacity]
    omega
  · simp only [hpool, mempoolFree_capacity]
    exact h.capacity

/-- **Every step keeps the invariant.** -/
theorem Step.inv {r r' : RxRun} (h : ∃ ring counters, Inv items r ring counters)
    (hstep : Step cfg fuel r r') : ∃ ring counters, Inv items r' ring counters := by
  obtain ⟨ring, counters, hinv⟩ := h
  cases hstep with
  | nic hnic => exact ⟨ring, hnic.inv hinv⟩
  | gather hcall => exact inv_gather hcall hinv
  | release hm hcall => exact ⟨ring, counters, inv_release hm hcall hinv⟩
  | app happ =>
    refine ⟨ring, counters, ?_⟩
    -- the application owns the mbufs it holds, not the ring
    refine ⟨?_, hinv.received, fun m hm => ⟨?_, ?_⟩, ?_, hinv.nodup, ?_, ?_, ?_⟩
    · simp only [happ.rxq]
      exact hinv.ready
    · exact (happ.head m hm).trans (hinv.hands m hm).head
    · exact (happ.release m hm).trans (hinv.hands m hm).release
    all_goals simp only [happ.pool]
    · exact hinv.conserved
    · exact hinv.length_items
    · exact hinv.allocated
    · exact hinv.capacity

theorem Inv.of_reachable {r : RxRun} (h : Reachable (Init items) (Step cfg fuel) r) :
    ∃ ring counters, Inv items r ring counters :=
  Reachable.invariant (P := fun r => ∃ ring counters, Inv items r ring counters)
    (fun _ hinit => hinit.inv.imp fun _ hring => ⟨[], hring⟩)
    (fun _ _ hinv hstep => hstep.inv hinv) h

/-! ## The ring conserves its buffers -/

/-- What a moment of a run shows: the counters are `wqe_cnt` apart; every item of
the pool is in exactly one of the free list, one slot of the ring and the hands
of the application; every call refills the slots it took; a call returns when
the pool can replace what it takes, and every delivered mbuf can be released. -/
structure Conserved (cfg : Config) (fuel : ℕ) (items : List Addr) (r : RxRun) : Prop where
  counters : r.st.rxq.wqHead - r.st.rxq.consumerIdx = r.st.rxq.rxWq.wqeCnt
  nodup : items.Nodup
  places : ∃ slots : List Addr, slots.length = r.st.rxq.rxWq.wqeCnt.toNat ∧
    (∀ s buf, slots[s]? = some buf → r.st.rxq.PostedIn s buf) ∧
    (r.st.rxBufMempool.freeList ++ slots ++ r.hands).Perm items
  refills : ∀ budget ms st', mlx5GatherRx r.st budget = some (ms, st') →
    RefillsTaken budget r.st st' ms
  returns : ∀ budget, min budget (r.received - r.taken) ≤ r.st.rxBufMempool.freeList.length →
    ∃ ms st', mlx5GatherRx r.st budget = some (ms, st')
  release : ∀ m ∈ r.hands, ∃ st', mbufFree cfg fuel r.st (some m) = some st'

/-- **Receive-ring conservation**, in every run of the device, calls of any
budget and releases in any order. -/
theorem receive_ring_conserved {r : RxRun} (h : Reachable (Init items) (Step cfg fuel) r) :
    Conserved cfg fuel items r := by
  obtain ⟨ring, counters, hinv⟩ := Inv.of_reachable h
  refine ⟨hinv.ready.counters_eq, hinv.nodup, ?_, ?_, ?_, ?_⟩
  · obtain ⟨slots, hlen, hposted, hperm⟩ := hinv.ready.exists_slots
    exact ⟨slots, hlen, hposted,
      ((hperm.append_left _).append_right _).trans hinv.conserved⟩
  · exact fun budget ms st' hcall => hinv.ready.refillsTaken hcall
  · intro budget hpool
    have hreceived := hinv.received
    -- what waits is what was received and not taken
    have hwaiting : r.received - r.taken = counters.length := by omega
    rw [hwaiting] at hpool
    exact hinv.ready.returns hpool
  · exact fun m hm => ⟨_, (mbufFree_received (hinv.hands m hm)).1⟩

/-- A ring of four slots and a pool of eight buffers. -/
def eightBuffers : State :=
  { State.zeroed 4 4 with
    rxBufMempool := ⟨fun i => 0x10000 + 0x4000 * UInt64.ofNat i, 0, 8, 0x4000⟩ }

/-- The state after `mlx5_init_rxq`. -/
def fourPosted : State :=
  match mlx5InitRxq 0 eightBuffers with
  | .ok st => st
  | .error _ => eightBuffers

theorem fourPosted_init :
    Init eightBuffers.rxBufMempool.freeList ⟨fourPosted, 0, 0, []⟩ where
  call := ⟨0, eightBuffers, ⟨⟨2, by decide, rfl⟩, by decide, rfl, rfl, rfl,
    by decide, rfl, by decide⟩, rfl⟩
  taken := rfl
  received := rfl
  hands := rfl

/-- A completion queue with one received packet, in slot 0. -/
def onePacketCq : Cq :=
  { fourPosted.rxq.rxCq with
    buf := Function.update fourPosted.rxq.rxCq.buf 0 ⟨0, 0, 0, 0, 0x20⟩ }

/-- One packet is received and taken. -/
theorem receive_ring_conserved_fourPosted :
    ∃ r : RxRun, r.hands = [0x10000] ∧
      Conserved Config.default 1 eightBuffers.rxBufMempool.freeList r := by
  have horder : InRingOrder fourPosted.rxq.rxWq.wqeCnt.toNat 0 [0] := by
    intro i counter hi
    obtain ⟨hlt, rfl⟩ := List.getElem?_eq_some_iff.mp hi
    obtain rfl : i = 0 := by simpa using hlt
    rfl
  have hnic : NicStep ⟨fourPosted, 0, 0, []⟩ ⟨{ fourPosted with
      mem := fourPosted.mem, rxq := { fourPosted.rxq with rxCq := onePacketCq } }, 0, 1, []⟩ :=
    .receive (Nat.zero_le 1) rfl (by decide) horder (by decide +kernel)
  have hstep : Step Config.default 1 _ _ := .nic hnic
  have hreceived := (Reachable.init fourPosted_init).step hstep
  have hcall : (mlx5GatherRx { fourPosted with rxq := { fourPosted.rxq with rxCq := onePacketCq } }
      32).map Prod.fst = some [0x10000] := by decide +kernel
  -- evaluate the call for its packets only, the state is long
  obtain ⟨⟨ms, st'⟩, hgather, hms⟩ := Option.map_eq_some_iff.mp hcall
  obtain rfl : ms = [0x10000] := hms
  exact ⟨_, rfl, receive_ring_conserved (hreceived.step (.gather hgather))⟩

end RxRun

end Mlx5Netperf
