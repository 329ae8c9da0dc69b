import Mlx5Netperf.Lib.CircularRing
import Mlx5Netperf.Mlx5.ReceiveRing

/-!
# The Return Value of a Refill

`mlx5_refill_rxqueue` with its two return statements. A round writes the head
length through the pointer it got from the pool and looks at the pointer after
that, so the early return is never taken: an empty pool is a write through null.
-/

namespace Mlx5Netperf

/-! ## The function, statement by statement -/

/-- `mempool_alloc(rx_buf_mempool)` -/
def State.allocRxBuf (st : State) : Option Addr × State :=
  match mempoolAlloc st.rxBufMempool with
  | none => (none, st)
  | some (buf, pool) => (some buf, { st with rxBufMempool := pool })

/-- `((struct mbuf *)buf)->head_len = rx_buf_mempool->item_len`; `none` is the
write through a null pointer. -/
def State.writeHeadLen (st : State) (buf : Option Addr) : Option State :=
  buf.map fun m => { st with heap := st.heap.modify m fun b =>
    { b with headLen := UInt32.ofNat st.rxBufMempool.itemLen } }

/-- The loop and the two returns of `mlx5_refill_rxqueue`. -/
def mlx5RefillRxqueueRet : ℕ → State → Option (Int32 × State)
  | 0, st => some (0, st.ringRxDoorbell)
  | nrdesc + 1, st =>
    let (buf, st) := st.allocRxBuf
    (st.writeHeadLen buf).bind fun st =>
      match buf with
      -- no buffer left
      | none => some (-enomem, st)
      | some m =>
        let index := (pow2Mod st.rxq.wqHead st.rxq.rxWq.wqeCnt).toNat
        mlx5RefillRxqueueRet nrdesc { st with rxq := st.rxq.post index m }

/-- One round, seen from the outside: posted, or a null write. -/
theorem mlx5RefillRxqueueRet_succ (nrdesc : ℕ) (st : State) :
    mlx5RefillRxqueueRet (nrdesc + 1) st =
      match mempoolAlloc st.rxBufMempool with
      | none => none
      | some (buf, pool) => mlx5RefillRxqueueRet nrdesc
          (st.repost buf pool (pow2Mod st.rxq.wqHead st.rxq.rxWq.wqeCnt).toNat) := by
  rw [mlx5RefillRxqueueRet, State.allocRxBuf]
  rcases halloc : mempoolAlloc st.rxBufMempool with _ | ⟨buf, pool⟩
  · rfl
  · obtain ⟨-, -, rfl⟩ := mempoolAlloc_eq_some halloc
    rfl

/-- **The early return is dead code**: a call that returns, returns zero. -/
theorem mlx5RefillRxqueueRet_eq (nrdesc : ℕ) (st : State) :
    mlx5RefillRxqueueRet nrdesc st = (mlx5RefillRxqueue nrdesc st).map fun st' => (0, st') := by
  induction nrdesc generalizing st with
  | zero => rfl
  | succ nrdesc ih =>
    rw [mlx5RefillRxqueueRet_succ, mlx5RefillRxqueue, mlx5RefillRxqueueLoop]
    rcases mempoolAlloc st.rxBufMempool with _ | ⟨buf, pool⟩
    · rfl
    · exact ih _

/-! ## The slots in front of the head -/

namespace Mlx5Rxq

/-- The slot that the `i`-th buffer posted from now on goes to. -/
def freeSlot (v : Mlx5Rxq) (i : ℕ) : ℕ :=
  (pow2Mod (v.wqHead + UInt32.ofNat i) v.rxWq.wqeCnt).toNat

/-- The number of slots that hold no posted buffer. -/
def freeSlots (v : Mlx5Rxq) : ℕ := v.rxWq.wqeCnt.toNat - (v.wqHead - v.consumerIdx).toNat

variable {v : Mlx5Rxq}

theorem freeSlot_zero (v : Mlx5Rxq) : v.freeSlot 0 = (pow2Mod v.wqHead v.rxWq.wqeCnt).toNat := by
  simp [freeSlot]

/-- Posting a buffer moves on by one slot. -/
theorem freeSlot_post (v : Mlx5Rxq) (index : ℕ) (buf : Addr) (i : ℕ) :
    (v.post index buf).freeSlot i = v.freeSlot (i + 1) := by
  have hhead : v.wqHead + 1 + UInt32.ofNat i = v.wqHead + UInt32.ofNat (i + 1) := by
    rw [UInt32.ofNat_add]
    grind
  simp only [freeSlot, post, hhead]

/-- The mask of a ring that is a power of two long takes the remainder. -/
theorem freeSlot_eq_mod {k : ℕ} (hsize : v.rxWq.wqeCnt.toNat = 2 ^ k) (i : ℕ) :
    v.freeSlot i = (v.wqHead.toNat + i) % v.rxWq.wqeCnt.toNat := by
  -- a 32-bit count is a power of two that divides 2^32
  have hk : k ≤ 32 := by
    have hlt : 2 ^ k < 2 ^ 32 := hsize ▸ v.rxWq.wqeCnt.toNat_lt
    exact ((Nat.pow_lt_pow_iff_right (by decide)).mp hlt).le
  have hhead : v.wqHead + UInt32.ofNat i = UInt32.ofNat (v.wqHead.toNat + i) := by
    rw [UInt32.ofNat_add, UInt32.ofNat_toNat]
  rw [freeSlot, pow2Mod, WordArith.toNat_and_sub_one hsize, hhead,
    WordArith.toNat_ofNat_mod (WordArith.dvd_two_pow_of_le hsize hk)]

theorem freeSlot_lt {k : ℕ} (hsize : v.rxWq.wqeCnt.toNat = 2 ^ k) (i : ℕ) :
    v.freeSlot i < v.rxWq.wqeCnt.toNat := by
  rw [freeSlot_eq_mod hsize]
  exact Nat.mod_lt _ (hsize ▸ Nat.two_pow_pos k)

/-- Less than a lap apart no slot comes twice. -/
theorem freeSlot_ne {k i j : ℕ} (hsize : v.rxWq.wqeCnt.toNat = 2 ^ k) (hij : i < j)
    (hlap : j < i + v.rxWq.wqeCnt.toNat) : v.freeSlot i ≠ v.freeSlot j := by
  rw [freeSlot_eq_mod hsize, freeSlot_eq_mod hsize]
  exact CircularRing.mod_ne_of_lt (by omega) (by omega)

end Mlx5Rxq

/-! ## What a refill posts -/

/-- The buffers `bufs` were taken from the pool, in this order, and posted in the
slots from the head on; nothing else of the ring changed. -/
structure RefillPosts (st st' : State) (bufs : List Addr) : Prop where
  free : st.rxBufMempool.freeList = bufs ++ st'.rxBufMempool.freeList
  allocated : st'.rxBufMempool.allocated = st.rxBufMempool.allocated + bufs.length
  posted : ∀ i buf, bufs[i]? = some buf → st'.rxq.PostedIn (st.rxq.freeSlot i) buf
  others : ∀ s, (∀ i < bufs.length, s ≠ st.rxq.freeSlot i) →
    st'.rxq.buffers s = st.rxq.buffers s ∧ st'.rxq.rxWq.segAddr s = st.rxq.rxWq.segAddr s
  wqHead : st'.rxq.wqHead = st.rxq.wqHead + UInt32.ofNat bufs.length

theorem RefillPosts.nil (st : State) : RefillPosts st st [] where
  free := rfl
  allocated := rfl
  posted := by simp
  others := fun _ _ => ⟨rfl, rfl⟩
  wqHead := by simp

/-- One round, then the others. -/
theorem RefillPosts.cons {st st' : State} {buf : Addr} {pool : Mempool} {bufs : List Addr} {k : ℕ}
    (hsize : st.rxq.rxWq.wqeCnt.toNat = 2 ^ k) (hroom : bufs.length < st.rxq.rxWq.wqeCnt.toNat)
    (halloc : mempoolAlloc st.rxBufMempool = some (buf, pool))
    (h : RefillPosts (st.repost buf pool (st.rxq.freeSlot 0)) st' bufs) :
    RefillPosts st st' (buf :: bufs) := by
  obtain ⟨-, -, hpool⟩ := mempoolAlloc_eq_some halloc
  have hnext : ∀ i, (st.repost buf pool (st.rxq.freeSlot 0)).rxq.freeSlot i =
      st.rxq.freeSlot (i + 1) := fun i => Mlx5Rxq.freeSlot_post ..
  -- the later rounds stay clear of the first slot
  have hfirst : ∀ i < bufs.length, st.rxq.freeSlot 0 ≠ st.rxq.freeSlot (i + 1) :=
    fun i hi => Mlx5Rxq.freeSlot_ne hsize (by omega) (by omega)
  refine ⟨?free, ?allocated, ?posted, ?others, ?wqHead⟩
  case free =>
    rw [freeList_of_mempoolAlloc halloc, List.cons_append, ← h.free]
    rfl
  case allocated =>
    have hrest := h.allocated
    simp only [State.repost, hpool] at hrest
    rw [hrest, List.length_cons]
    omega
  case posted =>
    intro i b hi
    rcases i with _ | i
    · obtain rfl := Option.some.inj hi
      obtain ⟨hbuffers, hsegs⟩ := h.others (st.rxq.freeSlot 0) fun i hi => by
        rw [hnext]
        exact hfirst i hi
      exact ⟨hbuffers.trans (Function.update_self ..), hsegs.trans (Function.update_self ..)⟩
    · have hposted := h.posted i b hi
      rwa [hnext] at hposted
  case others =>
    intro s hs
    have hrest := h.others s fun i hi => by
      rw [hnext]
      exact hs (i + 1) (by rw [List.length_cons]; omega)
    have hne : s ≠ st.rxq.freeSlot 0 := hs 0 (by simp)
    exact ⟨hrest.1.trans (Function.update_of_ne hne _ _),
      hrest.2.trans (Function.update_of_ne hne _ _)⟩
  case wqHead =>
    rw [h.wqHead, List.length_cons, UInt32.ofNat_add]
    simp only [State.repost, Mlx5Rxq.post]
    grind

/-- Ringing the doorbell leaves the slots, the buffers and the pool alone. -/
theorem RefillPosts.ringRxDoorbell {st st' : State} {bufs : List Addr}
    (h : RefillPosts st st' bufs) : RefillPosts st st'.ringRxDoorbell bufs where
  free := h.free
  allocated := h.allocated
  posted := fun i buf hi => ⟨(h.posted i buf hi).buffer, (h.posted i buf hi).segAddr⟩
  others := h.others
  wqHead := h.wqHead

/-- **A refill that comes through has posted one buffer for each round.** -/
theorem mlx5RefillRxqueueLoop_posts {nrdesc k : ℕ} {st st' : State}
    (hsize : st.rxq.rxWq.wqeCnt.toNat = 2 ^ k) (hroom : nrdesc ≤ st.rxq.rxWq.wqeCnt.toNat)
    (hloop : mlx5RefillRxqueueLoop nrdesc st = some st') :
    ∃ bufs, bufs.length = nrdesc ∧ RefillPosts st st' bufs := by
  induction nrdesc generalizing st with
  | zero =>
    obtain rfl := Option.some.inj hloop
    exact ⟨[], rfl, .nil st⟩
  | succ nrdesc ih =>
    obtain ⟨buf, pool, halloc, hrest⟩ := mlx5RefillRxqueueLoop_succ hloop
    rw [← Mlx5Rxq.freeSlot_zero] at hrest
    have hsize' : (st.repost buf pool (st.rxq.freeSlot 0)).rxq.rxWq.wqeCnt.toNat = 2 ^ k := hsize
    obtain ⟨bufs, hlen, hposts⟩ := ih hsize' (Nat.le_of_succ_le hroom) hrest
    exact ⟨buf :: bufs, by rw [List.length_cons, hlen], hposts.cons hsize (by omega) halloc⟩

/-- A buffer that was neither in the ring nor twice in the pool is in one slot afterwards. -/
theorem RefillPosts.existsUnique_slot {st st' : State} {bufs : List Addr} {k : ℕ}
    (h : RefillPosts st st' bufs) (hsize : st.rxq.rxWq.wqeCnt.toNat = 2 ^ k)
    (hnodup : bufs.Nodup) (hapart : ∀ s, ∀ buf ∈ bufs, st.rxq.buffers s ≠ some buf) :
    ∀ buf ∈ bufs, ∃! s, s < st.rxq.rxWq.wqeCnt.toNat ∧ st'.rxq.buffers s = some buf := by
  intro buf hbuf
  obtain ⟨i, hi⟩ := List.mem_iff_getElem?.mp hbuf
  refine ⟨st.rxq.freeSlot i, ⟨Mlx5Rxq.freeSlot_lt hsize i, (h.posted i buf hi).buffer⟩, ?_⟩
  rintro s ⟨-, hs⟩
  by_cases hnew : ∃ j < bufs.length, s = st.rxq.freeSlot j
  · obtain ⟨j, hj, rfl⟩ := hnew
    -- the slot has the j-th buffer, so the j-th is the i-th
    have hj' : bufs[j]? = some buf := by
      rw [List.getElem?_eq_getElem hj]
      exact (h.posted j _ (List.getElem?_eq_getElem hj)).buffer.symm.trans hs
    rw [(List.getElem?_inj hj hnodup).mp (hj'.trans hi.symm)]
  · -- an old slot still has what it had
    have hold := (h.others s fun j hj heq => hnew ⟨j, hj, heq⟩).1
    exact absurd (hold.symm.trans hs) (hapart s buf hbuf)

/-! ## An exhausted pool -/

/-- What a call of `mlx5_refill_rxqueue` should do, whatever the pool has: no
access through null, the return value its caller can act on, and pool, ring,
`buffers` and doorbell in step. -/
structure RefillReturns (nrdesc : ℕ) (st : State) (ret : Int32) (st' : State)
    (bufs : List Addr) : Prop where
  posts : RefillPosts st st' bufs
  distinct : ∀ i j, i < j → j < bufs.length → st.rxq.freeSlot i ≠ st.rxq.freeSlot j
  once : bufs.Nodup → (∀ s, ∀ buf ∈ bufs, st.rxq.buffers s ≠ some buf) →
    ∀ buf ∈ bufs, ∃! s, s < st.rxq.rxWq.wqeCnt.toNat ∧ st'.rxq.buffers s = some buf
  doorbell : st'.rxq.rxWq.dbrec = htobe32 (st'.rxq.wqHead &&& 0xffff)
  enough : nrdesc ≤ st.rxBufMempool.freeList.length → ret = 0 ∧ bufs.length = nrdesc
  exhausted : st.rxBufMempool.freeList.length < nrdesc → ret = -enomem

/-- The call returns, having done what it should. -/
def RefillsSafely (nrdesc : ℕ) (st : State) : Prop :=
  ∃ ret st' bufs, mlx5RefillRxqueueRet nrdesc st = some (ret, st') ∧
    RefillReturns nrdesc st ret st' bufs

/-- **Refilling is safe exactly when the pool has as many items as slots are to be
filled.** Where it has not, the call writes through a null pointer before it looks at it. -/
theorem refillsSafely_iff {nrdesc : ℕ} {st : State} (hsize : ∃ k, st.rxq.rxWq.wqeCnt.toNat = 2 ^ k)
    (hroom : nrdesc ≤ st.rxq.freeSlots) :
    RefillsSafely nrdesc st ↔ nrdesc ≤ st.rxBufMempool.freeList.length := by
  obtain ⟨k, hsize⟩ := hsize
  have hring : nrdesc ≤ st.rxq.rxWq.wqeCnt.toNat := hroom.trans (Nat.sub_le ..)
  constructor
  case mp =>
    rintro ⟨ret, st', bufs, hcall, hret⟩
    rw [mlx5RefillRxqueueRet_eq] at hcall
    obtain ⟨st₂, hrefill, -⟩ := Option.map_eq_some_iff.mp hcall
    obtain ⟨st₁, hloop, -⟩ := Option.map_eq_some_iff.mp hrefill
    -- a call that returns has taken one item for each round
    obtain ⟨bufs', hlen, hposts⟩ := mlx5RefillRxqueueLoop_posts hsize hring hloop
    rw [hposts.free, List.length_append, hlen]
    exact Nat.le_add_right ..
  case mpr =>
    intro henough
    obtain ⟨st', hrefill⟩ := exists_mlx5RefillRxqueue henough
    obtain ⟨st₁, hloop, rfl⟩ := Option.map_eq_some_iff.mp hrefill
    obtain ⟨bufs, hlen, hposts⟩ := mlx5RefillRxqueueLoop_posts hsize hring hloop
    refine ⟨0, st₁.ringRxDoorbell, bufs, ?call, ?returns⟩
    case call => rw [mlx5RefillRxqueueRet_eq, hrefill, Option.map_some]
    case returns =>
      refine ⟨hposts.ringRxDoorbell, ?_, hposts.ringRxDoorbell.existsUnique_slot hsize, rfl,
        fun _ => ⟨rfl, hlen⟩, ?_⟩
      · exact fun i j hij hj => Mlx5Rxq.freeSlot_ne hsize hij (by omega)
      · intro hless
        omega

/-- An empty receive ring of four slots and a pool of `n` buffers. -/
def emptyRing (n : ℕ) : State :=
  { State.zeroed 4 4 with rxBufMempool := ⟨fun i => 0x5000 + 0x4000 * UInt64.ofNat i, 0, n, 16384⟩ }

theorem refillsSafely_twoBuffers : RefillsSafely 2 (emptyRing 2) :=
  (refillsSafely_iff ⟨2, by decide⟩ (by decide)).mpr (by decide)

/-- One slot to fill and nothing to fill it with. -/
theorem not_refillsSafely_emptyPool : ¬ RefillsSafely 1 (emptyRing 0) := by
  rintro ⟨ret, st', bufs, hcall, -⟩
  have hnull : mlx5RefillRxqueueRet 1 (emptyRing 0) = none := rfl
  rw [hnull] at hcall
  simp at hcall

end Mlx5Netperf
