import Mlx5Netperf.Completion
import Mathlib.Data.List.Nodup
import Mathlib.Data.List.Perm.Subperm

/-!
# What a Release Gives Back

The effect of the release functions on the pools. `mempool_free` counts down in
64 bits and does not stop at zero, so the effect of a release of any chain is
stated on the counters.
-/

namespace Mlx5Netperf

open NullTerminated

/-! ## Counting -/

/-- The counter of a pool after `count` items were given back, in 64 bits. -/
structure Mempool.Returned (m m' : Mempool) (count : ℕ) : Prop where
  capacity : m'.capacity = m.capacity
  allocated : (m'.allocated + count) % 2 ^ 64 = m.allocated % 2 ^ 64

namespace Mempool.Returned

variable {m m' m'' : Mempool} {count count' : ℕ}

theorem refl (m : Mempool) : m.Returned m 0 := ⟨rfl, rfl⟩

theorem trans (h : m.Returned m' count) (h' : m'.Returned m'' count') :
    m.Returned m'' (count + count') := by
  refine ⟨h'.capacity.trans h.capacity, ?_⟩
  have hfirst := h.allocated
  have hsecond := h'.allocated
  omega

/-- One item. -/
theorem mempoolFree (m : Mempool) (item : Addr) : m.Returned (mempoolFree m item) 1 := by
  refine ⟨rfl, ?_⟩
  show (WordArith.sizeSub m.allocated 1 + 1) % 2 ^ 64 = m.allocated % 2 ^ 64
  unfold WordArith.sizeSub
  omega

end Mempool.Returned

/-- There are no more than `2 ^ 64` distinct addresses. -/
theorem length_le_of_nodup {nodes : List Addr} (h : nodes.Nodup) : nodes.length ≤ 2 ^ 64 := by
  have hnodup : (nodes.map UInt64.toNat).Nodup := List.Nodup.map (fun _ _ => UInt64.toNat_inj.mp) h
  -- the pigeonhole over all 64-bit values
  have hsubset : nodes.map UInt64.toNat ⊆ List.range (2 ^ 64) := by
    intro n hn
    obtain ⟨a, -, rfl⟩ := List.mem_map.mp hn
    exact List.mem_range.mpr a.toNat_lt
  have hle := (hnodup.subperm hsubset).length_le
  rwa [List.length_map, List.length_range] at hle

/-! ## The release functions -/

section Rounds

variable {cfg : Config}

/-- A round of `zero_copy_tx_completion` gives back the mbuf, and no buffer. -/
theorem zeroCopyTxCompletionStep_pools (cfg : Config) (m : Addr) (st : State) :
    (zeroCopyTxCompletionStep cfg m st).mbufMempool = mempoolFree st.mbufMempool m ∧
      (zeroCopyTxCompletionStep cfg m st).txBufMempool = st.txBufMempool ∧
      (zeroCopyTxCompletionStep cfg m st).rxBufMempool = st.rxBufMempool := by
  simp only [zeroCopyTxCompletionStep]
  -- neither the count nor the report at zero touches a pool
  split
  · split <;> exact ⟨rfl, rfl, rfl⟩
  · exact ⟨rfl, rfl, rfl⟩

/-- One decrement of a reference count, as `zero_copy_tx_completion` makes it. -/
def dropRefcnt (cfg : Config) (refcnts : ℕ → ℕ → UInt16) (segment : UInt64) : ℕ → ℕ → UInt16 :=
  let arr := (segment / cfg.numTotalSegments).toNat
  let seg := (segment % cfg.numTotalSegments).toNat
  storeRefcnt refcnts arr seg (refcnts arr seg - 1)

/-- A decrement changes its count. -/
theorem dropRefcnt_ne (cfg : Config) (refcnts : ℕ → ℕ → UInt16) (segment : UInt64) :
    dropRefcnt cfg refcnts segment ≠ refcnts := by
  intro heq
  have hcell := congrFun (congrFun heq (segment / cfg.numTotalSegments).toNat)
    (segment % cfg.numTotalSegments).toNat
  simp only [dropRefcnt, storeRefcnt, and_self, if_true] at hcell
  -- also when the count wraps from zero
  have hne : ∀ count : UInt16, count - 1 ≠ count := by grind
  exact hne _ hcell

/-- A round of `zero_copy_tx_completion` with reference counting decrements the
count of the segment that the mbuf was made for. -/
theorem zeroCopyTxCompletionStep_refcnts (cfg : Config) (m : Addr) (st : State) :
    (zeroCopyTxCompletionStep cfg m st).workingSetRefcnts =
      if cfg.usingRefCounting then dropRefcnt cfg st.workingSetRefcnts (st.heap m).releaseData
      else st.workingSetRefcnts := by
  have hdrop : ∀ index, (serverChangeRefcnt cfg st index (-1)).2.workingSetRefcnts =
      dropRefcnt cfg st.workingSetRefcnts index := fun _ => rfl
  simp only [zeroCopyTxCompletionStep]
  split
  · split <;> exact hdrop _
  · rfl

/-- Freeing a scatter list gives back its mbufs, and no buffer. -/
theorem foldl_zeroCopyTxCompletionStep_pools (cfg : Config) (nodes : List Addr) (st : State) :
    let st' := nodes.foldl (fun s a => zeroCopyTxCompletionStep cfg a s) st
    st.mbufMempool.Returned st'.mbufMempool nodes.length ∧ st'.txBufMempool = st.txBufMempool ∧
      st'.rxBufMempool = st.rxBufMempool := by
  induction nodes generalizing st with
  | nil => exact ⟨.refl _, rfl, rfl⟩
  | cons a nodes ih =>
    obtain ⟨hmbuf, htx, hrx⟩ := zeroCopyTxCompletionStep_pools cfg a st
    obtain ⟨hmbufs, htxs, hrxs⟩ := ih (zeroCopyTxCompletionStep cfg a st)
    rw [hmbuf] at hmbufs
    refine ⟨?_, htxs.trans htx, hrxs.trans hrx⟩
    rw [List.length_cons, Nat.add_comm]
    exact (Mempool.Returned.mempoolFree ..).trans hmbufs

/-- Freeing a chain with buffers gives back both. -/
theorem foldl_txCompletionStep_pools (nodes : List Addr) (st : State) :
    let st' := nodes.foldl (fun s a => txCompletionStep a s) st
    st.mbufMempool.Returned st'.mbufMempool nodes.length ∧
      st.txBufMempool.Returned st'.txBufMempool nodes.length ∧
      st'.rxBufMempool = st.rxBufMempool := by
  induction nodes generalizing st with
  | nil => exact ⟨.refl _, .refl _, rfl⟩
  | cons a nodes ih =>
    obtain ⟨hmbufs, htxs, hrxs⟩ := ih (txCompletionStep a st)
    refine ⟨?_, ?_, hrxs⟩
    · rw [List.length_cons, Nat.add_comm]
      exact (Mempool.Returned.mempoolFree ..).trans hmbufs
    · rw [List.length_cons, Nat.add_comm]
      exact (Mempool.Returned.mempoolFree ..).trans htxs

end Rounds

/-- What `mbuf_free` gave back to the pools, by the release function that it called. -/
inductive MbufFreed (cfg : Config) (st : State) (m : Addr) (st' : State) : Prop where
  | zeroCopy {nodes : List Addr} (hrelease : (st.heap m).release = some .zeroCopyTxCompletion)
      (hchain : st.heap.IsChain (some m) nodes)
      (hfold : st' = nodes.foldl (fun s a => zeroCopyTxCompletionStep cfg a s) (st.log (.freed m)))
      (hmbufs : st.mbufMempool.Returned st'.mbufMempool nodes.length)
      (htx : st'.txBufMempool = st.txBufMempool) (hrx : st'.rxBufMempool = st.rxBufMempool)
  | tx {nodes : List Addr} (hrelease : (st.heap m).release = some .txCompletion)
      (hchain : st.heap.IsChain (some m) nodes)
      (hmbufs : st.mbufMempool.Returned st'.mbufMempool nodes.length)
      (htx : st.txBufMempool.Returned st'.txBufMempool nodes.length)
      (hrx : st'.rxBufMempool = st.rxBufMempool)
  | rx (hrelease : (st.heap m).release = some .rxCompletion)
      (hst' : st' = rxCompletion (st.log (.freed m)) m)

/-- **What `mbuf_free` gives back.** -/
theorem mbufFree_cases {cfg : Config} {fuel : ℕ} {st st' : State} {m : Addr}
    (h : mbufFree cfg fuel st (some m) = some st') : MbufFreed cfg st m st' := by
  simp only [mbufFree, State.log_heap] at h
  split at h
  case h_1 => simp at h
  case h_2 hrelease =>
    obtain ⟨nodes, hchain, -, rfl⟩ := exists_chain_of_traverse h
    obtain ⟨hmbufs, htx, hrx⟩ :=
      foldl_zeroCopyTxCompletionStep_pools cfg nodes (st.log (.freed m))
    exact .zeroCopy hrelease hchain rfl hmbufs htx hrx
  case h_3 hrelease =>
    obtain ⟨nodes, hchain, -, rfl⟩ := exists_chain_of_traverse h
    obtain ⟨hmbufs, htx, hrx⟩ := foldl_txCompletionStep_pools nodes (st.log (.freed m))
    exact .tx hrelease hchain hmbufs htx hrx
  case h_4 hrelease => exact .rx hrelease (Option.some.inj h).symm

/-- Freeing a chain of the program gives its mbufs back. -/
theorem mbufFree_returned {cfg : Config} {fuel : ℕ} {st st' : State} {m : Addr}
    {nodes : List Addr} (h : mbufFree cfg fuel st (some m) = some st')
    (hrelease : (st.heap m).release ≠ some .rxCompletion)
    (hchain : st.heap.IsChain (some m) nodes) :
    st.mbufMempool.Returned st'.mbufMempool nodes.length := by
  cases mbufFree_cases h with
  | zeroCopy _ hchain' _ hmbufs _ _ => rwa [hchain.unique hchain']
  | tx _ hchain' hmbufs _ _ => rwa [hchain.unique hchain']
  | rx hrx _ => exact absurd hrx hrelease

/-- Freeing does not write mbufs. -/
theorem mbufFree_heap {cfg : Config} {fuel : ℕ} {st st' : State} {m : Addr}
    (h : mbufFree cfg fuel st (some m) = some st') : st'.heap = st.heap := by
  obtain ⟨tail, hreleased⟩ := mbufFree_released h
  exact hreleased.keeps.heap

/-- **Freeing several chains** of the same length. -/
theorem mbufFreeAll_returned {cfg : Config} {fuel count : ℕ} {heads : List Addr} {st st' : State}
    (h : mbufFreeAll cfg fuel st heads = some st')
    (hheads : ∀ m ∈ heads, (st.heap m).release ≠ some .rxCompletion ∧
      ∃ nodes, st.heap.IsChain (some m) nodes ∧ nodes.length = count) :
    st.mbufMempool.Returned st'.mbufMempool (heads.length * count) := by
  induction heads generalizing st with
  | nil =>
    obtain rfl := Option.some.inj h
    rw [List.length_nil, Nat.zero_mul]
    exact .refl _
  | cons m heads ih =>
    obtain ⟨st₁, hfree, hrest⟩ := Option.bind_eq_some_iff.mp h
    obtain ⟨hrelease, nodes, hchain, rfl⟩ := hheads m (List.mem_cons_self ..)
    have hfirst := mbufFree_returned hfree hrelease hchain
    -- freeing one chain leaves the others as they are
    have hlater := ih hrest fun m' hm' => by
      rw [mbufFree_heap hfree]
      exact hheads m' (List.mem_cons_of_mem _ hm')
    rw [List.length_cons, Nat.succ_mul, Nat.add_comm]
    exact hfirst.trans hlater

end Mlx5Netperf
