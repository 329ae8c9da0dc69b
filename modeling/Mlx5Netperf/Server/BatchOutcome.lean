import Mlx5Netperf.Server.Batch
import Mlx5Netperf.Server.ReplyOutcome

/-!
# The Outcome of Building a Batch

How many mbufs and buffers a batch of replies takes from the pools, and that the
batch is built exactly when the pools have them.
-/

namespace Mlx5Netperf

/-- What a batch of `count` replies takes from the pools is there. -/
def PoolsSuffice (cfg : Config) (st : State) (count : ℕ) : Prop :=
  if cfg.zeroCopy then
    count * cfg.numSegments.toNat ≤ st.mbufMempool.freeList.length ∧
      (count ≠ 0 → 0 < cfg.numSegments.toNat)
  else count ≤ st.mbufMempool.freeList.length ∧ count ≤ st.txBufMempool.freeList.length

instance (cfg : Config) (st : State) (count : ℕ) : Decidable (PoolsSuffice cfg st count) :=
  inferInstanceAs (Decidable (if cfg.zeroCopy then
      count * cfg.numSegments.toNat ≤ st.mbufMempool.freeList.length ∧
        (count ≠ 0 → 0 < cfg.numSegments.toNat)
    else count ≤ st.mbufMempool.freeList.length ∧ count ≤ st.txBufMempool.freeList.length))

variable {cfg : Config} {fuel pktIdx : ℕ} {requests heads : List Addr} {st st' : State}

/-! ## Zero copy -/

/-- A zero-copy batch takes an mbuf for every segment of every reply. -/
theorem ZeroCopyBatch.length_nodes {replies : List (Addr × List Addr)}
    (h : ZeroCopyBatch cfg pktIdx requests st replies st') :
    (replies.flatMap Prod.snd).length = requests.length * cfg.numSegments.toNat := by
  have hlists := h.lists
  clear h
  induction hlists with
  | nil => simp
  | cons hlist _ ih =>
    rw [List.flatMap_cons, List.length_append, ih, hlist.holds.length_eq, length_requestedSegments,
      List.length_cons, Nat.succ_mul, Nat.add_comm]

/-- Each reply is a scatter list of its own. -/
theorem ZeroCopyBatch.list_of_mem {replies : List (Addr × List Addr)} {reply : Addr × List Addr}
    (h : ZeroCopyBatch cfg pktIdx requests st replies st') (hreply : reply ∈ replies) :
    ∃ segments, reply.2.length = cfg.numSegments.toNat ∧
      ScatterListOf cfg segments st'.heap reply.1 reply.2 := by
  obtain ⟨i, hi⟩ := List.mem_iff_getElem?.mp hreply
  have hlt : i < requests.length := by
    rw [h.lists.length_eq]
    exact (List.getElem?_eq_some_iff.mp hi).1
  obtain ⟨m, nodes, hget, hlist⟩ := h.exists_reply (List.getElem?_eq_getElem hlt)
  obtain rfl := Option.some.inj (hi.symm.trans hget)
  refine ⟨_, ?_, hlist⟩
  rw [hlist.holds.length_eq, length_requestedSegments]

/-- A scatter list has at least one segment. -/
theorem ZeroCopyBatch.numSegments_pos {replies : List (Addr × List Addr)}
    (h : ZeroCopyBatch cfg pktIdx requests st replies st') (hne : requests ≠ []) :
    0 < cfg.numSegments.toNat := by
  obtain ⟨request, rest, rfl⟩ := List.exists_cons_of_ne_nil hne
  obtain ⟨m, nodes, -, hlist⟩ := h.exists_reply (i := 0) rfl
  have hlength := hlist.holds.length_eq
  rw [length_requestedSegments] at hlength
  rw [← hlength]
  exact List.length_pos_of_mem hlist.chain.head_mem

/-! ## Copy -/

/-- What the loop over a batch does in copy mode to everything but the bytes in
memory: the mbufs and buffers it takes, and the fields it sets. -/
structure CopyMbufs (cfg : Config) (st : State) (replies : List (Addr × Addr)) (st' : State) :
    Prop where
  pool : st.mbufMempool.freeList = replies.map Prod.fst ++ st'.mbufMempool.freeList
  buffers : st.txBufMempool.freeList = replies.map Prod.snd ++ st'.txBufMempool.freeList
  allocated : st'.mbufMempool.allocated = st.mbufMempool.allocated + replies.length
  capacity : st'.mbufMempool.capacity = st.mbufMempool.capacity
  txAllocated : st'.txBufMempool.allocated = st.txBufMempool.allocated + replies.length
  txCapacity : st'.txBufMempool.capacity = st.txBufMempool.capacity
  heap : ∀ reply ∈ replies, st'.heap reply.1 = copyMbuf cfg reply.2 (st.heap reply.1)
  frame : ∀ a ∉ replies.map Prod.fst, st'.heap a = st.heap a
  txq : st'.txq = st.txq
  rxq : st'.rxq = st.rxq
  rxBufMempool : st'.rxBufMempool = st.rxBufMempool
  workingSetRefcnts : st'.workingSetRefcnts = st.workingSetRefcnts
  trace : st'.trace = st.trace

theorem copyMbufs_nil (cfg : Config) (st : State) : CopyMbufs cfg st [] st :=
  ⟨rfl, rfl, rfl, rfl, rfl, rfl, by simp, fun _ _ => rfl, rfl, rfl, rfl, rfl, rfl⟩

/-- One more reply in front. -/
theorem CopyMbufs.cons {m buffer : Addr} {st₁ : State} {replies : List (Addr × Addr)}
    (hfirst : CopyMbufBuilt cfg pktIdx st m buffer st₁) (hrest : CopyMbufs cfg st₁ replies st')
    (hnodup : st.mbufMempool.freeList.Nodup) : CopyMbufs cfg st ((m, buffer) :: replies) st' := by
  have hpool := freeList_of_mempoolAlloc hfirst.pool
  have hbuffers := freeList_of_mempoolAlloc hfirst.buffers
  obtain ⟨-, -, halloc⟩ := mempoolAlloc_eq_some hfirst.pool
  obtain ⟨-, -, htxAlloc⟩ := mempoolAlloc_eq_some hfirst.buffers
  -- the mbuf of this reply is none of those handed out later
  have hfresh : m ∉ replies.map Prod.fst := by
    rw [hpool, hrest.pool] at hnodup
    exact fun hmem => (List.nodup_cons.mp hnodup).1 (List.mem_append_left _ hmem)
  constructor
  case pool => rw [hpool, hrest.pool, List.map_cons, List.cons_append]
  case buffers => rw [hbuffers, hrest.buffers, List.map_cons, List.cons_append]
  case allocated =>
    rw [hrest.allocated, halloc, List.length_cons]
    dsimp only
    omega
  case capacity => rw [hrest.capacity, halloc]
  case txAllocated =>
    rw [hrest.txAllocated, htxAlloc, List.length_cons]
    dsimp only
    omega
  case txCapacity => rw [hrest.txCapacity, htxAlloc]
  case heap =>
    intro reply hreply
    rcases List.mem_cons.mp hreply with rfl | hlater
    · rw [hrest.frame m hfresh, hfirst.heap, Heap.modify_self]
    · have hne : reply.1 ≠ m := by
        rintro rfl
        exact hfresh (List.mem_map_of_mem hlater)
      rw [hrest.heap reply hlater, hfirst.heap, Heap.modify_of_ne _ hne]
  case frame =>
    intro a ha
    rw [List.map_cons, List.mem_cons, not_or] at ha
    rw [hrest.frame a ha.2, hfirst.heap, Heap.modify_of_ne _ ha.1]
  case txq => rw [hrest.txq, hfirst.txq]
  case rxq => rw [hrest.rxq, hfirst.rxq]
  case rxBufMempool => rw [hrest.rxBufMempool, hfirst.rxBufMempool]
  case workingSetRefcnts => rw [hrest.workingSetRefcnts, hfirst.workingSetRefcnts]
  case trace => rw [hrest.trace, hfirst.trace]

/-- **The mbufs of a batch of copy replies.** -/
theorem BuildRun.copyMbufs (hzero : cfg.zeroCopy = false)
    (hrun : BuildRun cfg pktIdx requests st heads st') (hnodup : st.mbufMempool.freeList.Nodup) :
    ∃ replies, CopyMbufs cfg st replies st' ∧ heads = replies.map Prod.fst := by
  induction hrun with
  | nil => exact ⟨[], copyMbufs_nil .., rfl⟩
  | @cons pktIdx request m requests heads st st₁ st' hround hrest ih =>
    obtain ⟨m', buffer, st₂, hok, hfirst⟩ : ∃ m' buffer st₂,
        buildReply cfg pktIdx request st = some (.ok m', st₂) ∧
          CopyMbufBuilt cfg pktIdx st m' buffer st₂ := by
      -- the round did not fail
      rcases buildReply_copy_cases hzero pktIdx request st with hok | ⟨_, _, herr, -⟩ | ⟨_, herr, -⟩
      · exact hok
      · simp [hround] at herr
      · simp [hround] at herr
    rw [hround, Option.some.injEq, Prod.mk.injEq, Except.ok.injEq] at hok
    obtain ⟨rfl, rfl⟩ := hok
    have hnodup₁ : st₁.mbufMempool.freeList.Nodup := by
      rw [freeList_of_mempoolAlloc hfirst.pool] at hnodup
      exact (List.nodup_cons.mp hnodup).2
    obtain ⟨replies, hbatch, rfl⟩ := ih hnodup₁
    exact ⟨(m, buffer) :: replies, CopyMbufs.cons hfirst hbatch hnodup, rfl⟩

/-! ## Success -/

/-- A batch that was built found what it takes. -/
theorem BuildRun.poolsSuffice (hrun : BuildRun cfg pktIdx requests st heads st')
    (hnodup : st.mbufMempool.freeList.Nodup)
    (hfresh : ∀ r ∈ requests, r ∉ st.mbufMempool.freeList) :
    PoolsSuffice cfg st requests.length := by
  have hlength := hrun.length_eq
  unfold PoolsSuffice
  split
  case isTrue hzero =>
    obtain ⟨replies, hbatch, -⟩ := hrun.zeroCopyBatch hzero hnodup hfresh
    refine ⟨?_, fun hne => hbatch.numSegments_pos (by rintro rfl; exact hne rfl)⟩
    rw [hbatch.pool, List.length_append, hbatch.length_nodes]
    omega
  case isFalse hcopy =>
    obtain ⟨replies, hbatch, rfl⟩ := hrun.copyMbufs (by simpa using hcopy) hnodup
    rw [List.length_map] at hlength
    rw [hbatch.pool, hbatch.buffers, List.length_append, List.length_append, List.length_map,
      List.length_map]
    exact ⟨by omega, by omega⟩

/-- The pools that suffice for a batch still suffice for its rest. -/
theorem PoolsSuffice.rest {done rest : List Addr}
    (h : PoolsSuffice cfg st (done.length + rest.length))
    (hrun : BuildRun cfg pktIdx done st heads st') (hnodup : st.mbufMempool.freeList.Nodup)
    (hfresh : ∀ r ∈ done, r ∉ st.mbufMempool.freeList) : PoolsSuffice cfg st' rest.length := by
  have hlength := hrun.length_eq
  unfold PoolsSuffice at h ⊢
  split
  case isTrue hzero =>
    obtain ⟨replies, hbatch, -⟩ := hrun.zeroCopyBatch hzero hnodup hfresh
    rw [if_pos hzero, hbatch.pool, List.length_append, hbatch.length_nodes, Nat.add_mul] at h
    exact ⟨by omega, fun hne => h.2 (by omega)⟩
  case isFalse hcopy =>
    obtain ⟨replies, hbatch, rfl⟩ := hrun.copyMbufs (by simpa using hcopy) hnodup
    rw [List.length_map] at hlength
    rw [if_neg hcopy, hbatch.pool, hbatch.buffers, List.length_append, List.length_append,
      List.length_map, List.length_map] at h
    exact ⟨by omega, by omega⟩

/-- Enough for a batch is enough for its first reply. -/
theorem PoolsSuffice.one {count : ℕ} (h : PoolsSuffice cfg st (count + 1)) :
    PoolsSuffice cfg st 1 := by
  unfold PoolsSuffice at h ⊢
  rw [Nat.succ_mul] at h
  split at h
  case isTrue hzero =>
    rw [if_pos hzero]
    exact ⟨by omega, fun _ => h.2 (by omega)⟩
  case isFalse hcopy =>
    rw [if_neg hcopy]
    exact ⟨by omega, by omega⟩

/-- The free mbufs of a run are distinct throughout. -/
theorem BuildRun.nodup (hrun : BuildRun cfg pktIdx requests st heads st')
    (hnodup : st.mbufMempool.freeList.Nodup)
    (hfresh : ∀ r ∈ requests, r ∉ st.mbufMempool.freeList) : st'.mbufMempool.freeList.Nodup := by
  cases hzero : cfg.zeroCopy with
  | true =>
    obtain ⟨replies, hbatch, -⟩ := hrun.zeroCopyBatch hzero hnodup hfresh
    exact (List.nodup_append.mp (hbatch.pool ▸ hnodup)).2.1
  | false =>
    obtain ⟨replies, hbatch, -⟩ := hrun.copyMbufs hzero hnodup
    exact (List.nodup_append.mp (hbatch.pool ▸ hnodup)).2.1

/-- One reply is built when the pools suffice for it. -/
theorem buildReply_isOk (h : PoolsSuffice cfg st 1) (pktIdx : ℕ) (request : Addr)
    (hnodup : st.mbufMempool.freeList.Nodup) :
    ∃ m st', buildReply cfg pktIdx request st = some (.ok m, st') := by
  unfold PoolsSuffice at h
  split at h
  case isTrue hzero =>
    exact buildReply_zeroCopy_isOk hzero pktIdx request hnodup (h.2 one_ne_zero) (by omega)
  case isFalse hcopy =>
    rcases buildReply_copy_cases (by simpa using hcopy) pktIdx request st with
      ⟨m, buffer, st', hok, -⟩ | ⟨m, st', -, hfailed⟩ | ⟨st', -, hfailed⟩
    · exact ⟨m, st', hok⟩
    · rw [hfailed.exhausted] at h
      simp at h
    · rw [hfailed.exhausted] at h
      simp at h

/-- **A batch is built** exactly when the pools have what it takes. -/
theorem buildReplies_isOk_iff (hnodup : st.mbufMempool.freeList.Nodup)
    (hfresh : ∀ r ∈ requests, r ∉ st.mbufMempool.freeList) :
    (∃ heads st', buildReplies cfg fuel requests [] st = some (.ok heads, st')) ↔
      PoolsSuffice cfg st requests.length := by
  constructor
  · rintro ⟨heads, st', h⟩
    obtain ⟨built, hrun, -⟩ := buildRun_of_ok h
    exact hrun.poolsSuffice hnodup hfresh
  · intro hpools
    rcases buildReplies_cases cfg fuel requests [] st with
      ⟨built, st', -, hok⟩ | ⟨done, request, rest, built, st', rfl, hrun, hstop⟩
    · exact ⟨_, st', hok⟩
    · -- the round that stopped had what it takes
      have hdone : ∀ r ∈ done, r ∉ st.mbufMempool.freeList := fun r hr =>
        hfresh r (List.mem_append_left _ hr)
      rw [List.length_append] at hpools
      have hrest := hpools.rest hrun hnodup hdone
      obtain ⟨m, st₁, hround⟩ := buildReply_isOk hrest.one ([] ++ built).length request
        (hrun.nodup hnodup hdone)
      exact absurd hround (hstop.not_built m st₁)

end Mlx5Netperf
