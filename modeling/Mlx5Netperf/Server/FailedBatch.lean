import Mlx5Netperf.ReleasedPools
import Mlx5Netperf.Server.BatchOutcome
import Mlx5Netperf.Server.RequestedData

/-!
# A Batch that Failed

What is left when `mempool_alloc` returns null inside `process_server_requests`.
The clean-up loop stops one packet short, or runs away at the first packet, and
never covers the packet that failed; without a buffer only the mbuf of the
current packet is freed, and through a release function that is not yet set.
-/

namespace Mlx5Netperf

/-- A pool as `mempool_create` and legal use leave it. -/
structure Mempool.Ok (m : Mempool) : Prop where
  allocated_le : m.allocated ≤ m.capacity
  capacity_lt : m.capacity < 2 ^ 64

/-- The same items are free, and as many are handed out. -/
structure Mempool.SameItems (m m' : Mempool) : Prop where
  free : m'.freeList.Perm m.freeList
  allocated : m'.allocated = m.allocated

/-- An allocation fails while the reply to some request of the batch is built. -/
def AllocationFails (cfg : Config) (requests : List Addr) (st : State) : Prop :=
  ∃ done request rest built st₁ e st₂, requests = done ++ request :: rest ∧
    BuildRun cfg 0 done st built st₁ ∧
    buildReply cfg built.length request st₁ = some (.error e, st₂)

/-- The call returns an error, has posted nothing, and has put the pools and the
reference counts back. -/
def LeavesNoTrace (st : State) (res : Option (Except Int32 (List Addr) × State)) : Prop :=
  ∃ e st', res = some (.error e, st') ∧ e ≠ 0 ∧
    Event.posts st'.trace = Event.posts st.trace ∧
    st.mbufMempool.SameItems st'.mbufMempool ∧ st.txBufMempool.SameItems st'.txBufMempool ∧
    st'.workingSetRefcnts = st.workingSetRefcnts

/-- No reference counts, no free buffer, and the mbuf that the first packet gets
was left by its last user as a chain of its own with the zero-copy release function. -/
def CleanFailure (cfg : Config) (st : State) : Prop :=
  cfg.zeroCopy = false ∧ cfg.usingRefCounting = false ∧ st.txBufMempool.freeList = [] ∧
    ∃ m rest, st.mbufMempool.freeList = m :: rest ∧
      (st.heap m).release = some .zeroCopyTxCompletion ∧ (st.heap m).next = none

variable {cfg : Config} {fuel : ℕ} {requests done rest built : List Addr} {request : Addr}
  {st st₁ st₂ st' : State}

/-! ## The failing round -/

/-- What the loop returns after a failed allocation. -/
theorem buildReplies_of_fails {e : BuildError} {heads : List Addr} {pktIdx : ℕ}
    (hrun : BuildRun cfg pktIdx done st built st₁) (hpkt : pktIdx = heads.length)
    (hround : buildReply cfg (heads ++ built).length request st₁ = some (.error e, st₂)) :
    buildReplies cfg fuel (done ++ request :: rest) heads st =
      (match e with
        | .noMbuf => freePrevious cfg fuel (heads ++ built) st₂
        | .noBuffer m => mbufFree cfg fuel st₂ (some m)).map fun st => (.error enomem, st) := by
  induction hrun generalizing heads with
  | nil =>
    rw [List.append_nil] at hround ⊢
    rw [List.nil_append, buildReplies, hround]
    cases e <;> rfl
  | @cons pktIdx r m done built st st₂ st₁ hstep _ ih =>
    subst hpkt
    have hsplit : heads ++ m :: built = (heads ++ [m]) ++ built := by simp
    rw [hsplit] at hround ⊢
    rw [List.cons_append, buildReplies, hstep]
    exact ih (by simp) hround

/-- A batch that failed, from its first request on. -/
theorem buildReplies_nil_of_fails {e : BuildError} (hrun : BuildRun cfg 0 done st built st₁)
    (hround : buildReply cfg built.length request st₁ = some (.error e, st₂)) :
    buildReplies cfg fuel (done ++ request :: rest) [] st =
      (match e with
        | .noMbuf => freePrevious cfg fuel built st₂
        | .noBuffer m => mbufFree cfg fuel st₂ (some m)).map fun st => (.error enomem, st) :=
  buildReplies_of_fails hrun List.length_nil.symm hround

/-- A clean-up that ends has freed the packets before the last one. -/
theorem freePrevious_inv {heads : List Addr}
    (h : freePrevious cfg fuel heads st = some st') (hlt : heads.length < 2 ^ 64) :
    heads ≠ [] ∧ mbufFreeAll cfg fuel st (heads.take (heads.length - 1)) = some st' := by
  have hne : heads ≠ [] := by
    rintro rfl
    -- the bound of the loop is `0 - 1`
    simp [freePrevious, WordArith.sizeSub] at h
  have hpos : 1 ≤ heads.length := List.length_pos_of_ne_nil hne
  have hbound := WordArith.sizeSub_of_le hpos hlt
  refine ⟨hne, ?_⟩
  simpa [freePrevious, hbound] using h

/-! ## Zero copy -/

/-- The packet that failed took none of the mbufs of the packets before it. -/
theorem ZeroCopyFailed.keeps_list {pktIdx : ℕ} {replies : List (Addr × List Addr)} {ms : List Addr}
    (hfailed : ZeroCopyFailed cfg st₁ ms st₂) (hbatch : ZeroCopyBatch cfg pktIdx done st replies st₁)
    (hnodup : st.mbufMempool.freeList.Nodup) {reply : Addr × List Addr} (hreply : reply ∈ replies) :
    ∀ a ∈ reply.2, st₂.heap a = st₁.heap a := by
  intro a ha
  refine hfailed.frame a fun hms => ?_
  rw [hbatch.pool, hfailed.pool] at hnodup
  exact (List.nodup_append.mp hnodup).2.2 a (List.mem_flatMap.mpr ⟨reply, hreply, ha⟩) a hms rfl

/-- **A failed zero-copy batch leaks** the packet before the one that failed. -/
theorem not_leavesNoTrace_zeroCopy (hzero : cfg.zeroCopy = true) (hok : st.mbufMempool.Ok)
    (hnodup : st.mbufMempool.freeList.Nodup) (hfresh : ∀ r ∈ requests, r ∉ st.mbufMempool.freeList)
    (hfails : AllocationFails cfg requests st) :
    ¬ LeavesNoTrace st (buildReplies cfg fuel requests [] st) := by
  rintro ⟨code, st', hres, -, -, hsame, -, -⟩
  obtain ⟨done, request, rest, built, st₁, e, st₂, rfl, hrun, hround⟩ := hfails
  have hdone : ∀ r ∈ done, r ∉ st.mbufMempool.freeList := fun r hr =>
    hfresh r (List.mem_append_left _ hr)
  obtain ⟨replies, hbatch, rfl⟩ := hrun.zeroCopyBatch hzero hnodup hdone
  obtain ⟨rfl, ms, hfailed⟩ := buildReply_zeroCopyFailed hzero (hrun.nodup hnodup hdone) hround
  have hlength := hrun.length_eq
  have hle := hok.allocated_le
  have hlt := hok.capacity_lt
  -- what was taken from the pool
  have htaken := hfailed.allocated
  have hfree := congrArg List.length hbatch.pool
  rw [hbatch.allocated, hbatch.length_nodes] at htaken
  rw [List.length_append, hbatch.length_nodes, hfailed.pool, Mempool.length_freeList] at hfree
  have hn : 0 < cfg.numSegments.toNat := Nat.zero_lt_of_lt hfailed.short
  have hmany : done.length ≤ done.length * cfg.numSegments.toNat := Nat.le_mul_of_pos_right _ hn
  -- what the clean-up gave back
  rw [buildReplies_nil_of_fails hrun hround] at hres
  obtain ⟨st₃, hcleanup, heq⟩ := Option.map_eq_some_iff.mp hres
  obtain ⟨-, rfl⟩ := Prod.mk.inj heq
  obtain ⟨hne, hall⟩ := freePrevious_inv hcleanup (by omega)
  have hheads : ∀ m ∈ (replies.map Prod.fst).take ((replies.map Prod.fst).length - 1),
      (st₂.heap m).release ≠ some .rxCompletion ∧
        ∃ nodes, st₂.heap.IsChain (some m) nodes ∧ nodes.length = cfg.numSegments.toNat := by
    intro m hm
    obtain ⟨reply, hreply, rfl⟩ := List.mem_map.mp (List.mem_of_mem_take hm)
    obtain ⟨segments, hnodes, hlist⟩ := hbatch.list_of_mem hreply
    have hkept := hlist.congr (hfailed.keeps_list hbatch hnodup hreply)
    exact ⟨by simp [hkept.release], reply.2, hkept.chain, hnodes⟩
  have hreturned := (mbufFreeAll_returned hall hheads).allocated
  rw [hsame.allocated, htaken, List.length_take, hlength] at hreturned
  obtain ⟨p, hp⟩ : ∃ p, done.length = p + 1 :=
    Nat.exists_eq_add_one_of_ne_zero fun hzero => hne (List.length_eq_zero_iff.mp (by omega))
  rw [hp, Nat.succ_mul] at hfree
  rw [hp, Nat.add_sub_cancel, Nat.min_eq_left (Nat.le_succ p), Nat.succ_mul] at hreturned
  omega

/-! ## Copy -/

/-- Each head of a copy batch is a chain of its own. -/
theorem CopyMbufs.isChain {replies : List (Addr × Addr)} (h : CopyMbufs cfg st replies st₁)
    {m : Addr} (hm : m ∈ replies.map Prod.fst) :
    (st₁.heap m).release = some .txCompletion ∧ st₁.heap.IsChain (some m) [m] := by
  obtain ⟨reply, hreply, rfl⟩ := List.mem_map.mp hm
  have hself := h.heap reply hreply
  exact ⟨by rw [hself]; rfl, NullTerminated.isChain_singleton (by rw [hself]; rfl)⟩

/-- **Without an mbuf** a failed copy batch leaks the packet before the one that failed. -/
theorem not_leavesNoTrace_noMbuf (hzero : cfg.zeroCopy = false) (hok : st.mbufMempool.Ok)
    (hnodup : st.mbufMempool.freeList.Nodup) (hrun : BuildRun cfg 0 done st built st₁)
    (hround : buildReply cfg built.length request st₁ = some (.error .noMbuf, st₂))
    (hnoMbuf : NoMbuf st₁ st₂) :
    ¬ LeavesNoTrace st (buildReplies cfg fuel (done ++ request :: rest) [] st) := by
  rintro ⟨code, st', hres, -, -, hsame, -, -⟩
  obtain ⟨replies, hbatch, rfl⟩ := hrun.copyMbufs hzero hnodup
  have hle := hok.allocated_le
  have hlt := hok.capacity_lt
  have htaken := hbatch.allocated
  have hfree := congrArg List.length hbatch.pool
  rw [List.length_append, List.length_map, hnoMbuf.exhausted, Mempool.length_freeList,
    List.length_nil] at hfree
  rw [buildReplies_nil_of_fails hrun hround] at hres
  obtain ⟨st₃, hcleanup, heq⟩ := Option.map_eq_some_iff.mp hres
  obtain ⟨-, rfl⟩ := Prod.mk.inj heq
  obtain ⟨hne, hall⟩ := freePrevious_inv hcleanup (by rw [List.length_map]; omega)
  have hheads : ∀ m ∈ (replies.map Prod.fst).take ((replies.map Prod.fst).length - 1),
      (st₂.heap m).release ≠ some .rxCompletion ∧
        ∃ nodes, st₂.heap.IsChain (some m) nodes ∧ nodes.length = 1 := by
    intro m hm
    obtain ⟨hrelease, hchain⟩ := hbatch.isChain (List.mem_of_mem_take hm)
    rw [hnoMbuf.heap]
    exact ⟨by simp [hrelease], [m], hchain, rfl⟩
  have hreturned := (mbufFreeAll_returned hall hheads).allocated
  have hpos := List.length_pos_of_ne_nil hne
  rw [hsame.allocated, hnoMbuf.mbufMempool, htaken, List.length_take] at hreturned
  rw [List.length_map] at hpos hreturned
  omega

/-- Only the key was written into the mbuf of the packet that failed. -/
theorem CopyFailed.keeps {m : Addr} (h : CopyFailed cfg st₁ m st₂) (a : Addr) :
    (st₂.heap a).release = (st₁.heap a).release ∧ (st₂.heap a).next = (st₁.heap a).next := by
  rw [h.heap]
  refine Heap.modify_keeps
    (P := fun b => b.release = (st₁.heap a).release ∧ b.next = (st₁.heap a).next) ?_ ⟨rfl, rfl⟩ m
  exact fun _ hb => hb

/-- **Without a buffer** the mbuf of the packet is freed as its last user left it,
and the packets before it are not freed at all. -/
theorem leavesNoTrace_noBuffer {m : Addr} (hzero : cfg.zeroCopy = false) (hok : st.mbufMempool.Ok)
    (htxOk : st.txBufMempool.Ok) (hnodup : st.mbufMempool.freeList.Nodup)
    (hrun : BuildRun cfg 0 done st built st₁)
    (hround : buildReply cfg built.length request st₁ = some (.error (.noBuffer m), st₂))
    (hfailed : CopyFailed cfg st₁ m st₂)
    (h : LeavesNoTrace st (buildReplies cfg fuel (done ++ request :: rest) [] st)) :
    CleanFailure cfg st := by
  obtain ⟨code, st', hres, -, -, hsame, htxSame, hrefcnts⟩ := h
  obtain ⟨replies, hbatch, rfl⟩ := hrun.copyMbufs hzero hnodup
  obtain ⟨hmore, -, hpool⟩ := mempoolAlloc_eq_some hfailed.pool
  have hlt := hok.capacity_lt
  have htxLt := htxOk.capacity_lt
  have htxLe := htxOk.allocated_le
  have htaken := hbatch.allocated
  have htxTaken := hbatch.txAllocated
  have htxFree := congrArg List.length hbatch.buffers
  rw [List.length_append, List.length_map, Mempool.length_freeList, hfailed.exhausted,
    List.length_nil] at htxFree
  rw [hbatch.capacity] at hmore
  have hallocated : st₂.mbufMempool.allocated = st.mbufMempool.allocated + replies.length + 1 := by
    rw [hpool, ← htaken]
  -- the mbuf is freed through the release function that it happens to have
  rw [buildReplies_nil_of_fails hrun hround] at hres
  obtain ⟨st₃, hfree, heq⟩ := Option.map_eq_some_iff.mp hres
  obtain ⟨-, rfl⟩ := Prod.mk.inj heq
  cases mbufFree_cases hfree with
  | rx _ hst' =>
    have hsame' := hsame.allocated
    rw [hst'] at hsame'
    have hmbufs : st₂.mbufMempool.allocated = st.mbufMempool.allocated := hsame'
    omega
  | tx _ _ hmbufs htx _ =>
    have hmbufs' := hmbufs.allocated
    have htx' := htx.allocated
    rw [hsame.allocated, hallocated] at hmbufs'
    rw [htxSame.allocated, hfailed.txBufMempool, htxTaken] at htx'
    omega
  | @zeroCopy nodes hrelease hchain hfold hmbufs htx _ =>
    have hmbufs' := hmbufs.allocated
    rw [hsame.allocated, hallocated] at hmbufs'
    have htxSame' := htxSame.allocated
    rw [htx, hfailed.txBufMempool, htxTaken] at htxSame'
    -- no buffer was taken, so this is the first packet
    have hfirst : replies = [] := List.length_eq_zero_iff.mp (by omega)
    subst hfirst
    rw [List.length_nil] at hmbufs'
    -- the counter runs modulo 2 ^ 64, a chain is shorter
    have hbound := length_le_of_nodup hchain.nodup
    have hone : nodes.length = 1 := by omega
    obtain ⟨a, rfl⟩ := List.length_eq_one_iff.mp hone
    obtain rfl : done = [] := List.length_eq_zero_iff.mp hrun.length_eq.symm
    cases hrun
    obtain ⟨hnext, rfl⟩ := hchain.of_singleton
    refine ⟨hzero, ?_, hfailed.exhausted, a, _, freeList_of_mempoolAlloc hfailed.pool, ?_, ?_⟩
    · -- a decrement would show
      by_contra hrc
      rw [hfold, List.foldl_cons, List.foldl_nil, zeroCopyTxCompletionStep_refcnts,
        if_pos (by simpa using hrc)] at hrefcnts
      refine dropRefcnt_ne cfg _ _ (hrefcnts.trans ?_)
      exact hfailed.workingSetRefcnts.symm
    · rw [← (hfailed.keeps a).1, hrelease]
    · rw [← (hfailed.keeps a).2, hnext]

/-- **The one failure that leaves no trace.** -/
theorem CleanFailure.leavesNoTrace (h : CleanFailure cfg st) (hok : st.mbufMempool.Ok)
    (hfuel : 0 < fuel) (hne : requests ≠ []) :
    LeavesNoTrace st (buildReplies cfg fuel requests [] st) := by
  obtain ⟨hzero, hrc, hempty, m, rest, hfree, hrelease, hnext⟩ := h
  obtain ⟨request, requests, rfl⟩ := List.exists_cons_of_ne_nil hne
  obtain ⟨m', st₁, hround, hfailed⟩ : ∃ m' st₁,
      buildReply cfg 0 request st = some (.error (.noBuffer m'), st₁) ∧ CopyFailed cfg st m' st₁ := by
    rcases buildReply_copy_cases hzero 0 request st with
      ⟨_, _, _, -, hbuilt⟩ | hfailed | ⟨_, -, hnoMbuf⟩
    · have hbuffers := freeList_of_mempoolAlloc hbuilt.buffers
      simp [hempty] at hbuffers
    · exact hfailed
    · have hexhausted := hnoMbuf.exhausted
      simp [hfree] at hexhausted
  -- the mbuf on top of the pool
  have hpool := freeList_of_mempoolAlloc hfailed.pool
  obtain ⟨hmore, -, halloc⟩ := mempoolAlloc_eq_some hfailed.pool
  obtain ⟨rfl, rfl⟩ := List.cons.inj (hfree.symm.trans hpool)
  -- freed as it was left by its last user
  have hself : st₁.heap m = { st.heap m with lkey := cfg.txLkey } := by
    rw [hfailed.heap, Heap.modify_self]
  have hchain : st₁.heap.IsChain (some m) [m] :=
    NullTerminated.isChain_singleton (by rw [hself, hnext])
  let st₂ := zeroCopyTxCompletionStep cfg m (st₁.log (.freed m))
  have hfreed : mbufFree cfg fuel st₁ (some m) = some st₂ := by
    have hrelease₁ : (st₁.heap m).release = some .zeroCopyTxCompletion := by rw [hself, hrelease]
    simp only [mbufFree, State.log_heap, hrelease₁]
    exact hchain.traverse_eq _ hfuel _
  obtain ⟨hmbufs, htx, -⟩ := zeroCopyTxCompletionStep_pools cfg m (st₁.log (.freed m))
  obtain ⟨tail, hreleased⟩ := mbufFree_released hfreed
  have hmbufs' : st₂.mbufMempool = mempoolFree st₁.mbufMempool m := hmbufs
  have hbuffers : st₂.txBufMempool = st.txBufMempool := htx.trans hfailed.txBufMempool
  -- the counts are not kept
  have hrefcnts : st₂.workingSetRefcnts = st₁.workingSetRefcnts := by
    rw [zeroCopyTxCompletionStep_refcnts, if_neg (by simp [hrc])]
    rfl
  have hone : st₁.mbufMempool.allocated = st.mbufMempool.allocated + 1 := by rw [halloc]
  have hcapacity : st₁.mbufMempool.capacity = st.mbufMempool.capacity := by rw [halloc]
  have hlt := hok.capacity_lt
  refine ⟨enomem, st₂, ?_, by decide, ?_, ⟨?_, ?_⟩, ⟨?_, ?_⟩, ?_⟩
  · rw [buildReplies, List.length_nil, hround]
    simp only [hfreed, Option.map_some]
  · have hquiet : Event.posts tail = [] := Event.posts_eq_nil fun e he =>
      (hreleased.tail_isRelease e he).isQuiet
    rw [hreleased.trace, State.log_trace, Event.posts_append, Event.posts_append, hquiet,
      Event.posts_freed, hfailed.trace, List.append_nil, List.append_nil]
  · rw [hmbufs', freeList_mempoolFree m (by omega) (by omega) (by omega), hfree]
  · rw [hmbufs']
    show WordArith.sizeSub st₁.mbufMempool.allocated 1 = _
    rw [WordArith.sizeSub_of_le (by omega) (by omega), hone, Nat.add_sub_cancel]
  · rw [hbuffers]
  · rw [hbuffers]
  · exact hrefcnts.trans hfailed.workingSetRefcnts

/-! ## The batch -/

/-- **A failed batch leaves no trace** exactly when it is the copy branch that
finds no buffer for its first packet, and its mbuf happens to be releasable. -/
theorem failed_batch_no_trace_iff (hok : st.mbufMempool.Ok) (htxOk : st.txBufMempool.Ok)
    (hnodup : st.mbufMempool.freeList.Nodup) (hfresh : ∀ r ∈ requests, r ∉ st.mbufMempool.freeList)
    (hfuel : 0 < fuel) (hfails : AllocationFails cfg requests st) :
    LeavesNoTrace st (buildReplies cfg fuel requests [] st) ↔ CleanFailure cfg st := by
  constructor
  · intro h
    cases hzero : cfg.zeroCopy with
    -- the clean-up stops one packet short
    | true => exact absurd h (not_leavesNoTrace_zeroCopy hzero hok hnodup hfresh hfails)
    | false =>
      obtain ⟨done, request, rest, built, st₁, e, st₂, rfl, hrun, hround⟩ := hfails
      rcases buildReply_copy_cases hzero built.length request st₁ with
        ⟨_, _, _, hok', -⟩ | ⟨m, st₃, hnoBuffer, hfailed⟩ | ⟨st₃, hnoMbuf, hfailed⟩
      · simp [hround] at hok'
      · exact leavesNoTrace_noBuffer hzero hok htxOk hnodup hrun hnoBuffer hfailed h
      · exact absurd h (not_leavesNoTrace_noMbuf hzero hok hnodup hrun hnoMbuf hfailed)
  · intro h
    obtain ⟨done, request, rest, -, -, -, -, hsplit, -⟩ := hfails
    exact h.leavesNoTrace hok hfuel (by simp [hsplit])

/-- Only a scatter list without segments has no first mbuf. -/
theorem buildReply_ne_none (hsegments : cfg.zeroCopy = true → 0 < cfg.numSegments.toNat)
    (hnodup : st.mbufMempool.freeList.Nodup) (pktIdx : ℕ) (request : Addr) :
    buildReply cfg pktIdx request st ≠ none := by
  intro hnone
  cases hzero : cfg.zeroCopy with
  | false =>
    -- a copy reply is built or fails
    rcases buildReply_copy_cases hzero pktIdx request st with
      ⟨_, _, _, h, -⟩ | ⟨_, _, h, -⟩ | ⟨_, h, -⟩ <;> simp [hnone] at h
  | true =>
    obtain ⟨checksum, hbuild⟩ := buildReply_zeroCopy hzero pktIdx request st
    rw [hbuild, scatterListReply] at hnone
    split at hnone
    case h_1 => simp at hnone
    case h_2 ms st₂ hloop =>
      have hbuilt := zeroCopySegments_built (segmentsBuilt_nil cfg pktIdx _) (by exact hnodup) hloop
      -- a scatter list with segments has a first mbuf
      have hlength := hbuilt.holds.length_eq
      rw [List.nil_append, length_requestedSegments] at hlength
      have hpos := hsegments hzero
      have hne : ms ≠ [] := by
        rintro rfl
        simp at hlength
        omega
      rw [List.head?_eq_some_head hne, List.getLast?_eq_some_getLast hne] at hnone
      simp at hnone

/-- Pools that do not suffice make some allocation fail. -/
theorem allocationFails_of_not_poolsSuffice (hnodup : st.mbufMempool.freeList.Nodup)
    (hfresh : ∀ r ∈ requests, r ∉ st.mbufMempool.freeList)
    (hsegments : cfg.zeroCopy = true → 0 < cfg.numSegments.toNat)
    (hshort : ¬ PoolsSuffice cfg st requests.length) : AllocationFails cfg requests st := by
  rcases buildReplies_cases cfg 0 requests [] st with
    ⟨built, st', hrun, hok⟩ | ⟨done, request, rest, built, st₁, hsplit, hrun, hstop⟩
  · exact absurd ((buildReplies_isOk_iff hnodup hfresh).mp ⟨_, st', hok⟩) hshort
  · rw [List.nil_append] at hstop
    generalize buildReplies cfg 0 requests [] st = res at hstop
    cases hstop with
    | noMbuf hround => exact ⟨done, request, rest, built, st₁, _, _, hsplit, hrun, hround⟩
    | noBuffer hround => exact ⟨done, request, rest, built, st₁, _, _, hsplit, hrun, hround⟩
    | crash hround =>
      -- a crash would need a scatter list without segments
      have hdone : ∀ r ∈ done, r ∉ st.mbufMempool.freeList := fun r hr =>
        hfresh r (by rw [hsplit]; exact List.mem_append_left _ hr)
      exact absurd hround (buildReply_ne_none hsegments (hrun.nodup hnodup hdone) _ request)

/-- One request for a copy server with one mbuf, which its last user left as a
zero-copy chain of its own, and no buffer. -/
def noBufferState : State :=
  { State.zeroed 128 128 with
    heap := fun _ => { Mbuf.zeroed with release := some .zeroCopyTxCompletion }
    mbufMempool := ⟨fun _ => 0x100000, 0, 1, 256⟩ }

theorem freeList_noBufferState : noBufferState.mbufMempool.freeList = [0x100000] := by decide

theorem failed_batch_no_trace_noBuffer :
    LeavesNoTrace noBufferState (buildReplies (oneRegionServer false) 1 [0x5000] [] noBufferState) := by
  have hnodup : noBufferState.mbufMempool.freeList.Nodup := by
    rw [freeList_noBufferState]
    exact List.nodup_singleton _
  have hfresh : ∀ r ∈ [(0x5000 : Addr)], r ∉ noBufferState.mbufMempool.freeList := by
    rw [freeList_noBufferState]
    simp
  have hfails := @allocationFails_of_not_poolsSuffice (oneRegionServer false) [0x5000] noBufferState
    hnodup hfresh (by decide) (by decide)
  apply (failed_batch_no_trace_iff ⟨by decide, by decide⟩ ⟨by decide, by decide⟩ hnodup hfresh
    (by decide) hfails).mpr
  exact ⟨rfl, rfl, by decide, 0x100000, [], freeList_noBufferState, rfl, rfl⟩

/-- Five requests and four mbufs: the mbuf of the fourth reply is lost. -/
theorem failed_batch_leaks_fiveRequests :
    ¬ ∀ (cfg : Config) (fuel : ℕ) (requests : List Addr) (st : State),
      st.mbufMempool.Ok → st.txBufMempool.Ok → st.mbufMempool.freeList.Nodup →
      (∀ r ∈ requests, r ∉ st.mbufMempool.freeList) → 0 < fuel → AllocationFails cfg requests st →
      LeavesNoTrace st (buildReplies cfg fuel requests [] st) := by
  intro hclaim
  let requests : List Addr := [0x5000, 0x5100, 0x5200, 0x5300, 0x5400]
  have hok : oneRequestState.mbufMempool.Ok := ⟨by decide, by decide⟩
  have hnodup := (batchOk_oneRequestState true).nodup
  have hfresh : ∀ r ∈ requests, r ∉ oneRequestState.mbufMempool.freeList := by
    rw [freeList_mbufs_oneRequestState]
    simp [requests]
  have hfails := @allocationFails_of_not_poolsSuffice (oneRegionServer true) requests oneRequestState
    hnodup hfresh (by decide) (by rw [show requests.length = 5 from rfl]; decide)
  exact not_leavesNoTrace_zeroCopy rfl hok hnodup hfresh hfails
    (hclaim _ 1 _ _ hok ⟨by decide, by decide⟩ hnodup hfresh (by decide) hfails)

end Mlx5Netperf
