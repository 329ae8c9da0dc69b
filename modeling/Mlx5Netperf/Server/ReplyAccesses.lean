import Mlx5Netperf.Server.CacheLines
import Mlx5Netperf.Server.PreparedBatch
import Mlx5Netperf.Server.RefcntCells

/-!
# The Accesses of a Batch

Memory, the counts and the division are total in the model. This module says when
`process_server_requests` stays inside what was allocated while it builds its replies,
and when the releases of what was sent do: the bytes the checksum reads, the number of
regions it divides by, the counts of its segments, the regions it copies and the buffer
it copies them to.
-/

namespace Mlx5Netperf

variable {cfg : Config} {numRefcntArrays : UInt64} {st st' : State} {request : Addr}

/-! ## What one access needs -/

/-- `server_change_refcnt` divides by a number that is not zero and finds a count that
was allocated. -/
structure CountInside (cfg : Config) (numRefcntArrays index : UInt64) : Prop where
  divisor : cfg.numTotalSegments ≠ 0
  cell : AllocatedCell cfg numRefcntArrays (refcntCell cfg index)

/-- **The ids with a count** are those below the number of counts. -/
theorem countInside_iff (hws : WorkingSetPlaced cfg) (index : UInt64) :
    CountInside cfg numRefcntArrays index ↔
      index.toNat < numRefcntArrays.toNat * cfg.numTotalSegments.toNat := by
  constructor
  · exact fun h => (allocatedCell_iff (hws.mapped h.divisor) index).mp h.cell
  · intro hlt
    have htotal : cfg.numTotalSegments ≠ 0 := by
      intro hzero
      rw [hzero] at hlt
      simp at hlt
    exact ⟨htotal, (allocatedCell_iff (hws.mapped htotal) index).mpr hlt⟩

/-- The checksum over a packet reads the buffer of the packet only. -/
def ChecksumInside (request : Addr) (b : Mbuf) : Prop :=
  ∀ a ∈ checksumReads b, request.toNat ≤ a ∧ a < request.toNat + 16384

/-- **A packet is read inside its buffer** exactly when it has all its headers: else
the length of the payload wraps around. -/
theorem checksumInside_iff {b : Mbuf} (hdata : (mbufData b).toNat = request.toNat + 128)
    (hlen : (mbufLength b).toNat ≤ 9280) :
    ChecksumInside request b ↔ 42 ≤ (mbufLength b).toNat := by
  constructor
  · intro h
    by_contra hshort
    have hheader : (UInt32.ofNat fullHeaderSize).toNat = 42 := rfl
    have hpayload : payloadLen b = 2 ^ 32 - 42 + (mbufLength b).toNat := by
      rw [payloadLen, UInt32.toNat_sub, hheader, Nat.mod_eq_of_lt (by omega)]
    have hamt : amtToAdd = 20 := rfl
    -- the cache line number 300 is behind the buffer
    have hread : (mbufData b).toNat + 62 + 64 * 300 ∈ checksumReads b := by
      simp only [checksumReads, checksumPtrs, List.mem_range', payloadPtr_eq, hamt, hpayload]
      exact ⟨300, by omega, by omega⟩
    have hinside := (h _ hread).2
    omega
  · intro hheaders a ha
    obtain ⟨j, rfl, hj⟩ := (mem_checksumReads hheaders).mp ha
    omega

/-! ## Building a reply -/

/-- The copy branch gets an mbuf and a buffer. -/
def CopyStarts (st : State) : Prop :=
  st.mbufMempool.freeList ≠ [] ∧ st.txBufMempool.freeList ≠ []

/-- One round of the loop over a batch stays inside. The zero-copy branch divides before
it allocates and counts after, so the segments behind the last free mbuf are not counted;
the copy branch looks at its segments once it has a buffer. -/
structure RoundInside (cfg : Config) (numRefcntArrays : UInt64) (st : State) (request : Addr) :
    Prop where
  checksum : cfg.readIncomingPacket = true → ChecksumInside request (st.heap request)
  divisor : 0 < cfg.numSegments.toNat → (cfg.zeroCopy = false → CopyStarts st) →
    cfg.numTotalSegments ≠ 0
  counts : cfg.zeroCopy = true → cfg.usingRefCounting = true →
    ∀ segment ∈ (requestedSegments cfg st request).take st.mbufMempool.freeList.length,
      CountInside cfg numRefcntArrays segment
  sources : cfg.zeroCopy = false → CopyStarts st → ∀ segment ∈ requestedSegments cfg st request,
    cfg.serverWorkingSet.toNat ≤ (cfg.region segment).toNat ∧
      (cfg.region segment).toNat + cfg.segmentSize.toNat ≤
        cfg.serverWorkingSet.toNat + cfg.workingSetSize.toNat
  copies : cfg.zeroCopy = false → CopyStarts st → ∀ seg < cfg.numSegments.toNat,
    (UInt64.ofNat headerLen + UInt64.ofNat seg * cfg.segmentSize).toNat + cfg.segmentSize.toNat ≤
      dataMbufsSize.toNat

/-- The rounds of the loop over a batch stay inside, as far as it gets. -/
def BuildInside (cfg : Config) (numRefcntArrays : UInt64) : ℕ → List Addr → State → Prop
  | _, [], _ => True
  | pktIdx, request :: requests, st => RoundInside cfg numRefcntArrays st request ∧
      ∀ m st', buildReply cfg pktIdx request st = some (.ok m, st') →
        BuildInside cfg numRefcntArrays (pktIdx + 1) requests st'

/-- `process_server_requests` stays inside until it calls `post_mbufs`. In echo mode it
looks at the headers of its packets only. -/
def PrepareInside (cfg : Config) (numRefcntArrays : UInt64) (requests : List Addr) (st : State) :
    Prop :=
  cfg.echoMode = false → BuildInside cfg numRefcntArrays 0 requests st

/-- What the request, the options and the working set are like for a reply that stays
inside: every count that is asked for was allocated, there is a region to divide by, and
a copied reply fits its buffer. -/
structure ReplyInside (cfg : Config) (numRefcntArrays : UInt64) (st : State) (request : Addr) :
    Prop where
  checksum : cfg.readIncomingPacket = true → ChecksumInside request (st.heap request)
  divisor : 0 < cfg.numSegments.toNat → cfg.numTotalSegments ≠ 0
  counts : cfg.zeroCopy = true → cfg.usingRefCounting = true →
    ∀ segment ∈ requestedSegments cfg st request,
      segment.toNat < numRefcntArrays.toNat * cfg.numTotalSegments.toNat
  fits : cfg.zeroCopy = false → 58 + cfg.numSegments.toNat * cfg.segmentSize.toNat ≤ 16384

/-- The regions of a copied reply fit its buffer exactly when each of them does. -/
theorem copies_fit_iff (hsegments : cfg.numSegments.toNat ≤ maxScatters) :
    (∀ seg < cfg.numSegments.toNat,
      (UInt64.ofNat headerLen + UInt64.ofNat seg * cfg.segmentSize).toNat + cfg.segmentSize.toNat ≤
        dataMbufsSize.toNat) ↔
      58 + cfg.numSegments.toNat * cfg.segmentSize.toNat ≤ 16384 := by
  have hscatters : maxScatters = 32 := rfl
  have hsize : dataMbufsSize.toNat = 16384 := rfl
  have hheader : (UInt64.ofNat headerLen).toNat = 58 := rfl
  -- with small segments no offset wraps around
  have hoffset : ∀ seg < cfg.numSegments.toNat, cfg.segmentSize.toNat ≤ 16384 →
      (UInt64.ofNat headerLen + UInt64.ofNat seg * cfg.segmentSize).toNat =
        58 + seg * cfg.segmentSize.toNat := by
    intro seg hseg hsmall
    have hmul : seg * cfg.segmentSize.toNat ≤ 32 * 16384 := Nat.mul_le_mul (by omega) hsmall
    rw [UInt64.toNat_add, UInt64.toNat_mul, hheader, UInt64.toNat_ofNat',
      Nat.mod_eq_of_lt (a := seg) (by omega), Nat.mod_eq_of_lt (a := _ * _) (by omega),
      Nat.mod_eq_of_lt (by omega)]
  constructor
  · intro h
    rcases Nat.eq_zero_or_pos cfg.numSegments.toNat with hzero | hpos
    · rw [hzero]
      omega
    -- the last region ends where the reply does
    have hlast := h (cfg.numSegments.toNat - 1) (by omega)
    rw [hoffset _ (by omega) (by omega)] at hlast
    have hsucc := Nat.succ_mul (cfg.numSegments.toNat - 1) cfg.segmentSize.toNat
    rw [Nat.succ_eq_add_one, Nat.sub_add_cancel hpos] at hsucc
    omega
  · intro hfits seg hseg
    have hmul : (seg + 1) * cfg.segmentSize.toNat ≤
        cfg.numSegments.toNat * cfg.segmentSize.toNat := Nat.mul_le_mul_right _ hseg
    rw [Nat.succ_mul] at hmul
    rw [hoffset seg hseg (by omega)]
    omega

/-- A reply that stays inside makes its round stay inside, whatever the pools have. -/
theorem ReplyInside.roundInside (h : ReplyInside cfg numRefcntArrays st request)
    (hws : WorkingSetPlaced cfg) (hsegments : cfg.numSegments.toNat ≤ maxScatters) :
    RoundInside cfg numRefcntArrays st request where
  checksum := h.checksum
  divisor := fun hpos _ => h.divisor hpos
  counts := fun hzero hcounting segment hmem =>
    (countInside_iff hws segment).mpr (h.counts hzero hcounting segment (List.mem_of_mem_take hmem))
  sources := by
    intro _ _ segment hmem
    -- a region that is asked for lies in the working set
    have hpos := List.length_pos_of_mem hmem
    rw [length_requestedSegments] at hpos
    have hmapped := hws.mapped (h.divisor hpos)
    have hle := hmapped.region_le segment
    rw [hmapped.region_toNat]
    exact ⟨by omega, by omega⟩
  copies := fun hcopy _ => (copies_fit_iff hsegments).mpr (h.fits hcopy)

/-- **One round stays inside**, when the pools suffice for it, exactly when its request
and the options are as they should be. -/
theorem roundInside_iff (hws : WorkingSetPlaced cfg) (hsegments : cfg.numSegments.toNat ≤ maxScatters)
    (hpools : PoolsSuffice cfg st 1) :
    RoundInside cfg numRefcntArrays st request ↔ ReplyInside cfg numRefcntArrays st request := by
  refine ⟨fun h => ?_, fun h => h.roundInside hws hsegments⟩
  -- enough mbufs for all segments, or an mbuf and a buffer
  have htake : cfg.zeroCopy = true →
      (requestedSegments cfg st request).take st.mbufMempool.freeList.length =
        requestedSegments cfg st request := by
    intro hzero
    rw [PoolsSuffice, if_pos hzero] at hpools
    exact List.take_of_length_le (by rw [length_requestedSegments]; omega)
  have hstarts : cfg.zeroCopy = false → CopyStarts st := by
    intro hcopy
    rw [PoolsSuffice, if_neg (ne_true_of_eq_false hcopy)] at hpools
    exact ⟨List.ne_nil_of_length_pos hpools.1, List.ne_nil_of_length_pos hpools.2⟩
  refine ⟨h.checksum, fun hpos => h.divisor hpos hstarts, fun hzero hcounting segment hmem => ?_,
    fun hcopy => (copies_fit_iff hsegments).mp (h.copies hcopy (hstarts hcopy))⟩
  rw [← htake hzero] at hmem
  exact (countInside_iff hws segment).mp (h.counts hzero hcounting segment hmem)

/-! ## Building a batch -/

/-- A reply stays inside whatever was built before it. -/
theorem ReplyInside.congr (h : ReplyInside cfg numRefcntArrays st request)
    (hheap : st'.heap request = st.heap request) (hmem : cfg.zeroCopy = true → st'.mem = st.mem) :
    ReplyInside cfg numRefcntArrays st' request where
  checksum := by rw [hheap]; exact h.checksum
  divisor := h.divisor
  counts := by
    intro hzero
    rw [requestedSegments, hheap, hmem hzero]
    exact h.counts hzero
  fits := h.fits

/-- Replies that stay inside whatever the state is make every batch stay inside. -/
theorem buildInside_of_forall {pktIdx : ℕ} {requests : List Addr} (hws : WorkingSetPlaced cfg)
    (hsegments : cfg.numSegments.toNat ≤ maxScatters)
    (h : ∀ st request, ReplyInside cfg numRefcntArrays st request) :
    BuildInside cfg numRefcntArrays pktIdx requests st := by
  induction requests generalizing pktIdx st with
  | nil => trivial
  | cons request requests ih => exact ⟨(h st request).roundInside hws hsegments, fun _ _ _ => ih⟩

/-- What building one reply leaves to the later ones. -/
theorem buildReply_leaves {pktIdx : ℕ} {m : Addr} (hnodup : st.mbufMempool.freeList.Nodup)
    (hbuild : buildReply cfg pktIdx request st = some (.ok m, st')) :
    (∀ a ∉ st.mbufMempool.freeList, st'.heap a = st.heap a) ∧
      (cfg.zeroCopy = true → st'.mem = st.mem) ∧
      ∀ a ∈ st'.mbufMempool.freeList, a ∈ st.mbufMempool.freeList := by
  cases hzero : cfg.zeroCopy with
  | true =>
    obtain ⟨nodes, hbuilt⟩ := buildReply_zeroCopyBuilt hzero hnodup hbuild
    refine ⟨fun a ha => hbuilt.frame a fun hmem => ha ?_, fun _ => hbuilt.mem, fun a ha => ?_⟩
    all_goals rw [hbuilt.pool]
    · exact List.mem_append_left _ hmem
    · exact List.mem_append_right _ ha
  | false =>
    have hrun : BuildRun cfg pktIdx [request] st [m] st' := .cons hbuild .nil
    obtain ⟨replies, hbatch, hheads⟩ := hrun.copyMbufs hzero hnodup
    refine ⟨fun a ha => hbatch.frame a fun hmem => ha ?_, by simp, fun a ha => ?_⟩
    all_goals rw [hbatch.pool]
    · exact List.mem_append_left _ hmem
    · exact List.mem_append_right _ ha

/-- **A batch stays inside**, when the pools suffice for it, exactly when all its requests
and the options are as they should be before the batch. -/
theorem buildInside_iff {requests : List Addr} {pktIdx : ℕ} (hws : WorkingSetPlaced cfg)
    (hsegments : cfg.numSegments.toNat ≤ maxScatters) (hnodup : st.mbufMempool.freeList.Nodup)
    (hfresh : ∀ r ∈ requests, r ∉ st.mbufMempool.freeList)
    (hpools : PoolsSuffice cfg st requests.length) :
    BuildInside cfg numRefcntArrays pktIdx requests st ↔
      ∀ request ∈ requests, ReplyInside cfg numRefcntArrays st request := by
  induction requests generalizing pktIdx st with
  | nil => simp [BuildInside]
  | cons request requests ih =>
    have hone : PoolsSuffice cfg st 1 := hpools.one
    obtain ⟨m, st₁, hbuild⟩ := buildReply_isOk hone pktIdx request hnodup
    have hrun : BuildRun cfg pktIdx [request] st [m] st₁ := .cons hbuild .nil
    have hfirst : ∀ r ∈ [request], r ∉ st.mbufMempool.freeList := fun r hr =>
      hfresh r (List.mem_cons.mpr (.inl (List.mem_singleton.mp hr)))
    rw [List.length_cons, Nat.add_comm] at hpools
    obtain ⟨hheap, hmem, hfree⟩ := buildReply_leaves hnodup hbuild
    have hlater : ∀ r ∈ requests, r ∉ st.mbufMempool.freeList := fun r hr =>
      hfresh r (List.mem_cons_of_mem _ hr)
    have hrest := @ih st₁ (pktIdx + 1) (hrun.nodup hnodup hfirst)
      (fun r hr hmem => hlater r hr (hfree r hmem)) (hpools.rest hrun hnodup hfirst)
    -- the later requests ask for the same before and after this round
    have hsame : ∀ r ∈ requests, ReplyInside cfg numRefcntArrays st₁ r ↔
        ReplyInside cfg numRefcntArrays st r := fun r hr =>
      ⟨fun h => h.congr (hheap r (hlater r hr)).symm fun hzero => (hmem hzero).symm,
        fun h => h.congr (hheap r (hlater r hr)) hmem⟩
    rw [BuildInside, roundInside_iff hws hsegments hone, List.forall_mem_cons]
    refine and_congr_right fun _ => ⟨fun h r hr => ?_, fun h m' st' hbuild' => ?_⟩
    · exact (hsame r hr).mp (hrest.mp (h m st₁ hbuild) r hr)
    · rw [hbuild, Option.some.injEq, Prod.mk.injEq] at hbuild'
      obtain ⟨-, rfl⟩ := hbuild'
      exact hrest.mpr fun r hr => (hsame r hr).mpr (h r hr)

/-! ## Releasing what was sent -/

/-- Releasing the chain that starts at `m` changes counts that were allocated. -/
def ReleaseInside (cfg : Config) (numRefcntArrays : UInt64) (heap : Heap) (m : Addr) : Prop :=
  cfg.usingRefCounting = true → (heap m).release = some .zeroCopyTxCompletion →
    ∀ nodes, heap.IsChain (some m) nodes →
      ∀ a ∈ nodes, CountInside cfg numRefcntArrays (heap a).releaseData

/-- What one `mlx5_transmit_one` call passes to `mbuf_free` changes counts that were
allocated. -/
def FreesInside (cfg : Config) (numRefcntArrays : UInt64) (st st' : State) : Prop :=
  ∀ m ∈ (Event.frees st'.trace).drop (Event.frees st.trace).length,
    ReleaseInside cfg numRefcntArrays st.heap m

/-- A chain that is left alone is released as before. -/
theorem ReleaseInside.congr {heap heap' : Heap} {m : Addr} {nodes : List Addr}
    (h : ReleaseInside cfg numRefcntArrays heap m) (hchain : heap.IsChain (some m) nodes)
    (hsame : ∀ a ∈ nodes, heap.SameAt heap' a) : ReleaseInside cfg numRefcntArrays heap' m := by
  intro hcounting hrelease nodes' hchain' a ha
  have hkept : heap'.IsChain (some m) nodes :=
    NullTerminated.IsChain.congr hchain fun a ha => (hsame a ha).next
  obtain rfl := hkept.unique hchain'
  obtain ⟨k, hk⟩ := hsame m hchain.head_mem
  obtain ⟨k', hk'⟩ := hsame a ha
  rw [hk] at hrelease
  rw [hk']
  exact h hcounting hrelease nodes hchain a ha

/-- Sending writes `num_wqes` only, which no release looks at. -/
theorem ReleaseInside.sameButWqes {heap heap' : Heap} {m : Addr}
    (h : ReleaseInside cfg numRefcntArrays heap m) (hsame : heap.SameButWqes heap') :
    ReleaseInside cfg numRefcntArrays heap' m := by
  intro hcounting hrelease nodes hchain a ha
  have hbefore : heap.IsChain (some m) nodes := NullTerminated.IsChain.congr hchain fun a _ => by
    obtain ⟨k, hk⟩ := hsame a
    rw [hk]
  obtain ⟨k, hk⟩ := hsame m
  obtain ⟨k', hk'⟩ := hsame a
  rw [hk] at hrelease
  rw [hk']
  exact h hcounting hrelease nodes hbefore a ha

/-- **The replies to a batch** are released inside when their requests are as they
should be. -/
theorem releaseInside_of_built {fuel : ℕ} {requests heads : List Addr} {m : Addr}
    (hws : WorkingSetPlaced cfg) (hready : BatchReady cfg fuel st requests)
    (hprepare : prepareReplies cfg fuel requests st = some (.ok heads, st'))
    (hinside : cfg.echoMode = false →
      ∀ request ∈ requests, ReplyInside cfg numRefcntArrays st request) (hm : m ∈ heads) :
    ReleaseInside cfg numRefcntArrays st'.heap m := by
  intro hcounting hrelease nodes hchain a ha
  unfold prepareReplies at hprepare
  split at hprepare
  case isTrue hecho =>
    -- a packet that is sent back has another release function
    have hprepared := prepared_echo hready hecho (Option.some.inj hprepare)
    have horigin := hprepared.origin
    rw [if_pos hecho] at horigin
    simp [(hprepared.received m (horigin ▸ hm)).release] at hrelease
  case isFalse hecho =>
    have hecho' : cfg.echoMode = false := by simpa using hecho
    cases hzero : cfg.zeroCopy with
    | true =>
      obtain ⟨replies, hbatch, rfl⟩ :=
        buildReplies_zeroCopyBatch hzero hready.nodup hready.fresh hprepare
      obtain ⟨reply, hreply, rfl⟩ := List.mem_map.mp hm
      obtain ⟨i, hi⟩ := List.mem_iff_getElem?.mp hreply
      have hlt : i < requests.length := by
        rw [hbatch.lists.length_eq]
        exact (List.getElem?_eq_some_iff.mp hi).1
      obtain ⟨m, nodes', hget, hlist⟩ := hbatch.exists_reply (List.getElem?_eq_getElem hlt)
      obtain rfl := Option.some.inj (hi.symm.trans hget)
      obtain rfl := hlist.chain.unique hchain
      -- the mbufs of the list carry the ids that were asked for
      obtain ⟨k, hk, rfl⟩ := List.mem_iff_getElem.mp ha
      have hlt' : k < (requestedSegments cfg st requests[i]).length := by
        rwa [← hlist.holds.length_eq]
      have hholds := hlist.holds.get hk hlt'
      rw [List.get_eq_getElem, List.get_eq_getElem] at hholds
      rw [hholds.releaseData hcounting]
      exact (countInside_iff hws _).mpr
        ((hinside hecho' _ (List.getElem_mem hlt)).counts hzero hcounting _ (List.getElem_mem hlt'))
    | false =>
      -- and so has a copied reply
      obtain ⟨built, hrun, hheads⟩ := buildRun_of_ok hprepare
      rw [List.nil_append] at hheads
      subst hheads
      obtain ⟨replies, hbatch, rfl⟩ := hrun.copyMbufs hzero hready.nodup
      obtain ⟨reply, hreply, rfl⟩ := List.mem_map.mp hm
      simp [hbatch.heap reply hreply, copyMbuf] at hrelease

namespace PostRun

variable {fuel : ℕ}

/-- The chains that wait for a completion or still have to be sent are released inside. -/
def ReleasesInside (cfg : Config) (numRefcntArrays : UInt64) (r : PostRun) : Prop :=
  ∀ m ∈ (Event.outstanding r.run.st.trace).map Send.mbuf ++ (remaining r.ctl).map SendArgs.mbuf,
    ReleaseInside cfg numRefcntArrays r.run.st.heap m

/-- A step that leaves the chains and the ring alone. -/
theorem ReleasesInside.congr {r r' : PostRun} (h : r.ReleasesInside cfg numRefcntArrays)
    (htrace : r'.run.st.trace = r.run.st.trace) (hheap : r'.run.st.heap = r.run.st.heap)
    (hctl : r'.ctl = r.ctl) : r'.ReleasesInside cfg numRefcntArrays := by
  unfold ReleasesInside
  rw [htrace, hheap, hctl]
  exact h

/-- Between two calls, what was posted was freed or is outstanding. -/
theorem posts_eq_frees_append {r : PostRun} (h : Inv fuel r) :
    (Event.posts r.run.st.trace).map Send.mbuf =
      Event.frees r.run.st.trace ++ (Event.outstanding r.run.st.trace).map Send.mbuf := by
  obtain ⟨q, hq, hpending⟩ := h.ring
  obtain ⟨done, hposts, -, hfrees⟩ := hq.run.split
  rw [hpending, List.append_nil] at hfrees
  rw [hposts, List.map_append, hfrees, hq.run.outstanding_eq]

/-- What one send does to the posted and to the outstanding sends. -/
theorem send_effect {st st' : State} {reported ret : ℕ} {c : PostMbufs} {a : SendArgs}
    {batches : List (List SendArgs)} (hinv : Inv fuel ⟨⟨st, reported⟩, some c, batches⟩)
    (ha : c.batch[c.i]? = some a)
    (hcall : mlx5TransmitOne cfg fuel st a.mbuf a.requestHeader a.inlineLen = some (ret, st')) :
    (Event.posts st'.trace = Event.posts st.trace ∨
      ∃ s, s.mbuf = a.mbuf ∧ Event.posts st'.trace = Event.posts st.trace ++ [s]) ∧
    ∀ s ∈ Event.outstanding st'.trace, s ∈ Event.outstanding st.trace ∨ s.mbuf = a.mbuf := by
  obtain ⟨q, hq, hpending⟩ := hinv.ring
  obtain ⟨hlt, rfl⟩ := List.getElem?_eq_some_iff.mp ha
  have hlegal := hinv.legal.legal c.batch[c.i] (by
    simp only [remaining, List.drop_eq_getElem_cons hlt]
    exact List.mem_cons_self ..)
  simp only [hq.run.outstanding_eq] at hlegal
  obtain ⟨ret', st'', q', hcall', hq', -, hcase⟩ := mlx5TransmitOne_outcome cfg hq hpending hlegal
  obtain ⟨rfl, rfl⟩ := Prod.mk.inj (Option.some.inj (hcall.symm.trans hcall'))
  rw [hq'.run.outstanding_eq, hq.run.outstanding_eq]
  -- a full ring posts nothing, and gathering only takes sends away
  rcases hcase with ⟨-, hsame, hsub⟩ | ⟨-, hsent, hsub⟩
  · exact ⟨.inl hsame.posts, fun s hs => .inl (hsub s hs)⟩
  · exact ⟨.inr ⟨_, rfl, hsent.posts⟩, hsub⟩

/-- **What a send frees** was outstanding before it, or is the packet itself. -/
theorem frees_of_send {st st' : State} {reported ret : ℕ} {c : PostMbufs} {a : SendArgs}
    {batches : List (List SendArgs)} (hinv : Inv fuel ⟨⟨st, reported⟩, some c, batches⟩)
    (ha : c.batch[c.i]? = some a)
    (hcall : mlx5TransmitOne cfg fuel st a.mbuf a.requestHeader a.inlineLen = some (ret, st'))
    {m : Addr} (hm : m ∈ (Event.frees st'.trace).drop (Event.frees st.trace).length) :
    m ∈ (Event.outstanding st.trace).map Send.mbuf ∨ m = a.mbuf := by
  have hbefore := posts_eq_frees_append hinv
  have hafter := posts_eq_frees_append (send_inv hinv ha hcall)
  dsimp only at hbefore hafter
  -- behind what was freed before stand the outstanding sends, and the new one
  have hmem : m ∈ ((Event.posts st'.trace).map Send.mbuf).drop (Event.frees st.trace).length := by
    rw [hafter, List.drop_append]
    exact List.mem_append_left _ hm
  rcases (send_effect hinv ha hcall).1 with hposts | ⟨s, hs, hposts⟩
  · rw [hposts, hbefore, List.drop_left] at hmem
    exact .inl hmem
  · rw [hposts, List.map_append, hbefore, List.append_assoc, List.drop_left] at hmem
    rcases List.mem_append.mp hmem with hold | hnew
    · exact .inl hold
    · exact .inr ((List.mem_singleton.mp hnew).trans hs)

/-- **A send stays inside** when the chains that wait or are to be sent do, and leaves
them so. -/
theorem ReleasesInside.send {st st' : State} {reported ret : ℕ} {c : PostMbufs} {a : SendArgs}
    {batches : List (List SendArgs)} (hinv : Inv fuel ⟨⟨st, reported⟩, some c, batches⟩)
    (ha : c.batch[c.i]? = some a)
    (hcall : mlx5TransmitOne cfg fuel st a.mbuf a.requestHeader a.inlineLen = some (ret, st'))
    (h : ReleasesInside cfg numRefcntArrays ⟨⟨st, reported⟩, some c, batches⟩) :
    FreesInside cfg numRefcntArrays st st' ∧
      ReleasesInside cfg numRefcntArrays ⟨⟨st', reported⟩, c.resume ret, batches⟩ := by
  obtain ⟨-, ⟨hok, -⟩, -⟩ := hinv.progress
  -- the packet is the first of those that are to be sent
  have hself : ReleaseInside cfg numRefcntArrays st.heap a.mbuf := by
    obtain ⟨hlt, rfl⟩ := List.getElem?_eq_some_iff.mp ha
    refine h _ (List.mem_append_right _ (List.mem_map_of_mem ?_))
    rw [remaining, List.drop_eq_getElem_cons hlt]
    exact List.mem_cons_self ..
  constructor
  · intro m hm
    rcases frees_of_send hinv ha hcall hm with hold | rfl
    · exact h m (List.mem_append_left _ hold)
    · exact hself
  · intro m hm
    refine ReleaseInside.sameButWqes ?_ (mlx5TransmitOne_sameButWqes hcall)
    rcases List.mem_append.mp hm with hout | hrest
    · obtain ⟨s, hs, rfl⟩ := List.mem_map.mp hout
      rcases (send_effect hinv ha hcall).2 s hs with hold | hnew
      · exact h _ (List.mem_append_left _ (List.mem_map_of_mem hold))
      · rwa [hnew]
    · -- a refused packet is tried again, the later ones wait
      refine h m (List.mem_append_right _ ?_)
      rw [remaining_resume hok] at hrest
      split at hrest
      · obtain ⟨b, hb, rfl⟩ := List.mem_map.mp hrest
        exact List.mem_map_of_mem (List.drop_subset_drop_left _ (Nat.le_succ _) hb)
      · exact hrest

end PostRun

end Mlx5Netperf
