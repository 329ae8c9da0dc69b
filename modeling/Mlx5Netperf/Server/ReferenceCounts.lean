import Mlx5Netperf.Server.LiveChains

/-!
# Reference Counts

The zero-copy server with reference counting over runs: batches of received
packets are answered, the device reports completions at any moment, and the sends
gather them. In every reachable state a count is one plus the number of live mbufs
that were made for its segment.
-/

namespace Mlx5Netperf

open Transition PostRun

namespace RefcntRun

/-! ## Runs -/

/-- The number of virtual segments: those that have a count of their own. -/
def virtualSegments (cfg : Config) (numRefcntArrays : UInt64) : ℕ :=
  numRefcntArrays.toNat * cfg.numTotalSegments.toNat

/-- What the rest of the program may do: it leaves the send ring, the outstanding
chains, the pool of mbufs and the counts alone. -/
structure AppStep (st st' : State) : Prop where
  ring : SendRun.AppStep st st'
  trace : st'.trace = st.trace
  mbufMempool : st'.mbufMempool = st.mbufMempool
  workingSetRefcnts : st'.workingSetRefcnts = st.workingSetRefcnts

/-- A batch of received packets. Their mbufs lie in receive buffers, not in the
pool of mbufs, and none of them is still on its way back. -/
structure ReceivedBatch (pool : List Addr) (st : State) (requests : List Addr) : Prop where
  nodup : requests.Nodup
  received : ∀ r ∈ requests, ReceivedMbuf st.heap r
  not_pool : ∀ r ∈ requests, r ∉ pool
  not_outstanding : ∀ r ∈ requests, r ∉ (Event.outstanding st.trace).map Send.mbuf

/-- One step of the server and the device, with the mbufs of `pool`. -/
inductive Step (cfg : Config) (fuel : ℕ) (numRefcntArrays : UInt64) (pool : List Addr) :
    PostRun → PostRun → Prop where
  /-- The device reports completions. -/
  | nic {run run' : SendRun} {ctl : Option PostMbufs} {batches : List (List SendArgs)}
      (hnic : SendRun.NicStep run run') :
      Step cfg fuel numRefcntArrays pool ⟨run, ctl, batches⟩ ⟨run', ctl, batches⟩
  /-- The rest of the program runs, outside `process_server_requests`. -/
  | app {st st' : State} {reported : ℕ} {batches : List (List SendArgs)} (happ : AppStep st st') :
      Step cfg fuel numRefcntArrays pool ⟨⟨st, reported⟩, none, batches⟩
        ⟨⟨st', reported⟩, none, batches⟩
  /-- `process_server_requests` builds the replies to a batch, of any length, and
  calls `post_mbufs`. -/
  | serve {st st₁ : State} {reported : ℕ} {requests heads : List Addr}
      {batches : List (List SendArgs)} (hreceived : ReceivedBatch pool st requests)
      (hids : ∀ request ∈ requests, ∀ segment ∈ requestedSegments cfg st request,
        segment.toNat < virtualSegments cfg numRefcntArrays)
      (hprepare : prepareReplies cfg fuel requests st = some (.ok heads, st₁)) :
      Step cfg fuel numRefcntArrays pool ⟨⟨st, reported⟩, none, batches⟩
        ⟨⟨st₁, reported⟩, PostMbufs.loop (replyArgs cfg st₁ heads) 0,
          batches ++ [replyArgs cfg st₁ heads]⟩
  /-- The loops of `post_mbufs` send one reply, or are refused. The completions that
  were reported are gathered and released here. -/
  | send {st st' : State} {reported ret : ℕ} {c : PostMbufs} {a : SendArgs}
      {batches : List (List SendArgs)} (ha : c.batch[c.i]? = some a)
      (hcall : mlx5TransmitOne cfg fuel st a.mbuf a.requestHeader a.inlineLen = some (ret, st')) :
      Step cfg fuel numRefcntArrays pool ⟨⟨st, reported⟩, some c, batches⟩
        ⟨⟨st', reported⟩, c.resume ret, batches⟩

/-- The server as it starts: nothing was sent, the counts are those that
`server_init_refcnt_array` made, and the free mbufs are different ones. -/
structure Init (cfg : Config) (numRefcntArrays : UInt64) (r : PostRun) : Prop where
  post : PostRun.Init r
  refcnts : ∀ j i count,
    serverInitRefcntArray numRefcntArrays (cfg.workingSetSize / cfg.segmentSize) j i = some count →
      r.run.st.workingSetRefcnts j i = count
  nodup : r.run.st.mbufMempool.freeList.Nodup
  capacity : r.run.st.mbufMempool.capacity < 2 ^ 64

/-- Each live mbuf is in a chain that is outstanding or still to be sent. -/
structure Inv (cfg : Config) (fuel bound : ℕ) (r₀ r : PostRun) : Prop where
  post : PostRun.Inv fuel r
  live : LiveInChains cfg bound r₀.run.st r.run.st
    ((Event.outstanding r.run.st.trace).map Send.mbuf ++ (remaining r.ctl).map SendArgs.mbuf)

variable {cfg : Config} {fuel bound : ℕ} {numRefcntArrays : UInt64} {r₀ r r' : PostRun}
  {requests heads : List Addr} {st₀ st st₁ : State}

theorem Init.inv (h : Init cfg numRefcntArrays r) : Inv cfg fuel bound r r := by
  have htrace : r.run.st.trace = [] := h.post.run.trace
  constructor
  case post => exact h.post.inv
  case live =>
    have hlive := @LiveInChains.init cfg bound r.run.st htrace
    rw [h.post.ctl, htrace]
    exact hlive

/-! ## The rest of the program -/

/-- Whatever leaves the outstanding chains alone leaves the live mbufs in them alone. -/
theorem sameAt_of_appStep {st' : State}
    (hlive : LiveInChains cfg bound st₀ st ((Event.outstanding st.trace).map Send.mbuf))
    (hchains : ChainsEnd st) (happ : SendRun.AppStep st st') :
    (∀ a ∈ (Event.outstanding st.trace).map Send.mbuf, st.heap.SameAt st'.heap a) ∧
      ∀ a ∈ Event.live st.trace, st.heap.SameAt st'.heap a := by
  constructor
  · intro a ha
    obtain ⟨s, hs, rfl⟩ := List.mem_map.mp ha
    obtain ⟨nodes, hchain⟩ := hchains s hs
    exact .of_eq (happ.heap s hs nodes hchain s.mbuf hchain.head_mem)
  · intro a ha
    obtain ⟨m, hm, nodes, hchain, hmem⟩ := hlive.exists_head ha
    obtain ⟨s, hs, rfl⟩ := List.mem_map.mp hm
    exact .of_eq (happ.heap s hs nodes hchain a hmem)

/-- The rest of the program keeps the live mbufs in the outstanding chains. -/
theorem app_live {st' : State} {reported : ℕ} {batches : List (List SendArgs)}
    (hinv : Inv cfg fuel bound r₀ ⟨⟨st, reported⟩, none, batches⟩) (happ : AppStep st st') :
    LiveInChains cfg bound r₀.run.st st' ((Event.outstanding st'.trace).map Send.mbuf) := by
  have hlive := hinv.live
  simp only [remaining, List.map_nil, List.append_nil] at hlive
  obtain ⟨hheads, hold⟩ := sameAt_of_appStep hlive (chainsEnd_of_inv hinv.post) happ.ring
  rw [happ.trace]
  exact hlive.congr happ.mbufMempool happ.workingSetRefcnts (by rw [happ.trace]) hheads hold

/-! ## Serving a batch -/

/-- **A batch can be processed** where the live mbufs are in the outstanding chains. -/
theorem batchReady (hlive : LiveInChains cfg bound st₀ st ((Event.outstanding st.trace).map Send.mbuf))
    (hnodup : st₀.mbufMempool.freeList.Nodup)
    (hreceived : ReceivedBatch st₀.mbufMempool.freeList st requests)
    (hsegments : cfg.numSegments.toNat ≤ maxScatters) (hfuel : maxScatters ≤ fuel) :
    BatchReady cfg fuel st requests := by
  have hpool : ∀ a ∈ st.mbufMempool.freeList, a ∈ st₀.mbufMempool.freeList :=
    fun a ha => hlive.counts.pool.mem_iff.mp (List.mem_append_right _ ha)
  constructor
  case nodup => exact (List.nodup_append.mp (hlive.counts.nodup hnodup)).2.1
  case fresh => exact fun r hr hfree => hreceived.not_pool r hr (hpool r hfree)
  case requests_nodup => exact hreceived.nodup
  case received => exact hreceived.received
  case segments => exact hsegments
  case fuel => exact hfuel
  -- the outstanding chains are apart from the free mbufs and from the new packets
  case apart =>
    intro s hs nodes hchain a ha
    obtain ⟨owned, hwith, hmem⟩ := hlive.exists_releasedWith (List.mem_map_of_mem hs)
    cases hwith with
    -- live mbufs are of the pool, and none of them is free
    | scatterList _ hchain' =>
      obtain rfl := hchain.unique hchain'
      have hlived := hmem a ha
      exact ⟨hlive.counts.not_free hnodup hlived,
        fun hr => hreceived.not_pool a hr (hlive.counts.mem_pool hlived)⟩
    -- a packet that is sent back is not of the pool
    | packet _ hchain' hapart =>
      obtain rfl := hchain.unique hchain'
      obtain rfl := List.mem_singleton.mp ha
      exact ⟨fun hfree => hapart (hpool s.mbuf hfree),
        fun hr => hreceived.not_outstanding s.mbuf hr (List.mem_map_of_mem hs)⟩

/-- **The replies in zero-copy mode** are new chains of live mbufs. -/
theorem serve_zeroCopy
    (hlive : LiveInChains cfg bound st₀ st ((Event.outstanding st.trace).map Send.mbuf))
    (hready : BatchReady cfg fuel st requests) (hchains : ChainsEnd st)
    (hnodup : st₀.mbufMempool.freeList.Nodup) (hzero : cfg.zeroCopy = true)
    (hcounting : cfg.usingRefCounting = true) (hecho : cfg.echoMode = false)
    (hids : ∀ request ∈ requests, ∀ segment ∈ requestedSegments cfg st request,
      segment.toNat < bound)
    (hbuild : buildReplies cfg fuel requests [] st = some (.ok heads, st₁)) :
    LiveInChains cfg bound st₀ st₁ ((Event.outstanding st.trace).map Send.mbuf ++ heads) := by
  obtain ⟨hheads, hold⟩ := sameAt_of_appStep hlive hchains
    ((prepared_zeroCopy hready hecho hzero hbuild).appStep hready)
  obtain ⟨replies, hbatch, rfl⟩ := buildReplies_zeroCopyBatch hzero hready.nodup hready.fresh hbuild
  rw [List.nil_append]
  have hcreated := Event.live_map_created st.trace (replies.flatMap Prod.snd)
  rw [← hbatch.trace, List.flatMap_def] at hcreated
  refine hlive.extend (hlive.counts.build hcounting hnodup hbatch) hcreated hheads hold ?_ ?_
  -- each reply is a list of its own
  · refine List.forall₂_map_left_iff.mpr (List.forall₂_map_right_iff.mpr ?_)
    refine List.forall₂_same.mpr fun reply hreply => ?_
    obtain ⟨segments, -, hlist⟩ := hbatch.list_of_mem hreply
    exact .scatterList hlist.release hlist.chain
  · intro a ha
    -- a new mbuf holds a segment of one of the requests
    rw [← List.flatMap_def] at ha
    have hmem : (st₁.heap a).releaseData ∈ requests.flatMap (requestedSegments cfg st) := by
      rw [← hbatch.map_releaseData hcounting]
      exact List.mem_map_of_mem ha
    obtain ⟨request, hrequest, hsegment⟩ := List.mem_flatMap.mp hmem
    exact hids request hrequest _ hsegment

/-- **Packets that are sent back** bring no live mbufs. -/
theorem serve_echo
    (hlive : LiveInChains cfg bound st₀ st ((Event.outstanding st.trace).map Send.mbuf))
    (hready : BatchReady cfg fuel st requests) (hchains : ChainsEnd st)
    (hreceived : ReceivedBatch st₀.mbufMempool.freeList st requests) (hecho : cfg.echoMode = true)
    (hbuild : echoRequests cfg requests [] st = (.ok heads, st₁)) :
    LiveInChains cfg bound st₀ st₁ ((Event.outstanding st.trace).map Send.mbuf ++ heads) := by
  have hprepared := prepared_echo hready hecho hbuild
  obtain ⟨hheads, hold⟩ := sameAt_of_appStep hlive hchains (hprepared.appStep hready)
  have hrest := (echoRequests_keeps hbuild).rest
  -- the replies are the received packets themselves
  have hsame : heads = requests := by
    have horigin := hprepared.origin
    rwa [if_pos hecho] at horigin
  have hcounts : CountsLive cfg st₀ st₁ :=
    hlive.counts.congr (by rw [hrest]) (by rw [hrest]) (by rw [hrest]) fun a ha => (hold a ha).heldCell
  have hnone : (heads.map fun _ => ([] : List Addr)).flatten = [] := by simp
  refine hlive.extend hcounts (by rw [hnone, hrest]; exact .refl _) hheads hold ?_ (by simp)
  refine List.forall₂_map_right_iff.mpr (List.forall₂_same.mpr fun m hm => ?_)
  have hrequest : m ∈ requests := hsame ▸ hm
  have hnext : (st₁.heap m).next = none := by
    rw [echoRequests_heap hbuild m hrequest]
    rfl
  exact .packet (hprepared.received m hrequest).release (NullTerminated.isChain_singleton hnext)
    (hreceived.not_pool m hrequest)

/-- **Serving a batch** keeps each live mbuf in a chain: the new ones in those
that `post_mbufs` is about to send. -/
theorem serve_live {reported : ℕ} {batches : List (List SendArgs)}
    (hinv : Inv cfg fuel bound r₀ ⟨⟨st, reported⟩, none, batches⟩)
    (hready : BatchReady cfg fuel st requests)
    (hnodup : r₀.run.st.mbufMempool.freeList.Nodup) (hzero : cfg.zeroCopy = true)
    (hcounting : cfg.usingRefCounting = true)
    (hreceived : ReceivedBatch r₀.run.st.mbufMempool.freeList st requests)
    (hids : ∀ request ∈ requests, ∀ segment ∈ requestedSegments cfg st request,
      segment.toNat < bound)
    (hprepare : prepareReplies cfg fuel requests st = some (.ok heads, st₁)) :
    LiveInChains cfg bound r₀.run.st st₁ ((Event.outstanding st₁.trace).map Send.mbuf ++
      (remaining (PostMbufs.loop (replyArgs cfg st₁ heads) 0)).map SendArgs.mbuf) := by
  have hlive := hinv.live
  simp only [remaining, List.map_nil, List.append_nil] at hlive
  have hchains : ChainsEnd st := chainsEnd_of_inv hinv.post
  have hprepared := prepared_of_prepareReplies hready hprepare
  rw [remaining_loop, map_mbuf_replyArgs, hprepared.outstanding_eq]
  unfold prepareReplies at hprepare
  -- the two branches of `process_server_requests`
  split at hprepare
  case isTrue hecho =>
    exact serve_echo hlive hready hchains hreceived hecho (Option.some.inj hprepare)
  case isFalse hecho =>
    exact serve_zeroCopy hlive hready hchains hnodup hzero hcounting (by simpa using hecho) hids
      hprepare

/-! ## Sending -/

/-- **Sending a reply** moves its chain behind the outstanding ones. -/
theorem send_live {st' : State} {reported ret : ℕ} {c : PostMbufs} {a : SendArgs}
    {batches : List (List SendArgs)}
    (hinv : Inv cfg fuel bound r₀ ⟨⟨st, reported⟩, some c, batches⟩)
    (hcounting : cfg.usingRefCounting = true)
    (hcapacity : r₀.run.st.mbufMempool.capacity < 2 ^ 64) (ha : c.batch[c.i]? = some a)
    (hcall : mlx5TransmitOne cfg fuel st a.mbuf a.requestHeader a.inlineLen = some (ret, st')) :
    LiveInChains cfg bound r₀.run.st st' ((Event.outstanding st'.trace).map Send.mbuf ++
      (remaining (c.resume ret)).map SendArgs.mbuf) := by
  obtain ⟨q, hq, hpending⟩ := hinv.post.ring
  obtain ⟨-, ⟨hok, -⟩, -⟩ := hinv.post.progress
  obtain ⟨hlt, hget⟩ := List.getElem?_eq_some_iff.mp ha
  have hdrop : c.batch.drop c.i = a :: c.batch.drop (c.i + 1) := by
    rw [List.drop_eq_getElem_cons hlt, hget]
  -- the packet that is posted is the first of those that remain
  have hlegal := hinv.post.legal.legal a (by
    simp only [remaining, hdrop]
    exact List.mem_cons_self ..)
  have hlive := hinv.live
  simp only [remaining, hdrop, List.map_cons, hq.run.outstanding_eq] at hlegal hlive
  have hsent := hlive.transmit hcounting hcapacity hq hpending hlegal hcall
  rw [remaining_resume hok]
  -- a refused packet is tried again
  split at hsent
  case isTrue hret => rwa [if_pos hret]
  case isFalse hret => rwa [if_neg hret, hdrop, List.map_cons]

/-! ## The counts -/

/-- A batch that is served can be processed. -/
theorem Inv.batchReady {reported : ℕ} {batches : List (List SendArgs)}
    (hinv : Inv cfg fuel bound r₀ ⟨⟨st, reported⟩, none, batches⟩)
    (hnodup : r₀.run.st.mbufMempool.freeList.Nodup)
    (hreceived : ReceivedBatch r₀.run.st.mbufMempool.freeList st requests)
    (hsegments : cfg.numSegments.toNat ≤ maxScatters) (hfuel : maxScatters ≤ fuel) :
    BatchReady cfg fuel st requests := by
  have hlive := hinv.live
  simp only [remaining, List.map_nil, List.append_nil] at hlive
  exact RefcntRun.batchReady hlive hnodup hreceived hsegments hfuel

/-- **Every step is one of the send ring and `post_mbufs`**: building the replies is
the rest of the program there, and posting them a call. -/
theorem Step.postRun (hinv : Inv cfg fuel bound r₀ r)
    (hnodup : r₀.run.st.mbufMempool.freeList.Nodup)
    (hsegments : cfg.numSegments.toNat ≤ maxScatters) (hfuel : maxScatters ≤ fuel)
    (hstep : Step cfg fuel numRefcntArrays r₀.run.st.mbufMempool.freeList r r') :
    Relation.ReflTransGen (PostRun.Step cfg fuel) r r' := by
  cases hstep with
  | nic hnic => exact .single (.nic hnic)
  | app happ => exact .single (.app happ.ring)
  | serve hreceived hids hprepare =>
    have hready := hinv.batchReady hnodup hreceived hsegments hfuel
    have hprepared := prepared_of_prepareReplies hready hprepare
    -- the replies are built outside the send ring, then `post_mbufs` is called
    refine .head (.app (hprepared.appStep hready)) (.single (.call ?_))
    exact hprepared.legalBatch hready (chainsEnd_of_inv hinv.post)
  | send ha hcall => exact .single (.send ha hcall)

/-- Any number of steps of the send ring and `post_mbufs` keeps their invariant. -/
theorem inv_postRun_steps (hinv : PostRun.Inv fuel r)
    (hsteps : Relation.ReflTransGen (PostRun.Step cfg fuel) r r') : PostRun.Inv fuel r' := by
  induction hsteps with
  | refl => exact hinv
  | tail _ hstep ih => exact hstep.inv ih

/-- Every step keeps the invariant. -/
theorem Step.inv (hinv : Inv cfg fuel (virtualSegments cfg numRefcntArrays) r₀ r)
    (hinit : Init cfg numRefcntArrays r₀) (hzero : cfg.zeroCopy = true)
    (hcounting : cfg.usingRefCounting = true) (hsegments : cfg.numSegments.toNat ≤ maxScatters)
    (hfuel : maxScatters ≤ fuel)
    (hstep : Step cfg fuel numRefcntArrays r₀.run.st.mbufMempool.freeList r r') :
    Inv cfg fuel (virtualSegments cfg numRefcntArrays) r₀ r' := by
  have hsteps := hstep.postRun hinv hinit.nodup hsegments hfuel
  refine ⟨inv_postRun_steps hinv.post hsteps, ?_⟩
  cases hstep with
  | nic hnic =>
    -- the device writes completion entries and nothing else
    cases hnic
    exact hinv.live.congr rfl rfl rfl (fun _ _ => .of_eq rfl) fun _ _ => .of_eq rfl
  | app happ =>
    rw [remaining, List.map_nil, List.append_nil]
    exact app_live hinv happ
  | serve hreceived hids hprepare =>
    have hready := hinv.batchReady hinit.nodup hreceived hsegments hfuel
    exact serve_live hinv hready hinit.nodup hzero hcounting hreceived hids hprepare
  | send ha hcall => exact send_live hinv hcounting hinit.capacity ha hcall

theorem Inv.of_reachable (hzero : cfg.zeroCopy = true) (hcounting : cfg.usingRefCounting = true)
    (hsegments : cfg.numSegments.toNat ≤ maxScatters) (hfuel : maxScatters ≤ fuel)
    (hinit : Init cfg numRefcntArrays r₀)
    (h : Reachable (fun s => s = r₀)
      (Step cfg fuel numRefcntArrays r₀.run.st.mbufMempool.freeList) r) :
    Inv cfg fuel (virtualSegments cfg numRefcntArrays) r₀ r := by
  refine Reachable.invariant (P := Inv cfg fuel (virtualSegments cfg numRefcntArrays) r₀) ?_ ?_ h
  · intro s hs
    rw [hs]
    exact hinit.inv
  · exact fun _ _ hinv hstep => hstep.inv hinv hinit hzero hcounting hsegments hfuel

/-- Different segments have different cells. -/
theorem refcntCell_inj {v w : UInt64} : refcntCell cfg v = refcntCell cfg w ↔ v = w := by
  constructor
  · intro h
    obtain ⟨harray, hoffset⟩ := Prod.mk.inj h
    rw [UInt64.toNat_div, UInt64.toNat_div] at harray
    rw [UInt64.toNat_mod, UInt64.toNat_mod] at hoffset
    -- array and offset are the quotient and the remainder of the id
    apply UInt64.toNat_inj.mp
    rw [← Nat.div_add_mod v.toNat cfg.numTotalSegments.toNat, harray, hoffset, Nat.div_add_mod]
  · intro h
    rw [h]

/-- The mbufs that hold the cell of a segment are those that were made for it. -/
theorem count_heldCell (heap : Heap) (nodes : List Addr) (v : UInt64) :
    (nodes.map (heldCell cfg heap)).count (refcntCell cfg v) =
      nodes.countP fun a => (heap a).releaseData = v := by
  rw [List.count_eq_countP, List.countP_map]
  refine List.countP_congr fun a _ => ?_
  simp [heldCell, refcntCell_inj]

/-- Every count starts at one. -/
theorem Init.refcnt_eq_one (h : Init cfg numRefcntArrays r₀) (hws : WorkingSetMapped cfg)
    {v : UInt64} (hv : v.toNat < virtualSegments cfg numRefcntArrays) :
    r₀.run.st.workingSetRefcnts (refcntCell cfg v).1 (refcntCell cfg v).2 = 1 := by
  have hcell := (allocatedCell_iff hws v).mpr hv
  unfold AllocatedCell serverInitRefcntArray at hcell
  refine h.refcnts _ _ 1 ?_
  unfold serverInitRefcntArray
  split at hcell
  case isTrue hinside => rw [if_pos hinside]
  case isFalse => simp at hcell

/-- The count of every virtual segment is one plus the number of live mbufs that
were made for it; all other memory behind `working_set_refcnts` is as it was; and
when no send is on its way every count is back to one. -/
structure CountsReferences (cfg : Config) (numRefcntArrays : UInt64) (r₀ r : PostRun) : Prop where
  counts : ∀ v : UInt64, v.toNat < virtualSegments cfg numRefcntArrays →
    r.run.st.workingSetRefcnts (v / cfg.numTotalSegments).toNat (v % cfg.numTotalSegments).toNat =
      1 + UInt16.ofNat ((Event.live r.run.st.trace).countP fun a => (r.run.st.heap a).releaseData = v)
  others : ∀ j i, (∀ v : UInt64, v.toNat < virtualSegments cfg numRefcntArrays →
      (j, i) ≠ ((v / cfg.numTotalSegments).toNat, (v % cfg.numTotalSegments).toNat)) →
    r.run.st.workingSetRefcnts j i = r₀.run.st.workingSetRefcnts j i
  idle : r.ctl = none → Event.outstanding r.run.st.trace = [] →
    ∀ v : UInt64, v.toNat < virtualSegments cfg numRefcntArrays →
      r.run.st.workingSetRefcnts (v / cfg.numTotalSegments).toNat
        (v % cfg.numTotalSegments).toNat = 1

/-- Without a chain on its way no mbuf is live. -/
theorem Inv.live_eq_nil (h : Inv cfg fuel bound r₀ r) (hctl : r.ctl = none)
    (hout : Event.outstanding r.run.st.trace = []) : Event.live r.run.st.trace = [] := by
  have hlive := h.live
  rw [hctl, hout] at hlive
  refine List.eq_nil_iff_forall_not_mem.mpr fun a ha => ?_
  obtain ⟨m, hm, -⟩ := hlive.exists_head ha
  exact absurd hm List.not_mem_nil

/-- **Reference counts equal live references**, in every reachable state. -/
theorem refcnts_equal_live (hzero : cfg.zeroCopy = true) (hcounting : cfg.usingRefCounting = true)
    (hws : WorkingSetMapped cfg) (hsegments : cfg.numSegments.toNat ≤ maxScatters)
    (hfuel : maxScatters ≤ fuel) (hinit : Init cfg numRefcntArrays r₀)
    (h : Reachable (fun s => s = r₀)
      (Step cfg fuel numRefcntArrays r₀.run.st.mbufMempool.freeList) r) :
    CountsReferences cfg numRefcntArrays r₀ r := by
  have hinv := Inv.of_reachable hzero hcounting hsegments hfuel hinit h
  have hcounts : ∀ v : UInt64, v.toNat < virtualSegments cfg numRefcntArrays →
      r.run.st.workingSetRefcnts (refcntCell cfg v).1 (refcntCell cfg v).2 =
        1 + UInt16.ofNat
          ((Event.live r.run.st.trace).countP fun a => (r.run.st.heap a).releaseData = v) := by
    intro v hv
    rw [hinv.live.counts.counts, hinit.refcnt_eq_one hws hv, count_heldCell]
  constructor
  case counts => exact hcounts
  case others =>
    intro j i hcell
    -- the cells of the live mbufs are those of virtual segments
    have hnone : ((Event.live r.run.st.trace).map (heldCell cfg r.run.st.heap)).count (j, i) = 0 := by
      refine List.count_eq_zero.mpr fun hmem => ?_
      obtain ⟨a, ha, hheld⟩ := List.mem_map.mp hmem
      exact hcell _ (hinv.live.ids a ha) hheld.symm
    have hcount := hinv.live.counts.counts (j, i)
    rw [hnone] at hcount
    exact hcount.trans (UInt16.add_zero _)
  case idle =>
    intro hctl hout v hv
    -- without a chain on its way nothing is added to the one
    have hcount := hcounts v hv
    rw [hinv.live_eq_nil hctl hout] at hcount
    exact hcount

/-- The server with four free mbufs, its counts at one and a send ring of two blocks. -/
def freshCounts : State :=
  { receivedState 4 with
    txq := Mlx5Txq.zeroed 0x10000 2
    workingSetRefcnts := fun _ _ => 1 }

theorem freeList_freshCounts :
    freshCounts.mbufMempool.freeList = [0x100000, 0x100001, 0x100002, 0x100003] := by
  decide

/-- Before its first batch. -/
def freshRun : PostRun := ⟨⟨freshCounts, 0⟩, none, []⟩

theorem init_freshRun : Init refCountingServer 1 freshRun where
  post :=
    { run :=
        { size := ⟨1, by decide, rfl⟩
          sqHead := rfl
          cqHead := rfl
          trueCqHead := rfl
          trace := rfl
          reported := rfl
          reports := (by decide +kernel : (Cq.deviceOwned 128).Reports mlx5CqeReq 0 []) }
      ctl := rfl
      batches := rfl }
  refcnts := by
    intro j i count hcount
    unfold serverInitRefcntArray at hcount
    split at hcount
    case isTrue => exact Option.some.inj hcount
    case isFalse => simp at hcount
  nodup := by
    rw [show freshRun.run.st = freshCounts from rfl, freeList_freshCounts]
    simp
  capacity := by decide

/-- The completion queue once the device has reported the first send. -/
def firstReported : Cq :=
  { freshCounts.txq.txCq with
    buf := Function.update freshCounts.txq.txCq.buf 0 ⟨0, 0, 0, 0, 0⟩ }

/-- A packet at `0x5000` that asks for region 0. -/
structure AsksForZero (st : State) : Prop where
  received : ReceivedMbuf st.heap 0x5000
  fresh : (0x5000 : Addr) ∉ (Event.outstanding st.trace).map Send.mbuf
  segments : requestedSegments refCountingServer st 0x5000 = [0]

/-- It is served: its reply is built and sent. -/
def serveZero (st : State) : Option State :=
  match prepareReplies refCountingServer 32 [0x5000] st with
  | some (.ok [m], st₁) =>
    match mlx5TransmitOne refCountingServer 32 st₁ m (requestHeaderPtr refCountingServer st₁ 0)
      (inlineLength refCountingServer) with
    | some (1, st') => some st'
    | _ => none
  | _ => none

theorem serveZero_reachable {st' : State} {reported : ℕ} {batches : List (List SendArgs)}
    (h : Reachable (fun s => s = freshRun)
      (Step refCountingServer 32 1 freshCounts.mbufMempool.freeList) ⟨⟨st, reported⟩, none, batches⟩)
    (hasks : AsksForZero st) (hserve : serveZero st = some st') :
    ∃ batches', Reachable (fun s => s = freshRun)
      (Step refCountingServer 32 1 freshCounts.mbufMempool.freeList)
      ⟨⟨st', reported⟩, none, batches'⟩ := by
  have hreceived : ReceivedBatch freshCounts.mbufMempool.freeList st [0x5000] := by
    rw [freeList_freshCounts]
    exact ⟨List.nodup_singleton _, by simpa using hasks.received, by simp,
      by simpa using hasks.fresh⟩
  have hids : ∀ request ∈ [(0x5000 : Addr)], ∀ segment ∈ requestedSegments refCountingServer st request,
      segment.toNat < virtualSegments refCountingServer 1 := by
    intro request hrequest segment hsegment
    rw [List.mem_singleton.mp hrequest, hasks.segments] at hsegment
    rw [List.mem_singleton.mp hsegment]
    decide
  unfold serveZero at hserve
  split at hserve
  case h_1 m st₁ hprepare =>
    split at hserve
    case h_1 hcall =>
      obtain rfl := Option.some.inj hserve
      have hargs : replyArgs refCountingServer st₁ [m] = [⟨m, requestHeaderPtr refCountingServer st₁ 0,
          inlineLength refCountingServer⟩] := rfl
      have hserved := h.step (.serve hreceived hids hprepare)
      rw [hargs] at hserved
      -- the loops send the one reply and end
      have hsent := hserved.step (.send rfl hcall)
      exact ⟨_, hsent⟩
    case h_2 => simp at hserve
  case h_2 => simp at hserve

/-- The counts when the reply to a second request was sent and that to the first one is
completed and released. -/
theorem refcnts_equal_live_secondRequest :
    ∃ r : PostRun, Event.frees r.run.st.trace = [0x100000] ∧
      Event.live r.run.st.trace = [0x100001] ∧
      CountsReferences refCountingServer 1 freshRun r := by
  have hruns : (serveZero freshCounts).bind (fun st =>
      (serveZero { st with txq := { st.txq with txCq := firstReported } }).map fun st' =>
        ([decide ((Event.posts st.trace).length = 1), decide (Event.gathers st.trace = []),
          decide (firstReported.Reports mlx5CqeReq st.txq.cqHead
            ((Event.outstanding st.trace).map Send.wqeCounter)),
          decide ((st.heap 0x5000).head = 0x5000),
          decide ((st.heap 0x5000).release = some .rxCompletion),
          decide ((0x5000 : Addr) ∉ (Event.outstanding st.trace).map Send.mbuf)],
          requestedSegments refCountingServer st 0x5000, Event.frees st'.trace, Event.live st'.trace)) =
        some ([true, true, true, true, true, true], [0], [0x100000], [0x100001]) := by
    decide +kernel
  obtain ⟨st₁, hfirst, hrest⟩ := Option.bind_eq_some_iff.mp hruns
  obtain ⟨st₂, hsecond, heq⟩ := Option.map_eq_some_iff.mp hrest
  simp only [Prod.mk.injEq, List.cons.injEq, decide_eq_true_eq, and_true] at heq
  obtain ⟨⟨hposts, hgathers, hreports, hhead, hrelease, hfresh⟩, hsegments, hfrees, hlive⟩ := heq
  have hasks : AsksForZero freshCounts := ⟨⟨rfl, rfl⟩, by decide, by decide +kernel⟩
  obtain ⟨batches₁, hreach₁⟩ := serveZero_reachable (.init rfl) hasks hfirst
  have hnic : SendRun.NicStep ⟨st₁, 0⟩ ⟨{ st₁ with txq := { st₁.txq with txCq := firstReported } }, 1⟩ := by
    refine .report (Nat.zero_le 1) hposts.ge ?_
    have htake : (Event.outstanding st₁.trace).take (1 - (Event.gathers st₁.trace).length) =
        Event.outstanding st₁.trace := by
      refine List.take_of_length_le ?_
      simp [Event.outstanding, hposts, hgathers]
    rw [htake]
    exact hreports
  obtain ⟨batches₂, hreach₂⟩ := serveZero_reachable (hreach₁.step (.nic hnic))
    ⟨⟨hhead, hrelease⟩, hfresh, hsegments⟩ hsecond
  exact ⟨_, hfrees, hlive, refcnts_equal_live rfl rfl workingSetMapped_refCountingServer (by decide)
    le_rfl init_freshRun hreach₂⟩

end RefcntRun

end Mlx5Netperf
