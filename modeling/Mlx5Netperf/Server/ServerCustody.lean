import Mlx5Netperf.Server.WholeServer

/-!
# Custody of the Whole Server

In every state that the server reaches, in every mode, each item of the three pools
is in one place: free, posted in the receive ring, held by a chain that is outstanding
or still to be sent, or in the hands of `do_server`.
-/

namespace Mlx5Netperf

open Transition PostRun SendFifo

/-! ## Building replies -/

section Serving

variable {cfg : Config} {fuel : ℕ} {I : Holding} {st st₁ : State} {taken received : ℕ}
  {own others requests heads : List Addr}

/-- A packet that is not free is none of the free mbufs. -/
theorem HeldBy.packet_not_free {hs : List Holding} {m : Addr}
    (h : HeldBy I st taken received own hs) (hI : I.Distinct)
    (hm : m ∈ own ++ hs.flatMap Holding.packets) : m ∉ st.mbufMempool.freeList := by
  obtain ⟨ring, counters, hinv⟩ := h.packets
  have hpacket : m ∈ I.packets := hinv.conserved.mem_iff.mp (List.mem_append_right _ hm)
  exact fun hfree => hI.apart m (h.mbufs.free_mem_items hfree) hpacket

/-- **A batch can be processed** when its packets are with the program. -/
theorem ChainsHold.batchReady
    (h : ChainsHold cfg I taken received (requests ++ others) [] st) (hI : I.Distinct)
    (hsegments : cfg.numSegments.toNat ≤ maxScatters) (hfuel : maxScatters ≤ fuel) :
    BatchReady cfg fuel st requests := by
  obtain ⟨hs, hheld, hchains⟩ := h.exists_heldBy
  obtain ⟨ring, counters, hinv⟩ := hheld.packets
  have hhands : ∀ r ∈ requests, r ∈ requests ++ others ++ hs.flatMap Holding.packets :=
    fun r hr => List.mem_append_left _ (List.mem_append_left _ hr)
  constructor
  case nodup => exact (List.nodup_append.mp (hheld.mbufs.perm.nodup_iff.mpr hI.mbufs)).1
  case fresh => exact fun r hr => hheld.packet_not_free hI (hhands r hr)
  case requests_nodup =>
    have hnodup := (List.nodup_append.mp (hinv.conserved.nodup_iff.mpr hI.packets)).2.1
    exact (List.nodup_append.mp (List.nodup_append.mp hnodup).1).1
  case received => exact fun r hr => hinv.hands r (hhands r hr)
  case segments => exact hsegments
  case fuel => exact hfuel
  case apart =>
    intro s hsend nodes hchain a ha
    -- the chain of an outstanding send is one of the holdings
    obtain ⟨x, hx, rfl⟩ := hchains s hsend nodes hchain
    obtain ⟨hfree, hown, -⟩ := hheld.apart hI hx ha
    exact ⟨hfree, fun hmem => hown (List.mem_append_left _ hmem)⟩

/-- **Replies that are built** are new chains, whatever they are made of. -/
theorem ChainsHold.serve (h : ChainsHold cfg I taken received (requests ++ others) [] st)
    (hI : I.Distinct) (hprepared : Prepared cfg requests st heads st₁) {new : List Holding}
    (hrxq : st₁.rxq = st.rxq) (hrx : st₁.rxBufMempool = st.rxBufMempool)
    (hmbufs : ∀ out, st.mbufMempool.HandedOut I.mbufs out →
      st₁.mbufMempool.HandedOut I.mbufs (new.flatMap Holding.mbufs ++ out))
    (hbuffers : ∀ out, st.txBufMempool.HandedOut I.buffers out →
      st₁.txBufMempool.HandedOut I.buffers (new.flatMap Holding.buffers ++ out))
    (hown : (requests ++ others).Perm (own ++ new.flatMap Holding.packets))
    (hnew : List.Forall₂ (Holds cfg st₁.heap) heads new) :
    ChainsHold cfg I taken received own heads st₁ := by
  refine h.extend hprepared.outstanding_eq (fun hs hheld => ⟨⟨?_, ?_, ?_⟩, ?_⟩) hnew
  · rw [List.flatMap_append]
    exact (hmbufs _ hheld.mbufs).congr List.perm_append_comm
  · rw [List.flatMap_append]
    exact (hbuffers _ hheld.buffers).congr List.perm_append_comm
  · obtain ⟨ring, counters, hinv⟩ := hheld.packets
    refine ⟨ring, counters, hinv.congr hrxq hrx ?_ fun m hm hreceived => ?_⟩
    · -- the packets that are sent back were with the program
      rw [List.flatMap_append]
      refine (hown.append_right _).trans ?_
      rw [List.append_assoc]
      exact List.perm_append_comm.append_left _
    · by_cases hrequest : m ∈ requests
      · exact hprepared.received m hrequest
      · have hsame := hprepared.frame m (hheld.packet_not_free hI hm) hrequest
        exact ⟨by rw [hsame, hreceived.head], by rw [hsame, hreceived.release]⟩
  · intro x hx a ha
    obtain ⟨hfree, hown, -⟩ := hheld.apart hI hx ha
    exact hprepared.frame a hfree fun hmem => hown (List.mem_append_left _ hmem)

/-- Chains of a kind that holds nothing of some pool. -/
theorem flatMap_map_eq_nil {α β γ : Type} {f : α → β} {g : β → List γ} (h : ∀ a, g (f a) = [])
    (l : List α) : (l.map f).flatMap g = [] := by
  rw [List.flatMap_map, List.flatMap_eq_nil_iff]
  exact fun a _ => h a

/-- **Zero-copy replies** hold the mbufs that they were made of. -/
theorem ChainsHold.serve_zeroCopy (h : ChainsHold cfg I taken received (requests ++ others) [] st)
    (hI : I.Distinct) (hready : BatchReady cfg fuel st requests) (hecho : cfg.echoMode = false)
    (hzero : cfg.zeroCopy = true)
    (hbuild : buildReplies cfg fuel requests [] st = some (.ok heads, st₁)) :
    ChainsHold cfg I taken received (requests ++ others) heads st₁ := by
  have hprepared := prepared_zeroCopy hready hecho hzero hbuild
  obtain ⟨replies, hbatch, rfl⟩ := buildReplies_zeroCopyBatch hzero hready.nodup hready.fresh hbuild
  let new : List Holding := replies.map fun reply => ⟨reply.2, [], []⟩
  have hmbufs : new.flatMap Holding.mbufs = replies.flatMap Prod.snd := List.flatMap_map ..
  have hbuffers : new.flatMap Holding.buffers = [] := flatMap_map_eq_nil (fun _ => rfl) _
  have hpackets : new.flatMap Holding.packets = [] := flatMap_map_eq_nil (fun _ => rfl) _
  have hnew : List.Forall₂ (Holds cfg st₁.heap) (replies.map Prod.fst) new := by
    refine List.forall₂_map_left_iff.mpr (List.forall₂_map_right_iff.mpr ?_)
    refine List.forall₂_same.mpr fun reply hreply => ?_
    obtain ⟨segments, -, hlist⟩ := hbatch.list_of_mem hreply
    exact .scatterList hecho hzero hlist.release hlist.chain
  refine h.serve hI hprepared hbatch.rxq hbatch.rxBufMempool (fun out hout => ?_)
    (fun out hout => ?_) (by rw [hpackets, List.append_nil]) hnew
  · rw [hmbufs]
    exact hout.take hbatch.pool hbatch.capacity hbatch.allocated
  · rwa [hbuffers, List.nil_append, hbatch.txBufMempool]

/-- **Copied replies** hold an mbuf and a buffer each. -/
theorem ChainsHold.serve_copy (h : ChainsHold cfg I taken received (requests ++ others) [] st)
    (hI : I.Distinct) (hready : BatchReady cfg fuel st requests) (hecho : cfg.echoMode = false)
    (hzero : cfg.zeroCopy = false)
    (hbuild : buildReplies cfg fuel requests [] st = some (.ok heads, st₁)) :
    ChainsHold cfg I taken received (requests ++ others) heads st₁ := by
  have hprepared := prepared_copy hready hecho hzero hbuild
  obtain ⟨built, hrun, hheads⟩ := buildRun_of_ok hbuild
  rw [List.nil_append] at hheads
  subst hheads
  obtain ⟨replies, hbatch, rfl⟩ := hrun.copyMbufs hzero hready.nodup
  let new : List Holding := replies.map fun reply => ⟨[reply.1], [reply.2], []⟩
  have hmbufs : new.flatMap Holding.mbufs = replies.map Prod.fst := by
    simp [new, List.flatMap_map, ← List.map_eq_flatMap]
  have hbuffers : new.flatMap Holding.buffers = replies.map Prod.snd := by
    simp [new, List.flatMap_map, ← List.map_eq_flatMap]
  have hpackets : new.flatMap Holding.packets = [] := flatMap_map_eq_nil (fun _ => rfl) _
  have hnew : List.Forall₂ (Holds cfg st₁.heap) (replies.map Prod.fst) new := by
    refine List.forall₂_map_left_iff.mpr (List.forall₂_map_right_iff.mpr ?_)
    refine List.forall₂_same.mpr fun reply hreply => ?_
    -- the mbuf as its last assignments left it
    have hself := hbatch.heap reply hreply
    exact .copied hecho hzero (by rw [hself]; rfl) (by rw [hself]; rfl) (by rw [hself]; rfl)
  refine h.serve hI hprepared hbatch.rxq hbatch.rxBufMempool (fun out hout => ?_)
    (fun out hout => ?_) (by rw [hpackets, List.append_nil]) hnew
  · rw [hmbufs]
    exact hout.take hbatch.pool hbatch.capacity (by rw [List.length_map, hbatch.allocated])
  · rw [hbuffers]
    exact hout.take hbatch.buffers hbatch.txCapacity (by rw [List.length_map, hbatch.txAllocated])

/-- **Packets that are sent back** hold themselves. -/
theorem ChainsHold.serve_echo (h : ChainsHold cfg I taken received (requests ++ others) [] st)
    (hI : I.Distinct) (hready : BatchReady cfg fuel st requests) (hecho : cfg.echoMode = true)
    (hbuild : echoRequests cfg requests [] st = (.ok heads, st₁)) :
    ChainsHold cfg I taken received others heads st₁ := by
  have hprepared := prepared_echo hready hecho hbuild
  have hrest := (echoRequests_keeps hbuild).rest
  have hsame : heads = requests := by
    have horigin := hprepared.origin
    rwa [if_pos hecho] at horigin
  subst hsame
  let new : List Holding := heads.map fun m => ⟨[], [], [m]⟩
  have hmbufs : new.flatMap Holding.mbufs = [] := flatMap_map_eq_nil (fun _ => rfl) _
  have hbuffers : new.flatMap Holding.buffers = [] := flatMap_map_eq_nil (fun _ => rfl) _
  have hpackets : new.flatMap Holding.packets = heads := by simp [new, List.flatMap_map]
  have hnew : List.Forall₂ (Holds cfg st₁.heap) heads new := by
    refine List.forall₂_map_right_iff.mpr (List.forall₂_same.mpr fun m hm => ?_)
    have hreceived := hprepared.received m hm
    have hnext : (st₁.heap m).next = none := by
      rw [echoRequests_heap hbuild m hm]
      rfl
    exact .packet hecho hreceived.release hnext hreceived.head
  refine h.serve hI hprepared (by rw [hrest]) (by rw [hrest]) (fun out hout => ?_)
    (fun out hout => ?_) (by rw [hpackets]; exact List.perm_append_comm) hnew
  · rwa [hmbufs, List.nil_append, hrest]
  · rwa [hbuffers, List.nil_append, hrest]

/-- **A batch whose replies are built**, in every mode. -/
theorem ChainsHold.prepareReplies
    (h : ChainsHold cfg I taken received (requests ++ others) [] st) (hI : I.Distinct)
    (hready : BatchReady cfg fuel st requests)
    (hprepare : prepareReplies cfg fuel requests st = some (.ok heads, st₁)) :
    ChainsHold cfg I taken received ((if cfg.echoMode then [] else requests) ++ others) heads st₁ := by
  unfold Mlx5Netperf.prepareReplies at hprepare
  split at hprepare
  case isTrue hecho =>
    rw [if_pos hecho]
    exact h.serve_echo hI hready hecho (Option.some.inj hprepare)
  case isFalse hecho =>
    rw [if_neg hecho]
    have hecho' : cfg.echoMode = false := by simpa using hecho
    cases hzero : cfg.zeroCopy with
    | true => exact h.serve_zeroCopy hI hready hecho' hzero hprepare
    | false => exact h.serve_copy hI hready hecho' hzero hprepare

end Serving

/-! ## Receiving and cleaning up -/

section Packets

variable {cfg : Config} {fuel budget : ℕ} {I : Holding} {st st' : State} {taken received : ℕ}
  {own heads ms batch : List Addr} {hs : List Holding} {ret : Int32}

/-- The packets of a call come into the hands of the program. -/
theorem HeldBy.gather (h : HeldBy I st taken received own hs)
    (hcall : mlx5GatherRx st budget = some (ms, st')) :
    HeldBy I st' (taken + ms.length) received (ms ++ own) hs := by
  have hkeeps := mlx5GatherRx_keeps hcall
  obtain ⟨ring, counters, hinv⟩ := h.packets
  obtain ⟨ring', counters', hinv'⟩ := RxRun.inv_gather hcall hinv
  refine ⟨by rw [hkeeps.mbufMempool]; exact h.mbufs, by rw [hkeeps.txBufMempool]; exact h.buffers,
    ring', counters', hinv'.congr rfl rfl ?_ fun _ _ hreceived => hreceived⟩
  rw [List.append_assoc ms]
  exact List.perm_append_comm

/-- **A call of `mlx5_gather_rx`** leaves the chains alone. -/
theorem ChainsHold.gather (h : ChainsHold cfg I taken received own heads st) (hI : I.Distinct)
    (hcall : mlx5GatherRx st budget = some (ms, st')) :
    ChainsHold cfg I (taken + ms.length) received (ms ++ own) heads st' ∧
      SendRun.AppStep st st' := by
  have hkeeps := mlx5GatherRx_keeps hcall
  have hsame : ∀ hs, HeldBy I st taken received own hs →
      ∀ x ∈ hs, ∀ a ∈ x.mbufs ++ x.packets, st'.heap a = st.heap a := by
    intro hs hheld x hx a ha
    refine hkeeps.heap a fun htouched => ?_
    -- neither one of the packets nor a buffer that was posted
    rcases htouched with hms | hfree
    · exact ((hheld.gather hcall).apart hI hx ha).2.1 (List.mem_append_left _ hms)
    · exact (hheld.apart hI hx ha).2.2 hfree
  constructor
  · exact h.congr (by rw [hkeeps.trace]) fun hs hheld => ⟨hheld.gather hcall, hsame hs hheld⟩
  · exact h.appStep hkeeps.txq hkeeps.trace hsame

/-- Freeing packets that the program has. -/
theorem HeldBy.freeAll (h : HeldBy I st taken received (ms ++ own) hs)
    (hfree : (ms.map some).foldlM (mbufFree cfg fuel) st = some st') :
    HeldBy I st' taken received own hs ∧ st'.heap = st.heap ∧ st'.txq = st.txq := by
  induction ms generalizing st with
  | nil =>
    obtain rfl := Option.some.inj hfree
    exact ⟨h, rfl, rfl⟩
  | cons m ms ih =>
    rw [List.map_cons, List.foldlM_cons] at hfree
    obtain ⟨st₁, hfirst, hrest⟩ := Option.bind_eq_some_iff.mp hfree
    obtain ⟨tail, hreleased⟩ := mbufFree_released hfirst
    have hheld := h.freeOwn (List.mem_cons_self ..) hfirst
    rw [List.cons_append, List.erase_cons_head] at hheld
    obtain ⟨hall, hheap, htxq⟩ := ih hheld hrest
    exact ⟨hall, hheap.trans hreleased.keeps.heap, htxq.trans hreleased.keeps.txq⟩

/-- Outside echo mode a batch that failed is cleaned up twice, the second time
through entries that were nulled. -/
theorem cleanupBatch_eq_none (hne : batch ≠ []) (hret : ret ≠ 0) (st : State) :
    cleanupBatch (mbufFree cfg fuel) false ret batch st = none := by
  obtain ⟨m, ms, rfl⟩ := List.exists_cons_of_ne_nil hne
  have hnull : ∀ st : State,
      ((m :: ms).map fun _ => (none : Option Addr)).foldlM (mbufFree cfg fuel) st = none :=
    fun _ => rfl
  simp only [cleanupBatch, hret, ne_eq, not_false_eq_true, if_true, Bool.false_eq_true, if_false,
    hnull]
  simp

/-- **The cleanup behind a batch** that gets through: the packets are freed, unless
they were sent back. -/
theorem HeldBy.cleanup
    (h : HeldBy I st taken received
      ((if cfg.echoMode = true ∧ ret = 0 then [] else batch) ++ own) hs) (hne : batch ≠ [])
    (hclean : cleanupBatch (mbufFree cfg fuel) cfg.echoMode ret batch st = some st') :
    HeldBy I st' taken received own hs ∧ st'.heap = st.heap ∧ st'.txq = st.txq := by
  unfold cleanupBatch at hclean
  cases hecho : cfg.echoMode with
  | true =>
    by_cases hret : ret = 0
    · rw [if_neg (not_not.mpr hret), hecho, if_pos rfl] at hclean
      obtain rfl := Option.some.inj hclean
      rw [if_pos ⟨hecho, hret⟩] at h
      exact ⟨h, rfl, rfl⟩
    · simp only [hret, ne_eq, not_false_eq_true, if_true, hecho] at hclean
      rw [if_neg fun hboth => hret hboth.2] at h
      exact h.freeAll (by simpa using hclean)
  | false =>
    rw [if_neg fun hboth => by simp [hecho] at hboth] at h
    by_cases hret : ret = 0
    · rw [if_neg (not_not.mpr hret), hecho, if_neg Bool.false_ne_true] at hclean
      exact h.freeAll hclean
    · have hnone := @cleanupBatch_eq_none cfg fuel batch ret hne hret st
      rw [cleanupBatch] at hnone
      rw [hecho, hnone] at hclean
      simp at hclean

/-- Freeing packets writes to the pools only. -/
theorem foldlM_mbufFree_keeps {ms : List (Option Addr)} {st st' : State}
    (h : ms.foldlM (mbufFree cfg fuel) st = some st') : st.Keeps st' := by
  induction ms generalizing st with
  | nil =>
    obtain rfl := Option.some.inj h
    exact .rfl
  | cons m ms ih =>
    rw [List.foldlM_cons] at h
    obtain ⟨st₁, hfirst, hrest⟩ := Option.bind_eq_some_iff.mp h
    cases m with
    | none => simp [mbufFree] at hfirst
    | some m =>
      obtain ⟨tail, hreleased⟩ := mbufFree_released hfirst
      have hlogged : st.Keeps (st.log (.freed m)) := ⟨rfl, rfl, rfl, rfl, rfl⟩
      exact (hlogged.trans hreleased.keeps).trans (ih hrest)

/-- And so does the cleanup behind a batch. -/
theorem cleanupBatch_keeps {echoMode : Bool} {st st' : State}
    (h : cleanupBatch (mbufFree cfg fuel) echoMode ret batch st = some st') : st.Keeps st' := by
  unfold cleanupBatch at h
  dsimp only at h
  split at h
  case isTrue hret =>
    obtain ⟨st₁, hfirst, hsecond⟩ := Option.bind_eq_some_iff.mp h
    refine (foldlM_mbufFree_keeps hfirst).trans ?_
    split at hsecond
    · obtain rfl := Option.some.inj hsecond
      exact .rfl
    · exact foldlM_mbufFree_keeps hsecond
  case isFalse hret =>
    split at h
    · obtain rfl := Option.some.inj h
      exact .rfl
    · exact foldlM_mbufFree_keeps h

/-- An error of `process_server_requests` is not zero. -/
theorem prepareReplies_error_ne_zero
    (h : prepareReplies cfg fuel batch st = some (.error ret, st')) : ret ≠ 0 := by
  unfold prepareReplies at h
  split at h
  case isTrue hecho =>
    have hres := echoRequests_eq cfg batch [] st
    rw [Option.some.inj h] at hres
    dsimp only at hres
    split at hres
    · simp at hres
    · rw [Except.error.inj hres]
      decide
  case isFalse hecho =>
    rcases buildReplies_cases cfg fuel batch [] st with
      ⟨built, st₁, -, hok⟩ | ⟨done, request, rest, built, st₁, -, -, hstop⟩
    · simp [h] at hok
    · rw [h] at hstop
      rcases hstop.result with hnone | ⟨st₂, herror⟩
      · simp at hnone
      · simp only [Option.some.injEq, Prod.mk.injEq, Except.error.injEq] at herror
        rw [herror.1]
        decide

end Packets

/-! ## The send ring beside it -/

section Ring

variable {fuel : ℕ} {r : PostRun} {st : State}

/-- The receive queue, memory and the pools are no part of the send ring. -/
theorem PostRun.Inv.withState (h : PostRun.Inv fuel r) (htxq : st.txq = r.run.st.txq)
    (hheap : st.heap = r.run.st.heap) (htrace : st.trace = r.run.st.trace) :
    PostRun.Inv fuel (r.withState st) := by
  obtain ⟨q, hq, hpending⟩ := h.ring
  have hq' : SendInv fuel r.run.reported st.txq st.heap st.trace q := by
    rw [htxq, hheap, htrace]
    exact hq
  constructor
  case ring => exact ⟨q, hq', hpending⟩
  case progress =>
    obtain ⟨posted, hprogress, hposts⟩ := h.progress
    refine ⟨posted, hprogress, ?_⟩
    simp only [PostRun.withState, htrace]
    exact hposts
  case legal =>
    simp only [PostRun.withState, hheap, htrace]
    exact h.legal

/-- Outside `post_mbufs` the rest of the program may run. -/
theorem PostRun.Inv.appStep (h : PostRun.Inv fuel r) (hctl : r.ctl = none)
    (happ : SendRun.AppStep r.run.st st) : PostRun.Inv fuel (r.withState st) := by
  obtain ⟨⟨st₀, reported⟩, ctl, batches⟩ := r
  obtain rfl : ctl = none := hctl
  exact PostRun.Step.inv h (.app happ : PostRun.Step Config.default fuel _ _)

end Ring

namespace ServerRun

/-! ## The invariant -/

/-- What holds in every state that the server reaches. -/
structure Inv (cfg : Config) (fuel : ℕ) (I : Holding) (r : ServerRun) : Prop where
  post : PostRun.Inv fuel r.post
  idle : (∀ rest batch, r.phase ≠ .posting rest batch) → r.post.ctl = none
  batch : ∀ rest batch, r.phase = .posting rest batch → batch ≠ []
  held : ChainsHold cfg I r.taken r.received (r.hands cfg.echoMode)
    ((remaining r.post.ctl).map SendArgs.mbuf) r.st

variable {cfg : Config} {fuel : ℕ} {I : Holding} {r r' : ServerRun}

/-- Outside `post_mbufs` no chain is still to be sent. -/
theorem Inv.held_idle (h : Inv cfg fuel I r) (hctl : r.post.ctl = none) :
    ChainsHold cfg I r.taken r.received (r.hands cfg.echoMode) [] r.st := by
  have hheld := h.held
  rwa [hctl] at hheld

/-- Outside `post_mbufs` the invariant is about the chains that are outstanding. -/
theorem Inv.of_idle (hpost : PostRun.Inv fuel r.post) (hctl : r.post.ctl = none)
    (hphase : ∀ rest batch, r.phase ≠ .posting rest batch)
    (hheld : ChainsHold cfg I r.taken r.received (r.hands cfg.echoMode) [] r.st) :
    Inv cfg fuel I r := by
  refine ⟨hpost, fun _ => hctl, fun rest batch h => absurd h (hphase rest batch), ?_⟩
  rw [hctl]
  exact hheld

theorem Init.inv (h : Init I r) : Inv cfg fuel I r := by
  have htrace : r.st.trace = [] := h.post.run.trace
  have hctl := h.post.ctl
  obtain ⟨ring, hreceive⟩ := h.receive.inv
  constructor
  case post => exact h.post.inv
  case idle => exact fun _ => hctl
  case batch =>
    intro rest batch hphase
    simp [h.phase] at hphase
  case held =>
    refine ⟨[], [], ?_, ?_, ?_, ?_, ring, [], ?_⟩
    · rw [htrace]
      exact .nil
    · rw [hctl]
      exact .nil
    · have hfresh := Mempool.HandedOut.fresh h.mbufs_allocated h.mbufs_capacity
      rwa [h.mbufs] at hfresh
    · have hfresh := Mempool.HandedOut.fresh h.buffers_allocated h.buffers_capacity
      rwa [h.buffers] at hfresh
    · have hhands : r.hands cfg.echoMode = [] := by
        rw [hands, h.phase]
        exact h.lost
      rw [hhands]
      exact hreceive

/-! ## The steps of the program -/

/-- **The end of a batch** writes to the pools only. -/
theorem finish_keeps (hfinish : finish cfg fuel rest batch ret r = some r') :
    r.st.Keeps r'.st ∧ r'.st.trace = r.st.trace ∧ r'.post.ctl = r.post.ctl ∧
      r'.hands cfg.echoMode = rest ++ r.lost := by
  obtain ⟨⟨own, post⟩, hbatch, rfl⟩ := Option.map_eq_some_iff.mp hfinish
  obtain ⟨st, hclean, heq⟩ := Option.map_eq_some_iff.mp hbatch
  obtain ⟨-, rfl⟩ := Prod.mk.inj heq
  have hkeeps := cleanupBatch_keeps hclean
  refine ⟨⟨hkeeps.mem, hkeeps.heap, hkeeps.txq, hkeeps.rxq, hkeeps.requestHeaders⟩, rfl, rfl, ?_⟩
  simp [hands]

/-- A batch that failed is cleaned up in echo mode only. -/
theorem echoMode_of_finish {rest batch : List Addr} {ret : Int32} (hne : batch ≠ []) (hret : ret ≠ 0)
    (hfinish : finish cfg fuel rest batch ret r = some r') : cfg.echoMode = true := by
  by_contra hecho
  obtain ⟨⟨own, post⟩, hbatch, -⟩ := Option.map_eq_some_iff.mp hfinish
  obtain ⟨st', hclean, -⟩ := Option.map_eq_some_iff.mp hbatch
  rw [Bool.eq_false_iff.mpr hecho, cleanupBatch_eq_none hne hret] at hclean
  simp at hclean

/-- **The end of a batch** keeps the invariant. -/
theorem finish_inv {rest batch : List Addr} {ret : Int32} (hpost : PostRun.Inv fuel r.post)
    (hctl : r.post.ctl = none) (hne : batch ≠ [])
    (hheld : ChainsHold cfg I r.taken r.received
      ((if cfg.echoMode = true ∧ ret = 0 then [] else batch) ++ (rest ++ r.lost)) [] r.st)
    (hfinish : finish cfg fuel rest batch ret r = some r') : Inv cfg fuel I r' := by
  obtain ⟨⟨own, post⟩, hbatch, rfl⟩ := Option.map_eq_some_iff.mp hfinish
  obtain ⟨st, hclean, heq⟩ := Option.map_eq_some_iff.mp hbatch
  obtain ⟨-, rfl⟩ := Prod.mk.inj heq
  obtain ⟨hs, hsome, -⟩ := hheld.exists_heldBy
  obtain ⟨-, hheap, htxq⟩ := hsome.cleanup hne hclean
  refine .of_idle (hpost.withState htxq hheap rfl) hctl (by simp) ?_
  refine hheld.congr rfl fun hs hboth => ⟨?_, fun _ _ a _ => congrFun hheap a⟩
  -- the history of the ring goes on without the releases
  exact (hboth.cleanup hne hclean).1.congr rfl rfl rfl rfl (by simp [hands]) (.refl _)
    fun _ _ hreceived => hreceived

/-- **A batch is processed**: its replies are built and `post_mbufs` is called, or an
error cleans it up. -/
theorem processBatch_inv {rest batch : List Addr} (hI : I.Distinct)
    (hsegments : cfg.numSegments.toNat ≤ maxScatters) (hfuel : maxScatters ≤ fuel)
    (hpost : PostRun.Inv fuel r.post) (hctl : r.post.ctl = none) (hne : batch ≠ [])
    (hheld : ChainsHold cfg I r.taken r.received (batch ++ (rest ++ r.lost)) [] r.st)
    (hprocess : processBatch cfg fuel rest batch r = some r') : Inv cfg fuel I r' := by
  have hready := hheld.batchReady hI hsegments hfuel
  unfold processBatch at hprocess
  split at hprocess
  case h_1 => simp at hprocess
  case h_2 ret st hprepare =>
    have hret := prepareReplies_error_ne_zero hprepare
    -- outside echo mode the packets are freed twice
    have hecho := echoMode_of_finish hne hret hprocess
    have hechoed : echoRequests cfg batch [] r.st = (.error ret, st) := by
      rw [prepareReplies, if_pos hecho] at hprepare
      exact Option.some.inj hprepare
    have hkeeps := echoRequests_keeps hechoed
    have hrest := hkeeps.rest
    have hsame : ∀ hs, HeldBy I r.st r.taken r.received (batch ++ (rest ++ r.lost)) hs →
        ∀ x ∈ hs, ∀ a ∈ x.mbufs ++ x.packets, st.heap a = r.st.heap a := fun hs hboth x hx a ha =>
      hkeeps.frame a fun hmem => (hboth.apart hI hx ha).2.1 (List.mem_append_left _ hmem)
    have hchains : ChainsHold cfg I r.taken r.received (batch ++ (rest ++ r.lost)) [] st := by
      refine hheld.congr (by rw [hrest]) fun hs hboth => ⟨?_, hsame hs hboth⟩
      refine hboth.congr (by rw [hrest]) (by rw [hrest]) (by rw [hrest]) (by rw [hrest]) (.refl _)
        (.refl _) fun m _ hreceived => ?_
      exact ⟨by rw [hkeeps.head, hreceived.head], by rw [hkeeps.release, hreceived.release]⟩
    have hpost' := hpost.appStep hctl (echoRequests_appStep hready hechoed)
    refine @finish_inv _ _ _ { r with post := r.post.withState st } _ _ _ ret hpost' hctl hne ?_
      hprocess
    rw [if_neg fun hboth => hret hboth.2]
    exact hchains
  case h_3 heads st hprepare =>
    have hprepared := prepared_of_prepareReplies hready hprepare
    have hbuilt := hpost.appStep hctl (hprepared.appStep hready)
    have hlegal := hprepared.legalBatch hready (chainsEnd_of_inv hpost)
    have hchains := hheld.prepareReplies hI hready hprepare
    obtain rfl := Option.some.inj hprocess
    constructor
    case post =>
      obtain ⟨⟨⟨st₀, reported⟩, ctl, batches⟩, taken, received, phase, lost⟩ := r
      obtain rfl : ctl = none := hctl
      exact call_inv hbuilt hlegal
    case idle =>
      intro hphase
      exact absurd rfl (hphase rest batch)
    case batch =>
      intro rest' batch' hphase
      obtain ⟨-, rfl⟩ := ServerPhase.posting.inj hphase
      exact hne
    case held =>
      simp only [PostRun.remaining_loop, map_mbuf_replyArgs, hands]
      refine hchains.perm ?_
      rw [← List.append_assoc]
      exact List.perm_append_comm.append_right _

/-- The next packet joins the batch. -/
theorem Inv.held_joined {pkt : Addr} {rest batch : List Addr} (hinv : Inv cfg fuel I r)
    (hphase : r.phase = .burst (pkt :: rest) batch) :
    ChainsHold cfg I r.taken r.received (batch ++ [pkt] ++ (rest ++ r.lost)) [] r.st := by
  have hheld := hinv.held_idle (hinv.idle (by simp [hphase]))
  simp only [hands, hphase] at hheld
  refine hheld.perm (List.perm_iff_count.mpr fun a => ?_)
  simp only [List.count_append, List.count_cons, List.count_nil]
  omega

/-- **One packet of the burst.** -/
theorem handlePacket_inv {pkt : Addr} {rest batch : List Addr} (hI : I.Distinct)
    (hsegments : cfg.numSegments.toNat ≤ maxScatters) (hfuel : maxScatters ≤ fuel)
    (hinv : Inv cfg fuel I r) (hphase : r.phase = .burst (pkt :: rest) batch)
    (hhandle : handlePacket cfg fuel pkt rest batch r = some r') : Inv cfg fuel I r' := by
  have hctl : r.post.ctl = none := hinv.idle (by simp [hphase])
  have hheld := hinv.held_idle hctl
  simp only [hands, hphase] at hheld
  unfold handlePacket at hhandle
  split at hhandle
  case h_1 hinvalid =>
    obtain ⟨st, hfree, rfl⟩ := Option.map_eq_some_iff.mp hhandle
    have hheap := mbufFree_heap hfree
    obtain ⟨tail, hreleased⟩ := mbufFree_released hfree
    have hmem : pkt ∈ pkt :: rest ++ batch ++ r.lost := by simp
    refine .of_idle (hinv.post.withState hreleased.keeps.txq hheap rfl) hctl (by simp) ?_
    refine hheld.congr rfl fun hs hboth => ⟨?_, fun _ _ a _ => congrFun hheap a⟩
    have hfreed := hboth.freeOwn hmem hfree
    exact hfreed.congr rfl rfl rfl rfl (by simp [hands]) (.refl _) fun _ _ hreceived => hreceived
  case h_2 hvalid =>
    have hjoined := hinv.held_joined hphase
    dsimp only at hhandle
    split at hhandle
    case isTrue hfull =>
      exact processBatch_inv hI hsegments hfuel hinv.post hctl (by simp) hjoined hhandle
    case isFalse hmore =>
      obtain rfl := Option.some.inj hhandle
      refine .of_idle hinv.post hctl (by simp) (hjoined.perm ?_)
      simp only [hands]
      rw [← List.append_assoc]
      exact List.perm_append_comm.append_right _

/-- **One send of `post_mbufs`.** -/
theorem transmit_inv {rest batch : List Addr} {c : PostMbufs} {a : SendArgs} {ret : ℕ} {st : State}
    (hinv : Inv cfg fuel I r) (hphase : r.phase = .posting rest batch) (hctl : r.post.ctl = some c)
    (ha : c.batch[c.i]? = some a)
    (hcall : mlx5TransmitOne cfg fuel r.st a.mbuf a.requestHeader a.inlineLen = some (ret, st)) :
    Inv cfg fuel I { r with post := { r.post.withState st with ctl := c.resume ret } } := by
  obtain ⟨⟨⟨st₀, reported⟩, ctl, batches⟩, taken, received, phase, lost⟩ := r
  obtain rfl : ctl = some c := hctl
  obtain rfl : phase = .posting rest batch := hphase
  obtain ⟨q, hq, hpending⟩ := hinv.post.ring
  obtain ⟨-, ⟨hok, -⟩, -⟩ := hinv.post.progress
  obtain ⟨hlt, hget⟩ := List.getElem?_eq_some_iff.mp ha
  have hdrop : c.batch.drop c.i = a :: c.batch.drop (c.i + 1) := by
    rw [List.drop_eq_getElem_cons hlt, hget]
  -- the packet that is sent is the first of those that remain
  have hlegal := hinv.post.legal.legal a (by
    simp only [remaining, hdrop]
    exact List.mem_cons_self ..)
  have hheld := hinv.held
  simp only [remaining, hdrop, List.map_cons, hq.run.outstanding_eq] at hlegal hheld
  obtain ⟨q', hq', hpending', hsent⟩ :=
    ((queueHolds_iff hq hpending).mpr hheld).transmit hq hpending hlegal hcall
  constructor
  case post => exact send_inv hinv.post ha hcall
  case idle =>
    intro hidle
    exact absurd rfl (hidle rest batch)
  case batch => exact hinv.batch
  case held =>
    have hafter := (queueHolds_iff hq' hpending').mp hsent
    show ChainsHold cfg I taken received _ ((remaining (c.resume ret)).map SendArgs.mbuf) st
    rw [PostRun.remaining_resume hok]
    -- a refused packet is tried again
    split at hafter
    case isTrue hret => rwa [if_pos hret]
    case isFalse hret => rwa [if_neg hret, hdrop, List.map_cons]

/-- **Every step of the program** keeps the invariant. -/
theorem doServerStep_inv (hI : I.Distinct) (hsegments : cfg.numSegments.toNat ≤ maxScatters)
    (hfuel : maxScatters ≤ fuel) (hinv : Inv cfg fuel I r) (hstep : doServerStep cfg fuel r = some r') :
    Inv cfg fuel I r' := by
  unfold doServerStep at hstep
  split at hstep
  case h_1 hphase =>
    obtain ⟨⟨ms, st⟩, hcall, rfl⟩ := Option.map_eq_some_iff.mp hstep
    have hctl : r.post.ctl = none := hinv.idle (by simp [hphase])
    have hheld := hinv.held_idle hctl
    simp only [hands, hphase] at hheld
    obtain ⟨hgathered, happ⟩ := hheld.gather hI hcall
    refine .of_idle (hinv.post.appStep hctl happ) hctl (by simp) (hgathered.perm ?_)
    simp [hands]
  case h_2 batch hphase =>
    obtain rfl := Option.some.inj hstep
    have hctl : r.post.ctl = none := hinv.idle (by simp [hphase])
    have hheld := hinv.held_idle hctl
    simp only [hands, hphase] at hheld
    -- what was collected and not processed is lost
    refine .of_idle hinv.post hctl (by simp) (hheld.perm ?_)
    simp only [hands, List.nil_append]
    exact List.perm_append_comm
  case h_3 pkt rest batch hphase => exact handlePacket_inv hI hsegments hfuel hinv hphase hstep
  case h_4 rest batch hphase =>
    split at hstep
    case h_1 hctl =>
      have hheld := hinv.held_idle hctl
      simp only [hands, hphase] at hheld
      refine finish_inv hinv.post hctl (hinv.batch rest batch hphase) (hheld.perm ?_) hstep
      simp only [and_true]
      rw [← List.append_assoc]
      exact List.perm_append_comm.append_right _
    case h_2 c hctl =>
      obtain ⟨a, ha, hmap⟩ := Option.bind_eq_some_iff.mp hstep
      obtain ⟨⟨ret, st⟩, hcall, rfl⟩ := Option.map_eq_some_iff.mp hmap
      exact transmit_inv hinv hphase hctl ha hcall

/-! ## Runs -/

/-- The device's packets join those that wait. -/
theorem NicReceives.inv (hnic : NicReceives r r') (hinv : Inv cfg fuel I r) : Inv cfg fuel I r' := by
  cases hnic with
  | @receive received' cq mem counters hle hlen hposted horder hreports hmem =>
    refine ⟨hinv.post.withState rfl rfl rfl, hinv.idle, hinv.batch, ?_⟩
    refine hinv.held.congr rfl fun hs hboth => ⟨?_, fun _ _ _ _ => rfl⟩
    obtain ⟨ring, counters₀, hrx⟩ := hboth.packets
    -- the receive ring alone takes the same step
    obtain ⟨counters', hrx'⟩ :=
      (.receive hle hlen hposted horder hreports : RxRun.NicStep ⟨r.st, r.taken, r.received, _⟩
        ⟨{ r.st with mem := mem, rxq := { r.st.rxq with rxCq := cq } }, r.taken, received', _⟩).inv hrx
    exact ⟨hboth.mbufs, hboth.buffers, ring, counters', hrx'⟩

/-- **Every step keeps the invariant.** -/
theorem Step.inv (hI : I.Distinct) (hsegments : cfg.numSegments.toNat ≤ maxScatters)
    (hfuel : maxScatters ≤ fuel) (hinv : Inv cfg fuel I r) (hstep : Step cfg fuel r r') :
    Inv cfg fuel I r' := by
  cases hstep with
  | @reports run' hnic =>
    have hpost : PostRun.Step cfg fuel r.post { r.post with run := run' } := .nic hnic
    refine ⟨hpost.inv hinv.post, hinv.idle, hinv.batch, ?_⟩
    -- the device writes completion entries and nothing else
    obtain ⟨⟨run, ctl, batches⟩, taken, received, phase, lost⟩ := r
    cases hnic
    refine hinv.held.congr rfl fun hs hboth => ⟨?_, fun _ _ _ _ => rfl⟩
    exact hboth.congr rfl rfl rfl rfl (.refl _) (.refl _) fun _ _ hreceived => hreceived
  | receives hnic => exact hnic.inv hinv
  | program hrun => exact doServerStep_inv hI hsegments hfuel hinv hrun

theorem Inv.of_reachable (hI : I.Distinct) (hsegments : cfg.numSegments.toNat ≤ maxScatters)
    (hfuel : maxScatters ≤ fuel) (h : Reachable (Init I) (Step cfg fuel) r) : Inv cfg fuel I r :=
  Reachable.invariant (P := Inv cfg fuel I) (fun _ hinit => hinit.inv)
    (fun _ _ hinv hstep => hstep.inv hI hsegments hfuel hinv) h

/-! ## Every item is in one place -/

/-- Where the items of the three pools are: the free ones, the buffers that are posted
in the slots of the receive ring, the packets that `do_server` has, and what the chains
hold that are outstanding or still to be sent. -/
structure ItemsAccounted (cfg : Config) (I : Holding) (r : ServerRun) (slots : List Addr)
    (hs : List Holding) : Prop where
  ring : slots.length = r.st.rxq.rxWq.wqeCnt.toNat ∧
    ∀ s buf, slots[s]? = some buf → r.st.rxq.PostedIn s buf
  chains : List.Forall₂ (Holds cfg r.st.heap) ((Event.outstanding r.st.trace).map Send.mbuf ++
    (remaining r.post.ctl).map SendArgs.mbuf) hs
  mbufs : (r.st.mbufMempool.freeList ++ hs.flatMap Holding.mbufs).Perm I.mbufs
  buffers : (r.st.txBufMempool.freeList ++ hs.flatMap Holding.buffers).Perm I.buffers
  packets : (r.st.rxBufMempool.freeList ++ slots ++ r.hands cfg.echoMode ++
    hs.flatMap Holding.packets).Perm I.packets

/-- **Every item of every pool is in one place**, in every state that the server
reaches in any mode: none is lost by the pools and none is in two places. When the
server polls with nothing outstanding, only the packets left over from their bursts
are missing. -/
theorem items_accounted (hI : I.Distinct) (hsegments : cfg.numSegments.toNat ≤ maxScatters)
    (hfuel : maxScatters ≤ fuel) (h : Reachable (Init I) (Step cfg fuel) r) :
    (∃ slots hs, ItemsAccounted cfg I r slots hs) ∧
      (r.phase = .polling → Event.outstanding r.st.trace = [] →
        r.st.mbufMempool.freeList.Perm I.mbufs ∧ r.st.txBufMempool.freeList.Perm I.buffers ∧
          r.st.rxBufMempool.freeList.length + r.st.rxq.rxWq.wqeCnt.toNat + r.lost.length =
            I.packets.length) := by
  have hinv : Inv cfg fuel I r := Inv.of_reachable hI hsegments hfuel h
  obtain ⟨out, rest, hout, hrest, hheld⟩ := hinv.held
  obtain ⟨ring, counters, hrx⟩ := hheld.packets
  obtain ⟨slots, hlength, hposted, hslots⟩ := hrx.ready.exists_slots
  have hperm := ((hslots.append_left r.st.rxBufMempool.freeList).append_right
    (r.hands cfg.echoMode ++ (out ++ rest).flatMap Holding.packets)).trans hrx.conserved
  constructor
  · refine ⟨slots, out ++ rest, ⟨hlength, hposted⟩, ?_, hheld.mbufs.perm, hheld.buffers.perm, ?_⟩
    · refine List.rel_append (List.forall₂_map_left_iff.mpr ?_) hrest
      exact hout.imp fun _ _ hcarries => hcarries.holds
    · rw [List.append_assoc]
      exact hperm
  · intro hphase hnone
    -- nothing is outstanding and nothing is to be sent
    have hctl : r.post.ctl = none := hinv.idle (by simp [hphase])
    rw [hnone, List.forall₂_nil_left_iff] at hout
    rw [hctl, remaining, List.map_nil, List.forall₂_nil_left_iff] at hrest
    subst hout hrest
    have hmbufs := hheld.mbufs.perm
    have hbuffers := hheld.buffers.perm
    have hpackets := hperm.length_eq
    have hhands : r.hands cfg.echoMode = r.lost := by rw [hands, hphase]
    simp only [List.append_nil, List.flatMap_nil, hhands, List.length_append, hlength]
      at hmbufs hbuffers hpackets
    exact ⟨hmbufs, hbuffers, hpackets⟩

/-- The small server between the building and the posting of a reply. -/
theorem items_accounted_smallPosting :
    ∃ r, r.phase = .posting [] [0x400000] ∧
      ∃ slots hs, ItemsAccounted smallConfig smallItems r slots hs := by
  obtain ⟨r, hreach, hphase, -⟩ := exists_smallPosting smallServer_init
  exact ⟨r, hphase,
    (items_accounted smallItems_distinct (by decide) (Nat.le_refl 32)
      (hreach.mono fun _ _ h => h.step)).1⟩

end ServerRun

end Mlx5Netperf
