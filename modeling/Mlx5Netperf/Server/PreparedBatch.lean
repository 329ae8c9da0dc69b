import Mlx5Netperf.Mlx5.PostMbufs
import Mlx5Netperf.Mlx5.ReceiveRing
import Mlx5Netperf.Server.ReplyChains

/-!
# A Batch Ready to Be Posted

What `post_mbufs` is given after the replies of a batch were built: chains that
are legal to send, in a state in which the outstanding ones are as they were.
-/

namespace Mlx5Netperf

open Transition

/-- The arguments of the `mlx5_transmit_one` calls for the replies `heads`. -/
def replyArgs (cfg : Config) (st : State) (heads : List Addr) : List SendArgs :=
  heads.zipIdx.map fun (m, i) => ⟨m, requestHeaderPtr cfg st i, inlineLength cfg⟩

theorem map_mbuf_replyArgs (cfg : Config) (st : State) (heads : List Addr) :
    (replyArgs cfg st heads).map SendArgs.mbuf = heads := by
  rw [replyArgs, List.map_map]
  exact List.zipIdx_map_fst 0 heads

/-- The state in which a batch of received packets is processed. No chain that
is still outstanding holds a free mbuf or one of the packets. -/
structure BatchReady (cfg : Config) (fuel : ℕ) (st : State) (requests : List Addr) : Prop where
  nodup : st.mbufMempool.freeList.Nodup
  fresh : ∀ r ∈ requests, r ∉ st.mbufMempool.freeList
  requests_nodup : requests.Nodup
  received : ∀ r ∈ requests, ReceivedMbuf st.heap r
  segments : cfg.numSegments.toNat ≤ maxScatters
  fuel : maxScatters ≤ fuel
  apart : ∀ s ∈ Event.outstanding st.trace, ∀ nodes, st.heap.IsChain (some s.mbuf) nodes →
    ∀ a ∈ nodes, a ∉ st.mbufMempool.freeList ∧ a ∉ requests

/-- The replies `heads` to a batch are built. -/
structure Prepared (cfg : Config) (requests : List Addr) (st : State) (heads : List Addr)
    (st₁ : State) : Prop where
  txq : st₁.txq = st.txq
  trace : ∃ tail, st₁.trace = st.trace ++ tail ∧ ∀ e ∈ tail, e.IsQuiet
  frame : ∀ a, a ∉ st.mbufMempool.freeList → a ∉ requests → st₁.heap a = st.heap a
  nodup : heads.Nodup
  origin : if cfg.echoMode then heads = requests else ∀ m ∈ heads, m ∈ st.mbufMempool.freeList
  chains : ∀ m ∈ heads, ∃ nodes, st₁.heap.IsChain (some m) nodes ∧
    nodes.length = (st₁.heap m).nbSegs.toNat ∧ nodes.length ≤ maxScatters
  release : ∀ m ∈ heads, (st₁.heap m).release ≠ none
  received : ∀ r ∈ requests, ReceivedMbuf st₁.heap r

variable {cfg : Config} {fuel : ℕ} {requests heads : List Addr} {st st₁ : State}

/-! ## The three modes -/

/-- The heads of distinct lists are distinct. -/
theorem nodup_heads {replies : List (Addr × List Addr)}
    (hnodup : (replies.flatMap Prod.snd).Nodup) (hheads : ∀ r ∈ replies, r.1 ∈ r.2) :
    (replies.map Prod.fst).Nodup := by
  induction replies with
  | nil => exact .nil
  | cons reply replies ih =>
    rw [List.flatMap_cons, List.nodup_append] at hnodup
    obtain ⟨-, hrest, hapart⟩ := hnodup
    rw [List.map_cons, List.nodup_cons]
    refine ⟨fun hmem => ?_, ih hrest fun r hr => hheads r (List.mem_cons_of_mem _ hr)⟩
    obtain ⟨later, hlater, hsame⟩ := List.mem_map.mp hmem
    have hhead := hheads later (List.mem_cons_of_mem _ hlater)
    -- a head that occurs twice would lie in two lists
    refine hapart reply.1 (hheads reply (List.mem_cons_self ..)) reply.1 ?_ rfl
    rw [← hsame]
    exact List.mem_flatMap.mpr ⟨later, hlater, hhead⟩

theorem prepared_zeroCopy (hready : BatchReady cfg fuel st requests) (hecho : cfg.echoMode = false)
    (hzero : cfg.zeroCopy = true)
    (h : buildReplies cfg fuel requests [] st = some (.ok heads, st₁)) :
    Prepared cfg requests st heads st₁ := by
  obtain ⟨replies, hbatch, rfl⟩ := buildReplies_zeroCopyBatch hzero hready.nodup hready.fresh h
  rw [List.nil_append]
  have hsmall := hready.segments
  -- the replies are made of mbufs that were free
  have hpool : ∀ {a}, a ∈ replies.flatMap Prod.snd → a ∈ st.mbufMempool.freeList := fun ha => by
    rw [hbatch.pool]
    exact List.mem_append_left _ ha
  have hmem : ∀ reply ∈ replies, reply.1 ∈ reply.2 := by
    intro reply hreply
    obtain ⟨segments, -, hlist⟩ := hbatch.list_of_mem hreply
    exact hlist.chain.head_mem
  refine ⟨hbatch.txq, ⟨_, hbatch.trace, ?_⟩, ?_, ?_, ?_, ?_, ?_, ?_⟩
  · intro e he
    obtain ⟨a, -, rfl⟩ := List.mem_map.mp he
    trivial
  · exact fun a hfree _ => hbatch.frame a fun ha => hfree (hpool ha)
  · refine nodup_heads ?_ hmem
    have hnodup := hready.nodup
    rw [hbatch.pool] at hnodup
    exact (List.nodup_append.mp hnodup).1
  · rw [if_neg (ne_true_of_eq_false hecho)]
    intro m hm
    obtain ⟨reply, hreply, rfl⟩ := List.mem_map.mp hm
    exact hpool (List.mem_flatMap.mpr ⟨reply, hreply, hmem reply hreply⟩)
  · intro m hm
    obtain ⟨reply, hreply, rfl⟩ := List.mem_map.mp hm
    obtain ⟨segments, hlength, hlist⟩ := hbatch.list_of_mem hreply
    refine ⟨reply.2, hlist.chain, ?_, hlength.trans_le hsmall⟩
    rw [hlist.nbSegs, UInt64.toNat_toUInt32, hlength, Nat.mod_eq_of_lt]
    exact hsmall.trans_lt (by decide)
  · intro m hm
    obtain ⟨reply, hreply, rfl⟩ := List.mem_map.mp hm
    obtain ⟨segments, -, hlist⟩ := hbatch.list_of_mem hreply
    simp [hlist.release]
  · intro r hr
    have hself := hbatch.frame r fun ha => hready.fresh r hr (hpool ha)
    have hreceived := hready.received r hr
    exact ⟨by rw [hself, hreceived.head], by rw [hself, hreceived.release]⟩

theorem prepared_copy (hready : BatchReady cfg fuel st requests) (hecho : cfg.echoMode = false)
    (hzero : cfg.zeroCopy = false)
    (h : buildReplies cfg fuel requests [] st = some (.ok heads, st₁)) :
    Prepared cfg requests st heads st₁ := by
  obtain ⟨built, hrun, hheads⟩ := buildRun_of_ok h
  rw [List.nil_append] at hheads
  subst hheads
  obtain ⟨replies, hbatch, rfl⟩ := hrun.copyMbufs hzero hready.nodup
  have hpool : ∀ {a}, a ∈ replies.map Prod.fst → a ∈ st.mbufMempool.freeList := fun ha => by
    rw [hbatch.pool]
    exact List.mem_append_left _ ha
  -- each mbuf is what its last round made of it
  have hself : ∀ m ∈ replies.map Prod.fst, ∃ buffer, st₁.heap m = copyMbuf cfg buffer (st.heap m) := by
    intro m hm
    obtain ⟨reply, hreply, rfl⟩ := List.mem_map.mp hm
    exact ⟨reply.2, hbatch.heap reply hreply⟩
  refine ⟨hbatch.txq, ⟨[], by simp [hbatch.trace], by simp⟩, ?_, ?_, ?_, ?_, ?_, ?_⟩
  · exact fun a hfree _ => hbatch.frame a fun ha => hfree (hpool ha)
  · have hnodup := hready.nodup
    rw [hbatch.pool] at hnodup
    exact (List.nodup_append.mp hnodup).1
  · rw [if_neg (ne_true_of_eq_false hecho)]
    exact fun m hm => hpool hm
  · intro m hm
    obtain ⟨buffer, hm'⟩ := hself m hm
    exact ⟨[m], NullTerminated.isChain_singleton (by rw [hm']; rfl), by rw [hm']; rfl,
      by simp [maxScatters]⟩
  · intro m hm
    obtain ⟨buffer, hm'⟩ := hself m hm
    simp [hm', copyMbuf]
  · intro r hr
    have hsame := hbatch.frame r fun ha => hready.fresh r hr (hpool ha)
    have hreceived := hready.received r hr
    exact ⟨by rw [hsame, hreceived.head], by rw [hsame, hreceived.release]⟩

/-- Turning packets around, as far as it goes, does not disturb the ring. -/
theorem echoRequests_appStep {res : Except Int32 (List Addr)}
    (hready : BatchReady cfg fuel st requests) (h : echoRequests cfg requests [] st = (res, st₁)) :
    SendRun.AppStep st st₁ := by
  have hkeeps := echoRequests_keeps h
  have hrest := hkeeps.rest
  refine ⟨by rw [hrest], ⟨[], by rw [hrest]; simp, by simp⟩, fun s hs nodes hchain a ha => ?_⟩
  exact hkeeps.frame a (hready.apart s hs nodes hchain a ha).2

theorem prepared_echo (hready : BatchReady cfg fuel st requests) (hecho : cfg.echoMode = true)
    (h : echoRequests cfg requests [] st = (.ok heads, st₁)) :
    Prepared cfg requests st heads st₁ := by
  have hkeeps := echoRequests_keeps h
  -- the replies are the requests
  obtain rfl : requests = heads := by
    have hres := echoRequests_eq cfg requests [] st
    rw [h] at hres
    dsimp only at hres
    split at hres
    · exact (Except.ok.inj hres).symm
    · simp at hres
  have hself := echoRequests_heap h
  have hrest := hkeeps.rest
  refine ⟨by rw [hrest], ⟨[], by rw [hrest]; simp, by simp⟩, ?_, hready.requests_nodup, ?_, ?_, ?_, ?_⟩
  · exact fun a _ ha => hkeeps.frame a ha
  · rw [if_pos hecho]
  · intro m hm
    exact ⟨[m], NullTerminated.isChain_singleton (by rw [hself m hm]; rfl),
      by rw [hself m hm]; rfl, by simp [maxScatters]⟩
  · intro m hm
    rw [hkeeps.release, (hready.received m hm).release]
    simp
  · intro r hr
    exact ⟨by rw [hkeeps.head, (hready.received r hr).head],
      by rw [hkeeps.release, (hready.received r hr).release]⟩

/-- **A batch whose replies were built** is ready to be posted, in every mode. -/
theorem prepared_of_prepareReplies (hready : BatchReady cfg fuel st requests)
    (h : prepareReplies cfg fuel requests st = some (.ok heads, st₁)) :
    Prepared cfg requests st heads st₁ := by
  unfold prepareReplies at h
  split at h
  case isTrue hecho => exact prepared_echo hready hecho (Option.some.inj h)
  case isFalse hecho =>
    have hecho' : cfg.echoMode = false := by simpa using hecho
    cases hzero : cfg.zeroCopy with
    | true => exact prepared_zeroCopy hready hecho' hzero h
    | false => exact prepared_copy hready hecho' hzero h

/-! ## Posting -/

/-- The outstanding sends start chains that end. -/
def ChainsEnd (st : State) : Prop :=
  ∀ s ∈ Event.outstanding st.trace, ∃ nodes, st.heap.IsChain (some s.mbuf) nodes

namespace Prepared

/-- Building the replies does not disturb the ring. -/
theorem appStep (hready : BatchReady cfg fuel st requests)
    (h : Prepared cfg requests st heads st₁) : SendRun.AppStep st st₁ := by
  refine ⟨h.txq, h.trace, fun s hs nodes hchain a ha => ?_⟩
  obtain ⟨hfree, hrequest⟩ := hready.apart s hs nodes hchain a ha
  exact h.frame a hfree hrequest

/-- No new send became outstanding. -/
theorem outstanding_eq (h : Prepared cfg requests st heads st₁) :
    Event.outstanding st₁.trace = Event.outstanding st.trace := by
  obtain ⟨tail, htrace, hquiet⟩ := h.trace
  rw [htrace, Event.outstanding, Event.outstanding, Event.posts_append, Event.gathers_append,
    Event.posts_eq_nil hquiet, Event.gathers_eq_nil hquiet, List.append_nil, List.append_nil]

/-- A reply is none of the outstanding chains. -/
theorem not_outstanding (hready : BatchReady cfg fuel st requests) (hchains : ChainsEnd st)
    (h : Prepared cfg requests st heads st₁) {m : Addr} (hm : m ∈ heads) :
    m ∉ (Event.outstanding st.trace).map Send.mbuf := by
  intro hmem
  obtain ⟨s, hs, rfl⟩ := List.mem_map.mp hmem
  obtain ⟨nodes, hchain⟩ := hchains s hs
  obtain ⟨hfree, hrequest⟩ := hready.apart s hs nodes hchain s.mbuf hchain.head_mem
  have hheads := h.origin
  -- a request in echo mode, a free mbuf otherwise
  split at hheads
  · exact hrequest (hheads ▸ hm)
  · exact hfree (hheads _ hm)

/-- **The replies are legal to send.** -/
theorem legalBatch (hready : BatchReady cfg fuel st requests) (hchains : ChainsEnd st)
    (h : Prepared cfg requests st heads st₁) :
    PostRun.LegalBatch fuel st₁.heap (Event.outstanding st₁.trace) (replyArgs cfg st₁ heads) := by
  refine ⟨fun a ha => ?_, by rw [map_mbuf_replyArgs]; exact h.nodup⟩
  have hm : a.mbuf ∈ heads := by
    rw [← map_mbuf_replyArgs cfg st₁ heads]
    exact List.mem_map_of_mem ha
  obtain ⟨⟨m, i⟩, -, rfl⟩ := List.mem_map.mp ha
  obtain ⟨nodes, hchain, hlength, hle⟩ := h.chains m hm
  have hscatters : maxScatters = 32 := rfl
  have hfuel := hready.fuel
  refine ⟨⟨nodes, hchain, hlength, by omega⟩, ?_, h.release m hm, ?_, ?_, ?_⟩
  · show (st₁.heap m).nbSegs.toNat + 9 < 2 ^ 31
    omega
  · rw [h.outstanding_eq]
    exact h.not_outstanding hready hchains hm
  -- the inline length depends on the mode only
  · show InlineLenOk (inlineLength cfg)
    unfold inlineLength
    split
    · exact .inl rfl
    · split
      · exact .inr (by decide)
      · exact .inl rfl
  -- and so does whether there is a header to inline
  · show 0 < inlineLength cfg → requestHeaderPtr cfg st₁ i ≠ none
    unfold inlineLength requestHeaderPtr
    split
    · simp
    · split <;> simp

end Prepared

end Mlx5Netperf
