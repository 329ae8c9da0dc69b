import Mlx5Netperf.Mlx5.ReceiveRun
import Mlx5Netperf.Server.Loop
import Mlx5Netperf.Server.ReplyAccesses

/-!
# The Packets of a Batch Are Released

`do_server` on one batch of accepted packets: `process_server_requests` with the
device reporting completions in between, and the two loops behind it that free
the packets. In echo mode a packet that was sent back is released by its send
completion instead.
-/

namespace Mlx5Netperf

open Transition PostRun

/-! ## One batch of `do_server` -/

/-- `post_mbufs` runs to its end, whatever the device reports meanwhile; `none` is a
release that changes a count outside of what was allocated. -/
inductive Posting (cfg : Config) (numRefcntArrays : UInt64) (fuel : ℕ) :
    PostRun → Option PostRun → Prop where
  | done {r : PostRun} (hctl : r.ctl = none) : Posting cfg numRefcntArrays fuel r (some r)
  | step {r r' : PostRun} {res : Option PostRun} (hctl : r.ctl ≠ none) (hstep : Step cfg fuel r r')
      (hinside : FreesInside cfg numRefcntArrays r.run.st r'.run.st)
      (hrest : Posting cfg numRefcntArrays fuel r' res) : Posting cfg numRefcntArrays fuel r res
  | outside {r r' : PostRun} (hctl : r.ctl ≠ none) (hstep : Step cfg fuel r r')
      (houtside : ¬ FreesInside cfg numRefcntArrays r.run.st r'.run.st) :
      Posting cfg numRefcntArrays fuel r none

/-- `do_server` after `process_server_requests` returned `ret` in `r`: the mbufs
that its own loops released, and the program after them. The history of the ring
goes on without these releases. -/
def finishBatch (cfg : Config) (fuel : ℕ) (requests : List Addr) (ret : Int32) (r : PostRun) :
    Option (List Addr × PostRun) :=
  (cleanupBatch (mbufFree cfg fuel) cfg.echoMode ret requests r.run.st).map fun st =>
    ((Event.frees st.trace).drop (Event.frees r.run.st.trace).length,
      { r with run := { r.run with st := { st with trace := r.run.st.trace } } })

/-- What `do_server` can make of a batch; `none` is a crash. -/
inductive ServesBatch (cfg : Config) (numRefcntArrays : UInt64) (fuel : ℕ) (requests : List Addr)
    (r : PostRun) : Option (List Addr × PostRun) → Prop where
  /-- A division by zero, or an access to memory that was not allocated. -/
  | outside (houtside : ¬ PrepareInside cfg numRefcntArrays requests r.run.st) :
      ServesBatch cfg numRefcntArrays fuel requests r none
  /-- A null pointer. -/
  | crash (hinside : PrepareInside cfg numRefcntArrays requests r.run.st)
      (hprepare : prepareReplies cfg fuel requests r.run.st = none) :
      ServesBatch cfg numRefcntArrays fuel requests r none
  | failed {ret : Int32} {st₁ : State}
      (hinside : PrepareInside cfg numRefcntArrays requests r.run.st)
      (hprepare : prepareReplies cfg fuel requests r.run.st = some (.error ret, st₁)) :
      ServesBatch cfg numRefcntArrays fuel requests r
        (finishBatch cfg fuel requests ret ⟨⟨st₁, r.run.reported⟩, r.ctl, r.batches⟩)
  | posted {heads : List Addr} {st₁ : State} {res : Option PostRun}
      (hinside : PrepareInside cfg numRefcntArrays requests r.run.st)
      (hprepare : prepareReplies cfg fuel requests r.run.st = some (.ok heads, st₁))
      (hposts : Posting cfg numRefcntArrays fuel ⟨⟨st₁, r.run.reported⟩,
        PostMbufs.loop (replyArgs cfg st₁ heads) 0, r.batches ++ [replyArgs cfg st₁ heads]⟩ res) :
      ServesBatch cfg numRefcntArrays fuel requests r (res.bind (finishBatch cfg fuel requests 0))

/-- How often an mbuf was passed to `mbuf_free` by a send completion. -/
def releases (r : PostRun) (m : Addr) : ℕ := (Event.frees r.run.st.trace).count m

/-- How often an mbuf waits for a send completion. -/
def waits (r : PostRun) (m : Addr) : ℕ :=
  ((Event.outstanding r.run.st.trace).map Send.mbuf).count m

/-- None of the packets was posted after `r₁`. -/
def NotPostedSince (requests : List Addr) (r₁ r₂ : PostRun) : Prop :=
  ∀ a ∈ (r₂.batches.drop r₁.batches.length).flatten, a.mbuf ∉ requests

/-- From the state `r₀` before the batch on, and until it is posted again, each
packet is released exactly once, by `do_server` or by a send completion that is
already there or still to come; and the release is the one to the receive pool. -/
def ReleasedExactlyOnce (cfg : Config) (fuel : ℕ) (requests : List Addr) (r₀ : PostRun) :
    Option (List Addr × PostRun) → Prop
  | none => False
  | some (own, r₁) => (∀ m ∈ requests, ReceivedMbuf r₁.run.st.heap m) ∧
    ∀ r₂, Reachable (fun r => r = r₁) (Step cfg fuel) r₂ → NotPostedSince requests r₁ r₂ →
      ∀ m ∈ requests, own.count m + releases r₂ m + waits r₂ m = releases r₀ m + 1 ∧
        (waits r₂ m ≠ 0 → ReceivedMbuf r₂.run.st.heap m)

variable {cfg : Config} {numRefcntArrays : UInt64} {fuel : ℕ} {requests heads : List Addr}
  {r r' r₀ r₁ r₂ : PostRun} {res : Option PostRun} {m : Addr}

/-! ## Counting -/

/-- Every send was released or waits. -/
theorem releases_add_waits (h : Inv fuel r) (m : Addr) :
    releases r m + waits r m = ((Event.posts r.run.st.trace).map Send.mbuf).count m := by
  rw [posts_eq_frees_append h, List.count_append, releases, waits]

/-- The outstanding chains end. -/
theorem chainsEnd_of_inv (h : Inv fuel r) : ChainsEnd r.run.st := by
  obtain ⟨q, hq, -⟩ := h.ring
  intro s hs
  rw [hq.run.outstanding_eq] at hs
  obtain ⟨nodes, hchain, -⟩ := (hq.waiting s hs).releasable.chain
  exact ⟨nodes, hchain⟩

/-- Batches are only added, and a call of `post_mbufs` adds one. -/
structure Later (r₁ r : PostRun) : Prop where
  batches : r₁.batches <+: r.batches
  ctl : r.ctl ≠ none → r₁.batches.length < r.batches.length

theorem Later.step (h : Later r₁ r) (hstep : Step cfg fuel r r') : Later r₁ r' := by
  cases hstep with
  | nic _ => exact ⟨h.batches, h.ctl⟩
  | app _ => exact ⟨h.batches, h.ctl⟩
  | call _ =>
    refine ⟨h.batches.trans (List.prefix_append ..), fun _ => ?_⟩
    have hle := h.batches.length_le
    rw [List.length_append, List.length_singleton]
    exact Nat.lt_succ_of_le hle
  | send _ _ => exact ⟨h.batches, fun _ => h.ctl (by simp)⟩

theorem later_of_reachable (hctl : r₁.ctl = none)
    (h : Reachable (fun r => r = r₁) (Step cfg fuel) r₂) : Later r₁ r₂ := by
  refine Reachable.invariant (P := Later r₁) ?_ (fun _ _ h hstep => h.step hstep) h
  rintro s rfl
  exact ⟨List.prefix_rfl, fun hne => absurd hctl hne⟩

/-- **What was posted before** is all that was posted of the packets. -/
theorem count_posts_later (hinv₁ : Inv fuel r₁) (hctl : r₁.ctl = none) (hinv : Inv fuel r₂)
    (hlater : Later r₁ r₂) (hnot : NotPostedSince requests r₁ r₂) (hm : m ∈ requests) :
    ((Event.posts r₂.run.st.trace).map Send.mbuf).count m =
      ((Event.posts r₁.run.st.trace).map Send.mbuf).count m := by
  obtain ⟨posted₁, hprogress₁, hposts₁⟩ := hinv₁.progress
  obtain ⟨posted₂, hprogress₂, hposts₂⟩ := hinv.progress
  rw [hctl] at hprogress₁
  obtain rfl : posted₁ = r₁.batches.flatten := hprogress₁
  obtain ⟨newer, hnewer⟩ := hlater.batches
  -- nothing that was added since names the packet
  have hnone : ∀ sent : List SendArgs, (∀ a ∈ sent, a ∈ newer.flatten) →
      (sent.map SendArgs.mbuf).count m = 0 := by
    intro sent hsent
    refine List.count_eq_zero.mpr fun hmem => ?_
    obtain ⟨a, ha, rfl⟩ := List.mem_map.mp hmem
    refine hnot a ?_ hm
    rw [← hnewer, List.drop_left]
    exact hsent a ha
  rw [hposts₁, hposts₂]
  -- between two calls, or in the middle of one
  rcases hctl₂ : r₂.ctl with _ | c
  · rw [hctl₂] at hprogress₂
    obtain rfl : posted₂ = r₂.batches.flatten := hprogress₂
    rw [← hnewer, List.flatten_append, List.map_append, List.count_append,
      hnone newer.flatten fun _ ha => ha, Nat.add_zero]
  · rw [hctl₂] at hprogress₂
    obtain ⟨-, earlier, hbatches, rfl⟩ := hprogress₂
    -- the batch that is being posted is a later one
    have hlt := hlater.ctl (by simp [hctl₂])
    have hearlier : r₁.batches <+: earlier := by
      have hprefix := hlater.batches
      rw [hbatches] at hprefix hlt
      refine List.prefix_of_prefix_length_le hprefix (List.prefix_append ..) ?_
      rw [List.length_append, List.length_singleton] at hlt
      omega
    obtain ⟨newer', rfl⟩ := hearlier
    have hsplit : newer = newer' ++ [c.batch] := by
      rw [hbatches, List.append_assoc] at hnewer
      exact List.append_cancel_left hnewer
    have hnew : ((newer'.flatten ++ c.batch.take c.i).map SendArgs.mbuf).count m = 0 := by
      refine hnone _ fun a ha => ?_
      rw [hsplit, List.flatten_append, List.flatten_singleton]
      rcases List.mem_append.mp ha with hold | hcurrent
      · exact List.mem_append_left _ hold
      · exact List.mem_append_right _ (List.mem_of_mem_take hcurrent)
    rw [List.flatten_append, List.append_assoc, List.map_append, List.count_append, hnew,
      Nat.add_zero]

/-! ## The release is the one to the receive pool -/

/-- A packet keeps its buffer and its release function while `num_wqes` is written. -/
theorem ReceivedMbuf.sameButWqes {heap heap' : Heap} (h : ReceivedMbuf heap m)
    (hsame : heap.SameButWqes heap') : ReceivedMbuf heap' m := by
  obtain ⟨n, hn⟩ := hsame m
  refine ⟨?_, ?_⟩
  · rw [hn]
    exact h.head
  · rw [hn]
    exact h.release

/-- Every step leaves a packet that waits for its completion as it was received,
unless it is the one that is sent. -/
theorem step_received (hinv : Inv fuel r) (hstep : Step cfg fuel r r')
    (hfresh : ∀ c, r.ctl = some c → ∀ a ∈ c.batch, a.mbuf ≠ m)
    (h : waits r m ≠ 0 → ReceivedMbuf r.run.st.heap m) :
    waits r' m ≠ 0 → ReceivedMbuf r'.run.st.heap m := by
  have hwaits : ∀ {st : State}, ((Event.outstanding st.trace).map Send.mbuf).count m ≠ 0 ↔
      ∃ s ∈ Event.outstanding st.trace, s.mbuf = m := fun {st} => by
    rw [← Nat.pos_iff_ne_zero, List.count_pos_iff, List.mem_map]
  cases hstep with
  | nic hnic =>
    cases hnic
    exact h
  | call _ => exact h
  | app happ =>
    intro hwait
    -- the program may not write the chains that wait
    obtain ⟨tail, htrace, hquiet⟩ := happ.trace
    obtain ⟨s, hs, rfl⟩ := hwaits.mp hwait
    rw [htrace, Event.outstanding, Event.posts_append, Event.gathers_append,
      Event.posts_eq_nil hquiet, Event.gathers_eq_nil hquiet, List.append_nil, List.append_nil] at hs
    obtain ⟨nodes, hchain⟩ := chainsEnd_of_inv hinv s hs
    have hself := happ.heap s hs nodes hchain s.mbuf hchain.head_mem
    have hreceived := h (hwaits.mpr ⟨s, hs, rfl⟩)
    exact ⟨hself ▸ hreceived.head, hself ▸ hreceived.release⟩
  | @send st st' reported ret c a batches ha hcall =>
    intro hwait
    obtain ⟨s, hs, rfl⟩ := hwaits.mp hwait
    rcases (PostRun.send_effect hinv ha hcall).2 s hs with hold | hnew
    · exact (h (hwaits.mpr ⟨s, hold, rfl⟩)).sameButWqes (mlx5TransmitOne_sameButWqes hcall)
    · exact absurd hnew.symm (hfresh c rfl a (List.mem_of_getElem? ha))

theorem batches_prefix (hstep : Step cfg fuel r r') : r.batches <+: r'.batches := by
  cases hstep with
  | nic _ => exact List.prefix_rfl
  | app _ => exact List.prefix_rfl
  | call _ => exact List.prefix_append ..
  | send _ _ => exact List.prefix_rfl

/-- The batch that is being posted holds none of the packets. -/
theorem current_fresh (hinv : Inv fuel r) (hlater : Later r₁ r)
    (hnot : NotPostedSince requests r₁ r) (hm : m ∈ requests) :
    ∀ c, r.ctl = some c → ∀ a ∈ c.batch, a.mbuf ≠ m := by
  rintro c hctl a ha rfl
  obtain ⟨posted, hprogress, -⟩ := hinv.progress
  rw [hctl] at hprogress
  obtain ⟨-, earlier, hbatches, -⟩ := hprogress
  have hlt := hlater.ctl (by simp [hctl])
  rw [hbatches, List.length_append, List.length_singleton] at hlt
  -- it came after `r₁`, so it counts as posted since
  refine hnot a ?_ hm
  rw [hbatches, List.drop_append_of_le_length (by omega), List.flatten_append,
    List.flatten_singleton]
  exact List.mem_append_right _ ha

/-- **After the batch** each packet that was posted waits or was released, and
while it waits it is as it was received. -/
theorem once_later (hreach₁ : Reachable Init (Step cfg fuel) r₁) (hctl : r₁.ctl = none)
    (hreceived : ∀ m ∈ requests, ReceivedMbuf r₁.run.st.heap m)
    (h : Reachable (fun r => r = r₁) (Step cfg fuel) r₂) (hnot : NotPostedSince requests r₁ r₂)
    (hm : m ∈ requests) :
    releases r₂ m + waits r₂ m = ((Event.posts r₁.run.st.trace).map Send.mbuf).count m ∧
      (waits r₂ m ≠ 0 → ReceivedMbuf r₂.run.st.heap m) := by
  have hreach₂ := hreach₁.from_reachable h
  constructor
  · rw [releases_add_waits (Inv.of_reachable hreach₂)]
    exact count_posts_later (Inv.of_reachable hreach₁) hctl (Inv.of_reachable hreach₂)
      (later_of_reachable hctl h) hnot hm
  · clear hreach₂
    induction h with
    | init hinit =>
      subst hinit
      exact fun _ => hreceived m hm
    | @step s t hs hstep ih =>
      have hnot' : NotPostedSince requests r₁ s := by
        intro a ha
        obtain ⟨tail, htail⟩ := batches_prefix hstep
        have hle := (later_of_reachable hctl hs).batches.length_le
        -- what was posted before the step was posted before its end
        refine hnot a ?_
        rw [← htail, List.drop_append_of_le_length hle, List.flatten_append]
        exact List.mem_append_left _ ha
      have hinv := Inv.of_reachable (hreach₁.from_reachable hs)
      exact step_received hinv hstep
        (current_fresh hinv (later_of_reachable hctl hs) hnot' hm) (ih hnot')

/-! ## The loops of `do_server` -/

@[simp] theorem frees_map_freed (ms : List Addr) : Event.frees (ms.map .freed) = ms := by
  induction ms with
  | nil => rfl
  | cons m ms ih => exact congrArg (m :: ·) ih

/-- Freeing packets releases them one after the other. -/
theorem foldlM_mbufFree {ms : List Addr} {st : State} (h : ∀ m ∈ ms, ReceivedMbuf st.heap m) :
    ∃ st', (ms.map some).foldlM (mbufFree cfg fuel) st = some st' ∧ st.Keeps st' ∧
      st'.mbufMempool = st.mbufMempool ∧ st'.workingSetRefcnts = st.workingSetRefcnts ∧
      st'.trace = st.trace ++ ms.map .freed := by
  induction ms generalizing st with
  | nil => exact ⟨st, rfl, .rfl, rfl, rfl, by simp⟩
  | cons m ms ih =>
    have hfree := (@RxRun.mbufFree_received cfg fuel st m (h m (List.mem_cons_self ..))).1
    let st₁ := rxCompletion (st.log (.freed m)) m
    obtain ⟨st', hrest, hkeeps, hmbufs, hrefcnts, htrace⟩ :=
      @ih st₁ fun m' hm' => h m' (List.mem_cons_of_mem _ hm')
    refine ⟨st', ?_, ?_, hmbufs, hrefcnts, ?_⟩
    · rw [List.map_cons, List.foldlM_cons, hfree]
      exact hrest
    · exact ⟨hkeeps.mem, hkeeps.heap, hkeeps.txq, hkeeps.rxq, hkeeps.requestHeaders⟩
    · rw [htrace, List.map_cons]
      simp [st₁, rxCompletion]

/-- **The loops behind a batch**, when they do not free an entry twice: they
release nothing in echo mode after a success, and else every packet once. -/
theorem finishBatch_eq {ret : Int32} (hreceived : ∀ m ∈ requests, ReceivedMbuf r.run.st.heap m)
    (hok : cfg.echoMode = true ∨ ret = 0) :
    ∃ st', finishBatch cfg fuel requests ret r =
        some (if cfg.echoMode = true ∧ ret = 0 then [] else requests,
          { r with run := { r.run with st := st' } }) ∧
      st'.heap = r.run.st.heap ∧ st'.mbufMempool = r.run.st.mbufMempool ∧
      st'.workingSetRefcnts = r.run.st.workingSetRefcnts ∧ st'.trace = r.run.st.trace ∧
      SendRun.AppStep r.run.st st' := by
  obtain ⟨st', hfree, hkeeps, hmbufs, hrefcnts, htrace⟩ :=
    @foldlM_mbufFree cfg fuel requests r.run.st hreceived
  have happ : SendRun.AppStep r.run.st { st' with trace := r.run.st.trace } :=
    ⟨hkeeps.txq, ⟨[], by simp, by simp⟩, fun _ _ _ _ _ _ => by rw [hkeeps.heap]⟩
  -- the two loops log their releases behind the old ones
  have hown : (Event.frees st'.trace).drop (Event.frees r.run.st.trace).length = requests := by
    rw [htrace, Event.frees_append, frees_map_freed, List.drop_left]
  cases hecho : cfg.echoMode with
  | false =>
    obtain rfl : ret = 0 := by simpa [hecho] using hok
    refine ⟨{ st' with trace := r.run.st.trace }, ?_, hkeeps.heap, hmbufs, hrefcnts, rfl, happ⟩
    simp only [finishBatch, cleanupBatch, hecho, ne_eq, not_true_eq_false, if_false,
      Bool.false_eq_true, hfree, Option.map_some, hown, false_and]
  | true =>
    by_cases hret : ret = 0
    · refine ⟨r.run.st, ?_, rfl, rfl, rfl, rfl, rfl, ⟨[], by simp, by simp⟩, fun _ _ _ _ _ _ => rfl⟩
      simp [finishBatch, cleanupBatch, hecho, hret]
    · refine ⟨{ st' with trace := r.run.st.trace }, ?_, hkeeps.heap, hmbufs, hrefcnts, rfl, happ⟩
      simp only [finishBatch, cleanupBatch, hecho, ne_eq, hret, not_false_eq_true, if_true, hfree,
        Option.bind_some, Option.map_some, hown, and_false, if_false]

/-! ## The batch -/

/-- Outside `post_mbufs` the packets of all batches were posted. -/
theorem map_posts_of_idle (hinv : Inv fuel r) (hctl : r.ctl = none) :
    (Event.posts r.run.st.trace).map Send.mbuf = r.batches.flatten.map SendArgs.mbuf := by
  obtain ⟨posted, hprogress, hposts⟩ := hinv.progress
  rw [hctl] at hprogress
  obtain rfl : posted = r.batches.flatten := hprogress
  exact hposts

/-- A packet of a batch does not wait for a completion when the batch starts. -/
theorem waits_eq_zero (hinv : Inv fuel r) (hready : BatchReady cfg fuel r.run.st requests)
    (hm : m ∈ requests) : waits r m = 0 := by
  refine List.count_eq_zero.mpr fun hmem => ?_
  obtain ⟨s, hs, rfl⟩ := List.mem_map.mp hmem
  -- the chains that wait hold none of the packets
  obtain ⟨nodes, hchain⟩ := chainsEnd_of_inv hinv s hs
  exact (hready.apart s hs nodes hchain s.mbuf hchain.head_mem).2 hm

/-- Between two calls of `post_mbufs` the device and the loops stay inside. -/
theorem step_releasesInside (hinv : Inv fuel r) (hctl : r.ctl ≠ none) (hstep : Step cfg fuel r r')
    (h : ReleasesInside cfg numRefcntArrays r) :
    FreesInside cfg numRefcntArrays r.run.st r'.run.st ∧ ReleasesInside cfg numRefcntArrays r' := by
  cases hstep with
  | nic hnic =>
    cases hnic
    exact ⟨fun m hm => by simp at hm, h⟩
  | app _ => exact absurd rfl hctl
  | call _ => exact absurd rfl hctl
  | send ha hcall => exact h.send hinv ha hcall

/-- What `post_mbufs` leaves: when the chains that wait and those it is given are released
inside, it gets to its end. -/
theorem Posting.reachable (h : Posting cfg numRefcntArrays fuel r res)
    (hreach : Reachable Init (Step cfg fuel) r) (hinside : ReleasesInside cfg numRefcntArrays r) :
    ∃ r₁, res = some r₁ ∧ Reachable Init (Step cfg fuel) r₁ ∧ r₁.ctl = none ∧
      r₁.batches = r.batches ∧ r.run.st.heap.SameButWqes r₁.run.st.heap := by
  induction h with
  | done hctl => exact ⟨_, rfl, hreach, hctl, rfl, .refl _⟩
  | @step r r' res hctl hstep _ _ ih =>
    have hafter := (step_releasesInside (Inv.of_reachable hreach) hctl hstep hinside).2
    obtain ⟨r₁, rfl, hreach₁, hctl₁, hbatches, hheap⟩ := ih (hreach.step hstep) hafter
    refine ⟨r₁, rfl, hreach₁, hctl₁, ?_, ?_⟩
    · rw [hbatches]
      -- a call that runs is only interleaved with the device
      cases hstep with
      | nic _ => rfl
      | app _ => exact absurd rfl hctl
      | call _ => exact absurd rfl hctl
      | send _ _ => rfl
    · refine Heap.SameButWqes.trans ?_ hheap
      cases hstep with
      | nic hnic =>
        cases hnic
        exact .refl _
      | app _ => exact absurd rfl hctl
      | call _ => exact absurd rfl hctl
      | send _ hcall => exact mlx5TransmitOne_sameButWqes hcall
  | outside hctl hstep houtside =>
    exact absurd (step_releasesInside (Inv.of_reachable hreach) hctl hstep hinside).1 houtside

/-- **Clean-up behind a batch** whose replies `heads` were posted: exactly one
release for each packet, when either it was posted or the loops release it. -/
theorem finishBatch_once {ret : Int32} (hinv₀ : Inv fuel r₀) (hctl₀ : r₀.ctl = none)
    (hready : BatchReady cfg fuel r₀.run.st requests) (hreach : Reachable Init (Step cfg fuel) r)
    (hctl : r.ctl = none) {sent : List (List SendArgs)} (hbatches : r.batches = r₀.batches ++ sent)
    (hreceived : ∀ m ∈ requests, ReceivedMbuf r.run.st.heap m)
    (hok : cfg.echoMode = true ∨ ret = 0)
    (hsent : ∀ m ∈ requests, (sent.flatten.map SendArgs.mbuf).count m =
      if cfg.echoMode = true ∧ ret = 0 then 1 else 0) :
    ReleasedExactlyOnce cfg fuel requests r₀ (finishBatch cfg fuel requests ret r) := by
  obtain ⟨⟨st, reported⟩, ctl, batches⟩ := r
  obtain rfl : ctl = none := hctl
  obtain ⟨st', hfinish, hheap, -, -, -, happ⟩ := @finishBatch_eq cfg fuel requests _ ret hreceived hok
  have hreach' := hreach.step (.app happ)
  have hreceived' : ∀ m ∈ requests, ReceivedMbuf st'.heap m := by
    rw [hheap]
    exact hreceived
  rw [hfinish]
  refine ⟨hreceived', fun r₂ h₂ hnot m hm => ?_⟩
  obtain ⟨hcount, hwaiting⟩ := once_later hreach' rfl hreceived' h₂ hnot hm
  refine ⟨?_, hwaiting⟩
  -- the sends before the batch, and those of the batch
  have hposts := congrArg (List.count m) (map_posts_of_idle (Inv.of_reachable hreach') rfl)
  have hposts₀ := congrArg (List.count m) (map_posts_of_idle hinv₀ hctl₀)
  have hbefore := releases_add_waits hinv₀ m
  have hwaits := waits_eq_zero hinv₀ hready hm
  have hone := List.count_eq_one_of_mem hready.requests_nodup hm
  have hnew := hsent m hm
  have hall : (batches.flatten.map SendArgs.mbuf).count m =
      (r₀.batches.flatten.map SendArgs.mbuf).count m +
        if cfg.echoMode = true ∧ ret = 0 then 1 else 0 := by
    rw [show batches = r₀.batches ++ sent from hbatches, List.flatten_append, List.map_append,
      List.count_append, hnew]
  replace hposts := hposts.trans hall
  dsimp only at hcount hposts ⊢
  split at hposts
  case isTrue hecho =>
    rw [if_pos hecho, List.count_nil]
    omega
  case isFalse hecho =>
    rw [if_neg hecho, hone]
    omega

/-- When `post_mbufs` is called, the chains that wait are released as before, and the new
ones are released inside. -/
theorem releasesInside_call (hinv₀ : Inv fuel r₀) (hws : WorkingSetPlaced cfg)
    (hready : BatchReady cfg fuel r₀.run.st requests) {st₁ : State}
    (hprepare : prepareReplies cfg fuel requests r₀.run.st = some (.ok heads, st₁))
    (hinside : cfg.echoMode = false →
      ∀ request ∈ requests, ReplyInside cfg numRefcntArrays r₀.run.st request)
    (hreleases : ReleasesInside cfg numRefcntArrays r₀) :
    ReleasesInside cfg numRefcntArrays ⟨⟨st₁, r₀.run.reported⟩,
      PostMbufs.loop (replyArgs cfg st₁ heads) 0, r₀.batches ++ [replyArgs cfg st₁ heads]⟩ := by
  have hprepared := prepared_of_prepareReplies hready hprepare
  intro m hm
  rw [remaining_loop, map_mbuf_replyArgs] at hm
  rcases List.mem_append.mp hm with hout | hnew
  · rw [hprepared.outstanding_eq] at hout
    obtain ⟨s, hs, rfl⟩ := List.mem_map.mp hout
    obtain ⟨nodes, hchain⟩ := chainsEnd_of_inv hinv₀ s hs
    -- building the replies leaves the chains that wait alone
    refine (hreleases _ (List.mem_append_left _ hout)).congr hchain fun a ha => ?_
    obtain ⟨hfree, hrequest⟩ := hready.apart s hs nodes hchain a ha
    exact .of_eq (hprepared.frame a hfree hrequest)
  · exact releaseInside_of_built hws hready hprepare hinside hnew

/-- **A batch whose replies are built** inside releases its packets once. -/
theorem posted_once (hreach : Reachable Init (Step cfg fuel) r₀) (hctl₀ : r₀.ctl = none)
    (hready : BatchReady cfg fuel r₀.run.st requests) (hws : WorkingSetPlaced cfg) {st₁ : State}
    (hprepare : prepareReplies cfg fuel requests r₀.run.st = some (.ok heads, st₁))
    (hinside : cfg.echoMode = false →
      ∀ request ∈ requests, ReplyInside cfg numRefcntArrays r₀.run.st request)
    (hreleases : ReleasesInside cfg numRefcntArrays r₀)
    (hposts : Posting cfg numRefcntArrays fuel ⟨⟨st₁, r₀.run.reported⟩,
      PostMbufs.loop (replyArgs cfg st₁ heads) 0, r₀.batches ++ [replyArgs cfg st₁ heads]⟩ res) :
    ReleasedExactlyOnce cfg fuel requests r₀ (res.bind (finishBatch cfg fuel requests 0)) := by
  have hinv₀ := Inv.of_reachable hreach
  have hcalled := releasesInside_call hinv₀ hws hready hprepare hinside hreleases
  have hprepared := prepared_of_prepareReplies hready hprepare
  have hlegal := hprepared.legalBatch hready (chainsEnd_of_inv hinv₀)
  have hbuilt : Reachable Init (Step cfg fuel) ⟨⟨st₁, r₀.run.reported⟩, none, r₀.batches⟩ := by
    obtain ⟨⟨st, reported⟩, ctl, batches⟩ := r₀
    obtain rfl : ctl = none := hctl₀
    exact hreach.step (.app (hprepared.appStep hready))
  obtain ⟨r₁, rfl, hreach₁, hctl₁, hbatches, hheap⟩ :=
    hposts.reachable (hbuilt.step (.call hlegal)) hcalled
  refine finishBatch_once hinv₀ hctl₀ hready hreach₁ hctl₁ hbatches ?_ (.inr rfl) ?_
  · exact fun m hm => (hprepared.received m hm).sameButWqes hheap
  · intro m hm
    rw [List.flatten_singleton, map_mbuf_replyArgs]
    have horigin := hprepared.origin
    split at horigin
    case isTrue hecho =>
      rw [if_pos ⟨hecho, rfl⟩, horigin]
      exact List.count_eq_one_of_mem hready.requests_nodup hm
    case isFalse hecho =>
      rw [if_neg fun h => hecho h.1]
      exact List.count_eq_zero.mpr fun hmem => hready.fresh m hm (horigin m hmem)

/-- **A batch that cannot be echoed** releases its packets once. -/
theorem echoFailed_once (hreach : Reachable Init (Step cfg fuel) r₀) (hctl₀ : r₀.ctl = none)
    (hready : BatchReady cfg fuel r₀.run.st requests) (hecho : cfg.echoMode = true) {ret : Int32}
    {st₁ : State} (hprepare : echoRequests cfg requests [] r₀.run.st = (.error ret, st₁)) :
    ReleasedExactlyOnce cfg fuel requests r₀
      (finishBatch cfg fuel requests ret ⟨⟨st₁, r₀.run.reported⟩, r₀.ctl, r₀.batches⟩) := by
  have hinv₀ := Inv.of_reachable hreach
  have hkeeps := echoRequests_keeps hprepare
  have happ := echoRequests_appStep hready hprepare
  -- the error code of the echo branch
  have hret : ret ≠ 0 := by
    have hres := echoRequests_eq cfg requests [] r₀.run.st
    rw [hprepare] at hres
    dsimp only at hres
    split at hres
    · simp at hres
    · rw [Except.error.inj hres]
      decide
  have hbuilt : Reachable Init (Step cfg fuel) ⟨⟨st₁, r₀.run.reported⟩, r₀.ctl, r₀.batches⟩ := by
    obtain ⟨⟨st, reported⟩, ctl, batches⟩ := r₀
    obtain rfl : ctl = none := hctl₀
    exact hreach.step (.app happ)
  refine finishBatch_once hinv₀ hctl₀ hready hbuilt hctl₀ (List.append_nil _).symm ?_ (.inl hecho) ?_
  · intro m hm
    have hreceived := hready.received m hm
    exact ⟨by rw [hkeeps.head, hreceived.head], by rw [hkeeps.release, hreceived.release]⟩
  · intro m _
    rw [if_neg fun h => hret h.2]
    rfl

/-- **A batch without replies** outside echo mode ends in a null pointer, if not before:
the failure path nulls the entries that the second loop frees. -/
theorem servesBatch_none (hready : BatchReady cfg fuel r₀.run.st requests)
    (hecho : cfg.echoMode = false) (hshort : ¬ PoolsSuffice cfg r₀.run.st requests.length) :
    ServesBatch cfg numRefcntArrays fuel requests r₀ none := by
  by_cases hinside : PrepareInside cfg numRefcntArrays requests r₀.run.st
  case neg => exact .outside hinside
  have hprepare : prepareReplies cfg fuel requests r₀.run.st =
      buildReplies cfg fuel requests [] r₀.run.st := if_neg (ne_true_of_eq_false hecho)
  have hnotOk := (@buildReplies_isOk_iff cfg fuel requests r₀.run.st hready.nodup
    hready.fresh).not.mpr hshort
  rcases hbuild : buildReplies cfg fuel requests [] r₀.run.st with _ | ⟨ret | heads, st₁⟩
  case none => exact .crash hinside (hprepare.trans hbuild)
  case some.ok => exact absurd ⟨heads, st₁, hbuild⟩ hnotOk
  case some.error =>
    have hret : ret ≠ 0 := by
      rcases buildReplies_cases cfg fuel requests [] r₀.run.st with
        ⟨built, st', -, hok⟩ | ⟨done, request, rest, built, st', -, -, hstop⟩
      · simp [hbuild] at hok
      · rw [hbuild] at hstop
        rcases hstop.result with hnone | ⟨st'', herror⟩
        · simp at hnone
        · simp only [Option.some.injEq, Prod.mk.injEq, Except.error.injEq] at herror
          rw [herror.1]
          decide
    -- an empty batch needs nothing from the pools
    have hne : requests ≠ [] := by
      rintro rfl
      refine hshort ?_
      unfold PoolsSuffice
      split <;> simp
    have hfinish : finishBatch cfg fuel requests ret ⟨⟨st₁, r₀.run.reported⟩, r₀.ctl, r₀.batches⟩ =
        none := by
      obtain ⟨m, ms, rfl⟩ := List.exists_cons_of_ne_nil hne
      -- freeing a nulled entry
      have hnull : ∀ st : State,
          ((m :: ms).map fun _ => (none : Option Addr)).foldlM (mbufFree cfg fuel) st = none :=
        fun _ => rfl
      simp only [finishBatch, cleanupBatch, ne_eq, hret, not_false_eq_true, if_true, hecho,
        Bool.false_eq_true, if_false, hnull]
      simp
    exact hfinish ▸ .failed hinside (hprepare.trans hbuild)

/-- **Each packet of a batch is released exactly once**, in every outcome, exactly when the
server echoes, or the pools have what the replies take and every reply stays inside what
was allocated. -/
theorem requests_released_once_iff (hreach : Reachable Init (Step cfg fuel) r₀)
    (hctl : r₀.ctl = none) (hready : BatchReady cfg fuel r₀.run.st requests)
    (hws : WorkingSetPlaced cfg) (hreleases : ReleasesInside cfg numRefcntArrays r₀) :
    (∀ res, ServesBatch cfg numRefcntArrays fuel requests r₀ res →
      ReleasedExactlyOnce cfg fuel requests r₀ res) ↔
        (cfg.echoMode = true ∨ PoolsSuffice cfg r₀.run.st requests.length ∧
          ∀ request ∈ requests, ReplyInside cfg numRefcntArrays r₀.run.st request) := by
  have hbuildInside := @buildInside_iff cfg numRefcntArrays r₀.run.st requests 0 hws
    hready.segments hready.nodup hready.fresh
  constructor
  · intro h
    by_contra hneither
    rw [not_or] at hneither
    have hecho : cfg.echoMode = false := by simpa using hneither.1
    refine h none ?_
    by_cases hpools : PoolsSuffice cfg r₀.run.st requests.length
    · -- a reply goes outside
      refine .outside fun hinside => hneither.2 ⟨hpools, ?_⟩
      exact (hbuildInside hpools).mp (hinside hecho)
    · exact servesBatch_none hready hecho hpools
  · rintro hcond res hserves
    have hinside : cfg.echoMode = false →
        ∀ request ∈ requests, ReplyInside cfg numRefcntArrays r₀.run.st request := fun hecho =>
      (hcond.resolve_left (by simp [hecho])).2
    -- outside echo mode the replies are built when the pools suffice
    have hbuild : ¬ cfg.echoMode = true → ∃ heads st₁,
        buildReplies cfg fuel requests [] r₀.run.st = some (.ok heads, st₁) := fun hecho =>
      (buildReplies_isOk_iff hready.nodup hready.fresh).mpr (hcond.resolve_left hecho).1
    cases hserves with
    | posted _ hprepare hposts =>
      exact posted_once hreach hctl hready hws hprepare hinside hreleases hposts
    | outside houtside =>
      refine absurd (fun hecho => ?_) houtside
      exact (hbuildInside (hcond.resolve_left (by simp [hecho])).1).mpr (hinside hecho)
    | crash _ hprepare =>
      unfold prepareReplies at hprepare
      split at hprepare
      case isTrue => simp at hprepare
      case isFalse hecho =>
        obtain ⟨heads, st₁, hok⟩ := hbuild hecho
        simp [hok] at hprepare
    | failed _ hprepare =>
      unfold prepareReplies at hprepare
      split at hprepare
      case isTrue hecho =>
        exact echoFailed_once hreach hctl hready hecho (Option.some.inj hprepare)
      case isFalse hecho =>
        obtain ⟨heads, st₁, hok⟩ := hbuild hecho
        simp [hok] at hprepare

/-- An idle program and received packets of 100 bytes, with `count` replies' mbufs at
`0x100000`. -/
def receivedState (count : ℕ) : State :=
  { State.zeroed 128 128 with
    heap := fun a => { Mbuf.zeroed with
      head := a, data := a + 128, len := 100, release := some .rxCompletion }
    mbufMempool := ⟨fun i => 0x100000 + UInt64.ofNat i, 0, count, 256⟩ }

theorem receivedState_init (count : ℕ) : Init ⟨⟨receivedState count, 0⟩, none, []⟩ where
  run :=
    { size := ⟨7, by decide, rfl⟩
      sqHead := rfl
      cqHead := rfl
      trueCqHead := rfl
      trace := rfl
      reported := rfl
      reports := (by decide +kernel : (Cq.deviceOwned 128).Reports mlx5CqeReq 0 []) }
  ctl := rfl
  batches := rfl

theorem receivedState_ready (cfg : Config) {count : ℕ} {requests : List Addr}
    (hnodup : (receivedState count).mbufMempool.freeList.Nodup)
    (hfresh : ∀ r ∈ requests, r ∉ (receivedState count).mbufMempool.freeList)
    (hrequests : requests.Nodup) (hsegments : cfg.numSegments.toNat ≤ maxScatters) :
    BatchReady cfg 32 (receivedState count) requests where
  nodup := hnodup
  fresh := hfresh
  requests_nodup := hrequests
  received := fun _ _ => ⟨rfl, rfl⟩
  segments := hsegments
  fuel := le_rfl
  apart := fun s hs => absurd hs (List.not_mem_nil (a := s))

/-- Nothing waits for its release there. -/
theorem receivedState_releases (cfg : Config) (count : ℕ) :
    ReleasesInside cfg 1 ⟨⟨receivedState count, 0⟩, none, []⟩ := by
  intro m hm
  simp [receivedState, State.zeroed, Event.outstanding, Event.posts, Event.gathers, remaining] at hm

/-- A server that counts its references and reads what it receives. -/
def checkingServer : Config := { refCountingServer with readIncomingPacket := true }

theorem workingSetPlaced_checkingServer : WorkingSetPlaced checkingServer :=
  ⟨by decide, by decide, by decide⟩

/-- One request for region 0, answered from the only mbuf and posted. -/
theorem requests_released_once_oneReply :
    ∃ res, ServesBatch checkingServer 1 32 [0x5000] ⟨⟨receivedState 1, 0⟩, none, []⟩ res ∧
      ReleasedExactlyOnce checkingServer 32 [0x5000] ⟨⟨receivedState 1, 0⟩, none, []⟩ res := by
  have hlist : (receivedState 1).mbufMempool.freeList = [0x100000] := by decide
  have hready : BatchReady checkingServer 32 (receivedState 1) [0x5000] := by
    apply receivedState_ready
    · rw [hlist]
      exact List.nodup_singleton _
    · rw [hlist]
      simp
    · exact List.nodup_singleton _
    · decide
  have hpools : PoolsSuffice checkingServer (receivedState 1) 1 := by decide
  have hreply : ∀ request ∈ [0x5000], ReplyInside checkingServer 1 (receivedState 1) request := by
    intro request hrequest
    obtain rfl := List.mem_singleton.mp hrequest
    have hsegments : requestedSegments checkingServer (receivedState 1) 0x5000 = [0] := by
      decide +kernel
    refine ⟨fun _ => (checksumInside_iff (by decide) (by decide)).mpr (by decide), fun _ => by decide,
      fun _ _ segment hsegment => ?_, by decide⟩
    obtain rfl : segment = 0 := by simpa [hsegments] using hsegment
    decide
  -- the reply is built and sent, and nothing is freed meanwhile
  have hruns : (prepareReplies checkingServer 32 [0x5000] (receivedState 1)).bind (fun (res, st) =>
      res.toOption.bind fun heads => (PostMbufs.loop (replyArgs checkingServer st heads) 0).bind
        fun c => c.batch[c.i]?.bind fun a =>
          (mlx5TransmitOne checkingServer 32 st a.mbuf a.requestHeader a.inlineLen).map
            fun (ret, st') => ((c.resume ret).isNone, Event.frees st'.trace)) = some (true, []) := by
    decide +kernel
  obtain ⟨⟨res, st⟩, hprepare, hrest⟩ := Option.bind_eq_some_iff.mp hruns
  obtain ⟨heads, hheads, hrest⟩ := Option.bind_eq_some_iff.mp hrest
  obtain ⟨c, hloop, hrest⟩ := Option.bind_eq_some_iff.mp hrest
  obtain ⟨a, ha, hrest⟩ := Option.bind_eq_some_iff.mp hrest
  obtain ⟨⟨ret, st'⟩, hcall, heq⟩ := Option.map_eq_some_iff.mp hrest
  obtain ⟨hresume, hfrees⟩ := Prod.mk.inj heq
  cases res with
  | error ret => simp [Except.toOption] at hheads
  | ok heads' =>
    obtain rfl : heads' = heads := Option.some.inj hheads
    have hposts : Posting checkingServer 1 32 ⟨⟨st, 0⟩,
        PostMbufs.loop (replyArgs checkingServer st heads') 0,
        [replyArgs checkingServer st heads']⟩
        (some ⟨⟨st', 0⟩, c.resume ret, [replyArgs checkingServer st heads']⟩) := by
      rw [hloop]
      refine .step (by simp) (.send ha hcall) (fun m hm => ?_)
        (.done (Option.isNone_iff_eq_none.mp hresume))
      simp [hfrees] at hm
    have hserves : ServesBatch checkingServer 1 32 [0x5000] ⟨⟨receivedState 1, 0⟩, none, []⟩ _ :=
      .posted (fun _ => (buildInside_iff workingSetPlaced_checkingServer hready.segments hready.nodup
        hready.fresh hpools).mpr hreply) hprepare hposts
    exact ⟨_, hserves, (requests_released_once_iff (.init (receivedState_init 1)) rfl hready
      workingSetPlaced_checkingServer (receivedState_releases _ 1)).mpr (.inr ⟨hpools, hreply⟩) _
      hserves⟩

/-- Two requests and one mbuf: the first request is freed, then a null pointer. -/
theorem requests_not_released_twoRequests :
    ¬ ∀ (cfg : Config) (numRefcntArrays : UInt64) (fuel : ℕ) (requests : List Addr) (r₀ : PostRun),
      Reachable Init (Step cfg fuel) r₀ → r₀.ctl = none → BatchReady cfg fuel r₀.run.st requests →
      WorkingSetPlaced cfg → ReleasesInside cfg numRefcntArrays r₀ →
      ∀ res, ServesBatch cfg numRefcntArrays fuel requests r₀ res →
        ReleasedExactlyOnce cfg fuel requests r₀ res := by
  intro hclaim
  have hlist : (receivedState 1).mbufMempool.freeList = [0x100000] := by decide
  have hready : BatchReady checkingServer 32 (receivedState 1) [0x5000, 0x5100] := by
    apply receivedState_ready
    · rw [hlist]
      exact List.nodup_singleton _
    · rw [hlist]
      simp
    · simp
    · decide
  exact hclaim _ _ _ _ _ (.init (receivedState_init 1)) rfl hready workingSetPlaced_checkingServer
    (receivedState_releases _ 1) none (servesBatch_none hready rfl (by decide))

end Mlx5Netperf
