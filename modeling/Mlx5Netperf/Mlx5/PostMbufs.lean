import Mlx5Netperf.Mlx5.SendRun

/-!
# Posting Batches

`post_mbufs` of `main.c` and `mlx5_transmit_batch` of `mlx5_rxtx.c`. Their two
nested loops are modelled by where they stand between two calls of
`mlx5_transmit_one`, so that the device may report completions there.
-/

namespace Mlx5Netperf

open SendFifo Transition

/-! ## The loops -/

/-- The arguments of one `mlx5_transmit_one` call. -/
structure SendArgs where
  mbuf : Addr
  requestHeader : Option RequestHeader
  inlineLen : ℕ

/-- `post_mbufs` about to send packet `i`: its own `total_sent`, and `start_index`
of the `mlx5_transmit_batch` call it is in. -/
structure PostMbufs where
  batch : List SendArgs
  totalSent : ℕ
  startIndex : ℕ
  i : ℕ

namespace PostMbufs

/-- The test `total_sent < ct`: another `mlx5_transmit_batch` call starting at
`total_sent`, or the end. -/
def loop (batch : List SendArgs) (totalSent : ℕ) : Option PostMbufs :=
  if totalSent < batch.length then some ⟨batch, totalSent, totalSent, totalSent⟩ else none

/-- After `mlx5_transmit_one` returned `ret` for packet `i`: a refusal makes
`mlx5_transmit_batch` return `i - start_index`, the last packet makes it return
`burst_size - start_index`, and `post_mbufs` adds what it returned to `total_sent`. -/
def resume (c : PostMbufs) (ret : ℕ) : Option PostMbufs :=
  if ret ≠ 1 then loop c.batch (c.totalSent + (c.i - c.startIndex))
  else if c.i + 1 < c.batch.length then some { c with i := c.i + 1 }
  else loop c.batch (c.totalSent + (c.batch.length - c.startIndex))

/-- The loops stand before a packet that is there, and the current call started
where the earlier ones left off. -/
structure Ok (c : PostMbufs) : Prop where
  lt : c.i < c.batch.length
  start : c.startIndex = c.totalSent
  le : c.totalSent ≤ c.i

/-- **Resumption**: the loops go on with the same packet after a refusal and
with the next one after a success, and end after the last. -/
theorem Ok.resume {c : PostMbufs} (h : c.Ok) (ret : ℕ) :
    (∃ c', c.resume ret = some c' ∧ c'.Ok ∧ c'.batch = c.batch ∧
      c'.i = if ret = 1 then c.i + 1 else c.i) ∨
    (c.resume ret = none ∧ ret = 1 ∧ c.i + 1 = c.batch.length) := by
  obtain ⟨hlt, hstart, hle⟩ := h
  by_cases hret : ret = 1
  · by_cases hmore : c.i + 1 < c.batch.length
    · exact .inl ⟨{ c with i := c.i + 1 }, by simp [PostMbufs.resume, hret, hmore],
        ⟨hmore, hstart, by simp only; omega⟩, rfl, by simp [hret]⟩
    -- the last packet was sent, and nothing is left to call for
    · refine .inr ⟨?_, hret, by omega⟩
      have hend : ¬ c.totalSent + (c.batch.length - c.startIndex) < c.batch.length := by omega
      simp [PostMbufs.resume, hret, hmore, loop, hend]
  -- refused: the next call starts with the packet that was not sent
  · have hagain : c.totalSent + (c.i - c.startIndex) = c.i := by omega
    exact .inl ⟨⟨c.batch, c.i, c.i, c.i⟩, by simp [PostMbufs.resume, hret, loop, hagain, hlt],
      ⟨hlt, rfl, le_rfl⟩, rfl, by simp [hret]⟩

theorem Ok.loop {batch : List SendArgs} {c : PostMbufs} (h : PostMbufs.loop batch 0 = some c) :
    c.Ok ∧ c.batch = batch ∧ c.i = 0 := by
  unfold PostMbufs.loop at h
  split at h
  · rename_i hpos
    obtain rfl := Option.some.inj h
    exact ⟨⟨hpos, rfl, le_rfl⟩, rfl, rfl⟩
  · simp at h

end PostMbufs

/-! ## Runs -/

/-- The send ring, where `post_mbufs` stands in its loops, and the batches it
was given so far. -/
structure PostRun where
  run : SendRun
  ctl : Option PostMbufs
  batches : List (List SendArgs)

namespace PostRun

/-- Nothing was sent and `post_mbufs` is not running. -/
structure Init (r : PostRun) : Prop where
  run : SendRun.Init r.run
  ctl : r.ctl = none
  batches : r.batches = []

/-- A batch whose chains are legal to send, each of them once. -/
structure LegalBatch (fuel : ℕ) (heap : Heap) (outstanding : List Send)
    (batch : List SendArgs) : Prop where
  legal : ∀ a ∈ batch, LegalSend fuel heap outstanding a.mbuf a.requestHeader a.inlineLen
  nodup : (batch.map SendArgs.mbuf).Nodup

/-- One step of the program and the device. -/
inductive Step (cfg : Config) (fuel : ℕ) : PostRun → PostRun → Prop where
  /-- The device reports completions, at any moment between two sends. -/
  | nic {run run' : SendRun} {ctl : Option PostMbufs} {batches : List (List SendArgs)}
      (hnic : SendRun.NicStep run run') : Step cfg fuel ⟨run, ctl, batches⟩ ⟨run', ctl, batches⟩
  /-- The rest of the program runs, outside `post_mbufs`. -/
  | app {st st' : State} {reported : ℕ} {batches : List (List SendArgs)}
      (happ : SendRun.AppStep st st') :
      Step cfg fuel ⟨⟨st, reported⟩, none, batches⟩ ⟨⟨st', reported⟩, none, batches⟩
  /-- `post_mbufs` is called. -/
  | call {run : SendRun} {batches : List (List SendArgs)} {batch : List SendArgs}
      (hlegal : LegalBatch fuel run.st.heap (Event.outstanding run.st.trace) batch) :
      Step cfg fuel ⟨run, none, batches⟩ ⟨run, PostMbufs.loop batch 0, batches ++ [batch]⟩
  /-- The loops send one packet, or are refused. -/
  | send {st st' : State} {reported ret : ℕ} {c : PostMbufs} {a : SendArgs}
      {batches : List (List SendArgs)} (ha : c.batch[c.i]? = some a)
      (hcall : mlx5TransmitOne cfg fuel st a.mbuf a.requestHeader a.inlineLen = some (ret, st')) :
      Step cfg fuel ⟨⟨st, reported⟩, some c, batches⟩ ⟨⟨st', reported⟩, c.resume ret, batches⟩

/-- `posted` are the packets of all batches up to where the loops stand. -/
def Progress (batches : List (List SendArgs)) (posted : List SendArgs) : Option PostMbufs → Prop
  | none => posted = batches.flatten
  | some c => c.Ok ∧ ∃ earlier, batches = earlier ++ [c.batch] ∧
      posted = earlier.flatten ++ c.batch.take c.i

/-- The packets of the current batch that are still to be sent. -/
def remaining : Option PostMbufs → List SendArgs
  | none => []
  | some c => c.batch.drop c.i

/-- Before its first packet `post_mbufs` has the whole batch to send. -/
theorem remaining_loop (batch : List SendArgs) : remaining (PostMbufs.loop batch 0) = batch := by
  rcases hloop : PostMbufs.loop batch 0 with _ | c
  -- `post_mbufs` returns at once: the batch is empty
  · cases batch with
    | nil => rfl
    | cons a batch => simp [PostMbufs.loop] at hloop
  · obtain ⟨-, rfl, hi⟩ := PostMbufs.Ok.loop hloop
    rw [remaining, hi, List.drop_zero]

/-- A refused packet stays the next one; a sent one is gone. -/
theorem remaining_resume {c : PostMbufs} (hok : c.Ok) (ret : ℕ) :
    remaining (c.resume ret) = c.batch.drop (if ret = 1 then c.i + 1 else c.i) := by
  rcases hok.resume ret with ⟨c', hresume, -, hbatch, hi⟩ | ⟨hresume, hret, hlast⟩
  · rw [hresume, remaining, hbatch, hi]
  · rw [hresume, remaining, if_pos hret, hlast, List.drop_length]

theorem legalBatch_nil {fuel : ℕ} {heap : Heap} {outstanding : List Send} :
    LegalBatch fuel heap outstanding [] := ⟨by simp, by simp⟩

/-- What holds between two sends. -/
structure Inv (fuel : ℕ) (r : PostRun) : Prop where
  ring : SendRun.Inv fuel r.run
  progress : ∃ posted, Progress r.batches posted r.ctl ∧
    (Event.posts r.run.st.trace).map Send.mbuf = posted.map SendArgs.mbuf
  legal : LegalBatch fuel r.run.st.heap (Event.outstanding r.run.st.trace) (remaining r.ctl)

variable {cfg : Config} {fuel : ℕ}

theorem Init.inv {r : PostRun} (h : Init r) : Inv fuel r := by
  obtain ⟨run, ctl, batches⟩ := r
  obtain ⟨hrun, rfl, rfl⟩ := h
  refine ⟨hrun.inv, ⟨[], rfl, ?_⟩, legalBatch_nil⟩
  have htrace : run.st.trace = [] := hrun.trace
  simp [htrace, Event.posts]

/-- Calling `post_mbufs` puts its loops before the first packet. -/
theorem call_inv {run : SendRun} {batches : List (List SendArgs)} {batch : List SendArgs}
    (hinv : Inv fuel ⟨run, none, batches⟩)
    (hlegal : LegalBatch fuel run.st.heap (Event.outstanding run.st.trace) batch) :
    Inv fuel ⟨run, PostMbufs.loop batch 0, batches ++ [batch]⟩ := by
  obtain ⟨posted, rfl, hposts⟩ := hinv.progress
  rcases hloop : PostMbufs.loop batch 0 with _ | c
  · -- an empty batch is over at once
    have hempty : batch = [] := by
      rcases batch with _ | ⟨a, batch⟩
      · rfl
      · simp [PostMbufs.loop] at hloop
    exact ⟨hinv.ring, ⟨_, rfl, by simpa [hempty] using hposts⟩, legalBatch_nil⟩
  · obtain ⟨hok, rfl, hi⟩ := PostMbufs.Ok.loop hloop
    refine ⟨hinv.ring, ⟨batches.flatten, ⟨hok, batches, rfl, by simp [hi]⟩, hposts⟩, ?_⟩
    simpa [remaining, hi] using hlegal

/-- One `mlx5_transmit_one` call of the loops moves on with the packet if, and
only if, it was sent. -/
theorem send_inv {st st' : State} {reported ret : ℕ} {c : PostMbufs} {a : SendArgs}
    {batches : List (List SendArgs)} (hinv : Inv fuel ⟨⟨st, reported⟩, some c, batches⟩)
    (ha : c.batch[c.i]? = some a)
    (hcall : mlx5TransmitOne cfg fuel st a.mbuf a.requestHeader a.inlineLen = some (ret, st')) :
    Inv fuel ⟨⟨st', reported⟩, c.resume ret, batches⟩ := by
  obtain ⟨q, hq, hpending⟩ := hinv.ring
  obtain ⟨posted, ⟨hok, earlier, rfl, rfl⟩, hposts⟩ := hinv.progress
  -- the packet that is sent is the first of those that remain
  obtain ⟨hlt, hget⟩ := List.getElem?_eq_some_iff.mp ha
  have hdrop : c.batch.drop c.i = a :: c.batch.drop (c.i + 1) := by
    rw [List.drop_eq_getElem_cons hlt, hget]
  have htake : c.batch.take (c.i + 1) = c.batch.take c.i ++ [a] := by
    rw [List.take_add_one, ha]
    rfl
  obtain ⟨hlegal, hnodup⟩ := hinv.legal
  simp only [remaining, hdrop, hq.run.outstanding_eq, List.map_cons, List.nodup_cons] at hlegal hnodup
  obtain ⟨ret', st'', q', hcall', hq', hpending', hcase⟩ :=
    mlx5TransmitOne_outcome cfg hq hpending (hlegal a (List.mem_cons_self ..))
  obtain ⟨rfl, rfl⟩ := Prod.mk.inj (Option.some.inj (hcall.symm.trans hcall'))
  have hring : SendRun.Inv fuel ⟨st', reported⟩ := ⟨q', hq', hpending'⟩
  have houtstanding : Event.outstanding st'.trace = q'.outstanding := hq'.run.outstanding_eq
  rcases hcase with ⟨rfl, hsame, hsub⟩ | ⟨rfl, hsent, hsub⟩
  · -- refused: the same packet is next
    rcases hok.resume 0 with ⟨c', hresume, hok', hbatch, hi⟩ | ⟨-, hzero, -⟩
    · simp only [Nat.zero_ne_one, if_false] at hi
      refine ⟨hring, ⟨earlier.flatten ++ c.batch.take c.i, ?_, by rw [hsame.posts]; exact hposts⟩, ?_⟩
      · rw [hresume]
        exact ⟨hok', earlier, by rw [hbatch], by rw [hbatch, hi]⟩
      · rw [hresume]
        simp only [remaining, hbatch, hi, hdrop, houtstanding]
        rw [hsame.heap]
        exact ⟨fun b hb => (hlegal b hb).mono (.refl _) fun s hs => .inl (hsub s hs),
          List.nodup_cons.mpr hnodup⟩
    · exact absurd hzero (by decide)
  · -- sent: the packets behind it keep their chains and stay fresh
    have hrest : LegalBatch fuel st'.heap (Event.outstanding st'.trace) (c.batch.drop (c.i + 1)) := by
      refine ⟨fun b hb => ?_, hnodup.2⟩
      rw [houtstanding, hsent.heap]
      refine (hlegal b (List.mem_cons_of_mem _ hb)).mono (Heap.sameButWqes_modify _ _ _) fun s hs => ?_
      rcases hsub s hs with hold | hnew
      · exact .inl hold
      -- each chain is in the batch once
      · refine .inr fun heq => hnodup.1 (List.mem_map.mpr ⟨b, hb, ?_⟩)
        rw [← heq, hnew]
    have hposts' : (Event.posts st'.trace).map Send.mbuf =
        (earlier.flatten ++ c.batch.take (c.i + 1)).map SendArgs.mbuf := by
      simp only [hsent.posts, List.map_append, htake] at hposts ⊢
      rw [hposts, List.append_assoc]
      rfl
    rcases hok.resume 1 with ⟨c', hresume, hok', hbatch, hi⟩ | ⟨hresume, -, hlast⟩
    · simp only [if_true] at hi
      rw [hresume]
      refine ⟨hring, ⟨_, ⟨hok', earlier, by rw [hbatch], rfl⟩, by rw [hbatch, hi]; exact hposts'⟩, ?_⟩
      simpa only [remaining, hbatch, hi] using hrest
    · rw [hresume]
      refine ⟨hring, ⟨_, rfl, ?_⟩, legalBatch_nil⟩
      rw [hlast, List.take_length] at hposts'
      simpa using hposts'

/-- Every step keeps the invariant. -/
theorem Step.inv {r r' : PostRun} (hinv : Inv fuel r) (hstep : Step cfg fuel r r') :
    Inv fuel r' := by
  cases hstep with
  | nic hnic =>
    obtain ⟨q, hq, hpending⟩ := hinv.ring
    have hq' := hnic.sendInv hq
    cases hnic
    exact ⟨⟨q, hq', hpending⟩, hinv.progress, hinv.legal⟩
  | app happ =>
    obtain ⟨q, hq, hpending⟩ := hinv.ring
    obtain ⟨posted, hprogress, hposts⟩ := hinv.progress
    -- the rest of the program posts nothing
    obtain ⟨tail, htrace, hquiet⟩ := happ.trace
    refine ⟨⟨q, happ.sendInv hq hpending, hpending⟩, ⟨posted, hprogress, ?_⟩, legalBatch_nil⟩
    simpa [htrace, Event.posts_eq_nil hquiet] using hposts
  | call hlegal => exact call_inv hinv hlegal
  | send ha hcall => exact send_inv hinv ha hcall

theorem Inv.of_reachable {r : PostRun} (h : Reachable Init (Step cfg fuel) r) : Inv fuel r :=
  Reachable.invariant (P := Inv fuel) (fun _ hinit => hinit.inv) (fun _ _ hinv hstep =>
    Step.inv hinv hstep) h

/-! ## Exactly once -/

/-- The chains that were posted are, in order, the packets of the batches:
all of them outside `post_mbufs`, and those before packet `i` inside it. -/
def PostsBatches (r : PostRun) : Prop :=
  match r.ctl with
  | none => (Event.posts r.run.st.trace).map Send.mbuf = r.batches.flatten.map SendArgs.mbuf
  | some c => ∃ earlier, r.batches = earlier ++ [c.batch] ∧
      (Event.posts r.run.st.trace).map Send.mbuf =
        (earlier.flatten ++ c.batch.take c.i).map SendArgs.mbuf

/-- A refused `mlx5_transmit_one` leaves the head, the `buffers` array and all
memory, the ring's bytes among it, unchanged. -/
def RefusalsHarmless (cfg : Config) (fuel : ℕ) (r : PostRun) : Prop :=
  ∀ m requestHeader inlineLen st',
    LegalSend fuel r.run.st.heap (Event.outstanding r.run.st.trace) m requestHeader inlineLen →
    mlx5TransmitOne cfg fuel r.run.st m requestHeader inlineLen = some (0, st') →
    st'.txq.sqHead = r.run.st.txq.sqHead ∧ st'.txq.buffers = r.run.st.txq.buffers ∧
      st'.mem = r.run.st.mem ∧ Event.posts st'.trace = Event.posts r.run.st.trace

/-- At every moment of the run the chains released are the first of those
gathered and these the first of those posted, in order; no chain is released
while it is outstanding; only reported completions are gathered; and between two
sends everything gathered has been released. -/
structure ReleasedOnce (r : PostRun) : Prop where
  ordered : ∀ tr, tr <+: r.run.st.trace →
    Event.frees tr <+: (Event.gathers tr).map Prod.snd ∧
      (Event.gathers tr).map Prod.snd <+: (Event.posts tr).map Send.mbuf
  notOutstanding : ∀ tr m, tr ++ [.freed m] <+: r.run.st.trace →
    m ∉ (Event.outstanding tr).map Send.mbuf
  reported : (Event.gathers r.run.st.trace).length ≤ r.run.reported
  complete : Event.frees r.run.st.trace = (Event.gathers r.run.st.trace).map Prod.snd

/-- **Each packet is sent exactly once and released exactly once, after completion.** -/
theorem posted_and_released_once {r : PostRun} (h : Reachable Init (Step cfg fuel) r) :
    PostsBatches r ∧ RefusalsHarmless cfg fuel r ∧ ReleasedOnce r := by
  have hinv := Inv.of_reachable h
  obtain ⟨q, hq, hpending⟩ := hinv.ring
  refine ⟨?_, ?_, ⟨?_, ?_, hq.gathered_le, ?_⟩⟩
  · obtain ⟨posted, hprogress, hposts⟩ := hinv.progress
    unfold PostsBatches
    rcases hctl : r.ctl with _ | c
    · rw [hctl] at hprogress
      obtain rfl : posted = r.batches.flatten := hprogress
      exact hposts
    · rw [hctl] at hprogress
      obtain ⟨-, earlier, hbatches, rfl⟩ := hprogress
      exact ⟨earlier, hbatches, hposts⟩
  · intro m requestHeader inlineLen st' hlegal hcall
    rw [hq.run.outstanding_eq] at hlegal
    obtain ⟨ret, st'', q', hcall', -, -, hcase⟩ := mlx5TransmitOne_outcome cfg hq hpending hlegal
    obtain ⟨rfl, rfl⟩ := Prod.mk.inj (Option.some.inj (hcall.symm.trans hcall'))
    rcases hcase with ⟨-, hsame, -⟩ | ⟨hone, -⟩
    · exact ⟨hsame.sqHead, hsame.buffers, hsame.mem, hsame.posts⟩
    · exact absurd hone (by decide)
  · intro tr hpre
    obtain ⟨q', hrun⟩ := hq.run.of_prefix hpre
    obtain ⟨done, hposts, hgathers, hfrees⟩ := hrun.split
    -- what was released, gathered and posted are prefixes of one another
    have hsnd : (Event.gathers tr).map Prod.snd = done.map Send.mbuf := by simp [hgathers]
    rw [hsnd, hposts, List.map_append]
    exact ⟨⟨q'.pending, hfrees⟩, List.prefix_append ..⟩
  · intro tr m hpre
    obtain ⟨q', hrun⟩ := hq.run.of_prefix hpre
    obtain ⟨q₀, hrun₀, hmem⟩ := hrun.pending_of_freed
    rw [hrun₀.outstanding_eq]
    intro hout
    -- a chain that waits for its release is not outstanding as well
    have hnodup := hrun₀.wellFormed.nodup
    exact (List.nodup_append.mp hnodup).2.2 m hmem m hout rfl
  · obtain ⟨done, -, hgathers, hfrees⟩ := hq.run.split
    rw [hpending, List.append_nil] at hfrees
    simp [hgathers, hfrees]

/-- A batch of five packets, one more than the ring has room for. -/
def fivePackets : List SendArgs := [7, 8, 9, 10, 11].map fun m => ⟨m, none, 0⟩

theorem fivePackets_legal :
    LegalBatch 1 SendRun.oneSend.heap (Event.outstanding SendRun.oneSend.trace) fivePackets where
  legal := by
    intro a ha
    obtain ⟨m, -, rfl⟩ := List.mem_map.mp ha
    exact SendRun.legalSend_of_single rfl rfl rfl (by simp [SendRun.oneSend, State.zeroed,
      Event.outstanding, Event.posts])
  nodup := by decide

/-- A call of `mlx5_transmit_one` that returns `ret` leads to the state after it. -/
theorem transmit_afterSend {st : State} {m : Addr} {ret : ℕ}
    (h : (mlx5TransmitOne Config.default 1 st m none 0).map Prod.fst = some ret) :
    mlx5TransmitOne Config.default 1 st m none 0 = some (ret, SendRun.afterSend st m) := by
  obtain ⟨⟨ret', st'⟩, hcall, rfl⟩ := Option.map_eq_some_iff.mp h
  rw [SendRun.afterSend, hcall]

/-- The fifth packet is refused until the first two were reported; its second try gathers
and releases them. -/
theorem posted_and_released_once_refused :
    ∃ r : PostRun, r.ctl = none ∧ r.batches = [fivePackets] ∧
      Event.frees r.run.st.trace = [7, 8] ∧
      PostsBatches r ∧ RefusalsHarmless Config.default 1 r ∧ ReleasedOnce r := by
  have hinit : Init ⟨⟨SendRun.oneSend, 0⟩, none, []⟩ := ⟨SendRun.oneSend_init, rfl, rfl⟩
  have hcalled : Reachable Init (Step Config.default 1) _ :=
    (Reachable.init hinit).step (.call fivePackets_legal)
  -- the four packets that fit, and the refused one
  have hfirst := hcalled.step (.send rfl (transmit_afterSend (by decide +kernel : _ = some 1)))
  have hsecond := hfirst.step (.send rfl (transmit_afterSend (by decide +kernel : _ = some 1)))
  have hthird := hsecond.step (.send rfl (transmit_afterSend (by decide +kernel : _ = some 1)))
  have hfourth := hthird.step (.send rfl (transmit_afterSend (by decide +kernel : _ = some 1)))
  have hrefused := hfourth.step (.send rfl (transmit_afterSend (by decide +kernel : _ = some 0)))
  have hreported := hrefused.step (.nic (.report (Nat.zero_le 2) (by decide +kernel)
    (by decide +kernel : SendRun.twoReported.Reports _ _ _)))
  have hsent := hreported.step (.send rfl (transmit_afterSend (by decide +kernel : _ = some 1)))
  refine ⟨_, rfl, rfl, ?_, posted_and_released_once hsent⟩
  decide +kernel

end PostRun

end Mlx5Netperf
