import Mathlib.Algebra.BigOperators.Ring.List
import Mlx5Netperf.Mlx5.CompletionRoom
import Mlx5Netperf.Server.CheckedRuns

/-!
# What Stops the Server

The program goes wrong at three places only: where a burst is larger than the free part
of the pool of packets, where the send pools cannot answer a batch, and where a reply
leaves what was allocated. Pools that cover both rings, one burst and one batch rule
the first two out.
-/

namespace Mlx5Netperf

open Transition PostRun

/-! ## Refilling from a pool that is too small -/

theorem mlx5RefillRxqueueLoop_eq_none {nrdesc : ℕ} {st : State}
    (h : st.rxBufMempool.freeList.length < nrdesc) : mlx5RefillRxqueueLoop nrdesc st = none := by
  induction nrdesc generalizing st with
  | zero => simp at h
  | succ nrdesc ih =>
    rw [mlx5RefillRxqueueLoop]
    cases halloc : mempoolAlloc st.rxBufMempool with
    | none => rfl
    | some taken =>
      obtain ⟨buf, pool⟩ := taken
      have hfree := congrArg List.length (freeList_of_mempoolAlloc halloc)
      rw [List.length_cons] at hfree
      exact ih (by simp only [State.repost]; omega)

/-- **A call returns** exactly when the pool can replace what it takes. -/
theorem ReceiveReady.returns_iff {st : State} {p budget : ℕ} {ring : List Addr}
    {counters : List UInt16} (h : ReceiveReady st.rxq p ring counters) :
    (∃ ms st', mlx5GatherRx st budget = some (ms, st')) ↔
      min budget counters.length ≤ st.rxBufMempool.freeList.length := by
  refine ⟨fun ⟨ms, st', hcall⟩ => ?_, h.returns⟩
  obtain ⟨st₁, hloop, hrest⟩ := mlx5GatherRx_cases hcall
  have hpolled : rxPoller.loop budget st = some (ms, st₁) := (mlx5GatherRxLoop_eq ..).symm.trans hloop
  have hlength := Poller.length_entries hpolled
  rw [h.length_entries] at hlength
  rcases hrest with ⟨rfl, -⟩ | ⟨-, hrefill⟩
  · rw [hlength]
    exact Nat.zero_le _
  · -- as many are refilled as were taken
    by_contra hless
    have hframe : st₁.ringRxCqDoorbell.rxBufMempool = st.rxBufMempool := by
      obtain ⟨-, rfl⟩ := Poller.loop_eq_some_iff.mp hpolled
      exact (takeAll_rx_frame ..).2
    rw [mlx5RefillRxqueue, mlx5RefillRxqueueLoop_eq_none (by rw [hframe]; omega)] at hrefill
    simp at hrefill

/-! ## Cleaning up -/

section Cleanup

variable {cfg : Config} {fuel : ℕ} {batch : List Addr} {ret : Int32} {st : State}

/-- The cleanup gets through unless a batch failed outside echo mode. -/
theorem exists_cleanupBatch (hret : ret = 0 ∨ cfg.echoMode = true)
    (hreceived : ¬ (cfg.echoMode = true ∧ ret = 0) → ∀ m ∈ batch, ReceivedMbuf st.heap m) :
    ∃ st', cleanupBatch (mbufFree cfg fuel) cfg.echoMode ret batch st = some st' := by
  unfold cleanupBatch
  by_cases hsent : cfg.echoMode = true ∧ ret = 0
  · exact ⟨st, by simp [hsent]⟩
  · obtain ⟨st', hfree, -⟩ := @foldlM_mbufFree cfg fuel batch st (hreceived hsent)
    by_cases hzero : ret = 0
    · have hecho : ¬ cfg.echoMode = true := fun hecho => hsent ⟨hecho, hzero⟩
      exact ⟨st', by simp only [hzero, hecho, ne_eq, not_true_eq_false, if_false, Bool.false_eq_true,
        hfree]⟩
    · have hecho := hret.resolve_left hzero
      exact ⟨st', by simp only [hzero, hecho, ne_eq, not_false_eq_true, if_true, hfree,
        Option.bind_some]⟩

end Cleanup

namespace ServerRun

variable {cfg : Config} {numRefcntArrays : UInt64} {fuel : ℕ} {I : Holding} {r r' : ServerRun}

theorem exists_finish {rest batch : List Addr} {ret : Int32} (hret : ret = 0 ∨ cfg.echoMode = true)
    (hreceived : ¬ (cfg.echoMode = true ∧ ret = 0) → ∀ m ∈ batch, ReceivedMbuf r.st.heap m) :
    ∃ r', finish cfg fuel rest batch ret r = some r' := by
  obtain ⟨st, hclean⟩ := @exists_cleanupBatch cfg fuel batch ret r.st hret hreceived
  exact ⟨_, by rw [finish, finishBatch, hclean]; rfl⟩

/-! ## Where the program stops -/

/-- The next step needs more than a pool has: a burst has to be replaced, or the batch
that the next packet completes has to be answered. -/
inductive Starved (cfg : Config) (r : ServerRun) : Prop where
  | refill (hphase : r.phase = .polling)
      (hpool : r.st.rxBufMempool.freeList.length < min burstSize (r.received - r.taken))
  | answer {pkt : Addr} {rest batch : List Addr} (hphase : r.phase = .burst (pkt :: rest) batch)
      (hecho : cfg.echoMode = false)
      (hvalid : checkValidPacket r.st.mem (r.st.heap pkt) cfg.serverMac ≠ none)
      (hcomplete : batch.length + 1 = batchSize ∨ rest = [])
      (hpools : ¬ PoolsSuffice cfg r.st (batch.length + 1))

/-- The packets that `do_server` has are received ones. -/
theorem Inv.received_hands (h : Inv cfg fuel I r) :
    ∀ m ∈ r.hands cfg.echoMode, ReceivedMbuf r.st.heap m := by
  obtain ⟨out, rest, -, -, hheld⟩ := h.held
  obtain ⟨ring, counters, hrx⟩ := hheld.packets
  exact fun m hm => hrx.hands m (List.mem_append_left _ hm)

/-- **A batch is processed** unless the send pools cannot answer it. -/
theorem processBatch_eq_none_iff {rest batch : List Addr} (hI : I.Distinct)
    (hsegments : cfg.numSegments.toNat ≤ maxScatters) (hfuel : maxScatters ≤ fuel)
    (hheld : ChainsHold cfg I r.taken r.received (batch ++ (rest ++ r.lost)) [] r.st)
    (hne : batch ≠ []) : processBatch cfg fuel rest batch r = none ↔
      cfg.echoMode = false ∧ ¬ PoolsSuffice cfg r.st batch.length := by
  have hready := hheld.batchReady hI hsegments hfuel
  unfold processBatch
  cases hecho : cfg.echoMode with
  | true =>
    simp only [Bool.true_eq_false, false_and, iff_false]
    -- sending packets back takes nothing from the pools
    have hprepare : prepareReplies cfg fuel batch r.st = some (echoRequests cfg batch [] r.st) :=
      if_pos hecho
    rw [hprepare]
    rcases hrequests : echoRequests cfg batch [] r.st with ⟨ret | heads, st⟩
    · have hkeeps := echoRequests_keeps hrequests
      dsimp only
      obtain ⟨r', hfinish⟩ := @exists_finish cfg fuel { r with post := r.post.withState st } rest batch
        ret (.inr hecho) fun _ m hm => by
          have hreceived := hready.received m hm
          exact ⟨(hkeeps.head m).trans hreceived.head, (hkeeps.release m).trans hreceived.release⟩
      rw [hfinish]
      simp
    · simp
  | false =>
    have hprepare : prepareReplies cfg fuel batch r.st = buildReplies cfg fuel batch [] r.st :=
      if_neg (by simp [hecho])
    rw [hprepare, ← buildReplies_isOk_iff hready.nodup hready.fresh]
    rcases hbuild : buildReplies cfg fuel batch [] r.st with _ | ⟨ret | heads, st⟩
    · simp
    · -- an error frees the packets twice
      have hret := prepareReplies_error_ne_zero (hprepare.trans hbuild)
      simp [finish, finishBatch, hecho, cleanupBatch_eq_none hne hret]
    · simp

/-- **One packet** is handled unless it completes a batch that cannot be answered. -/
theorem handlePacket_eq_none_iff {pkt : Addr} {rest batch : List Addr} (hI : I.Distinct)
    (hsegments : cfg.numSegments.toNat ≤ maxScatters) (hfuel : maxScatters ≤ fuel)
    (hinv : Inv cfg fuel I r) (hphase : r.phase = .burst (pkt :: rest) batch) :
    handlePacket cfg fuel pkt rest batch r = none ↔ Starved cfg r := by
  have hstarved : Starved cfg r ↔ cfg.echoMode = false ∧
      checkValidPacket r.st.mem (r.st.heap pkt) cfg.serverMac ≠ none ∧
      (batch.length + 1 = batchSize ∨ rest = []) ∧ ¬ PoolsSuffice cfg r.st (batch.length + 1) := by
    constructor
    · rintro (⟨hpolling, -⟩ | ⟨hburst, hecho, hvalid, hcomplete, hpools⟩)
      · simp [hphase] at hpolling
      · rw [hphase] at hburst
        obtain ⟨hpkt, rfl⟩ := ServerPhase.burst.inj hburst
        obtain ⟨rfl, rfl⟩ := List.cons.inj hpkt
        exact ⟨hecho, hvalid, hcomplete, hpools⟩
    · exact fun ⟨hecho, hvalid, hcomplete, hpools⟩ => .answer hphase hecho hvalid hcomplete hpools
  have hlength : (batch ++ [pkt]).length = batch.length + 1 := by simp
  rw [hstarved]
  unfold handlePacket
  split
  case h_1 hinvalid =>
    -- a rejected packet is a received one
    have hreceived := hinv.received_hands pkt (by simp [hands, hphase])
    rw [(RxRun.mbufFree_received hreceived).1]
    simp [hinvalid]
  case h_2 payload hvalid =>
    have hjoined := hinv.held_joined hphase
    dsimp only
    rw [hlength]
    split
    case isTrue hcomplete =>
      rw [processBatch_eq_none_iff hI hsegments hfuel hjoined (by simp), hlength]
      simp [hvalid, hcomplete]
    case isFalse hmore => simp [hmore]

/-- **The program stops** at its next step exactly when a pool lacks what the step needs. -/
theorem doServerStep_eq_none_iff (hI : I.Distinct) (hsegments : cfg.numSegments.toNat ≤ maxScatters)
    (hfuel : maxScatters ≤ fuel) (hinv : Inv cfg fuel I r) :
    doServerStep cfg fuel r = none ↔ Starved cfg r := by
  unfold doServerStep
  split
  case h_1 hphase =>
    obtain ⟨out, rest, -, -, hheld⟩ := hinv.held
    obtain ⟨ring, counters, hrx⟩ := hheld.packets
    have hwaiting : r.received - r.taken = counters.length := by
      have hreceived := hrx.received
      simp only at hreceived
      omega
    have hreturns := @ReceiveReady.returns_iff r.st r.taken burstSize ring counters hrx.ready
    rw [Option.map_eq_none_iff, ← not_iff_not, ← ne_eq, Option.ne_none_iff_exists']
    constructor
    · rintro ⟨⟨ms, st'⟩, hcall⟩ (⟨-, hpool⟩ | ⟨hburst⟩)
      · have hle := hreturns.mp ⟨ms, st', hcall⟩
        rw [hwaiting] at hpool
        omega
      · simp [hphase] at hburst
    · intro hfed
      obtain ⟨ms, st', hcall⟩ := hreturns.mpr (by
        by_contra hpool
        exact hfed (.refill hphase (by rw [hwaiting]; omega)))
      exact ⟨(ms, st'), hcall⟩
  case h_2 batch hphase =>
    simp only [reduceCtorEq, false_iff]
    rintro (⟨hpolling, -⟩ | ⟨hburst⟩)
    · simp [hphase] at hpolling
    · simp [hphase] at hburst
  case h_3 pkt rest batch hphase => exact handlePacket_eq_none_iff hI hsegments hfuel hinv hphase
  case h_4 rest batch hphase =>
    have hnot : ¬ Starved cfg r := by
      rintro (⟨hpolling, -⟩ | ⟨hburst⟩)
      · simp [hphase] at hpolling
      · simp [hphase] at hburst
    simp only [hnot, iff_false]
    rw [← ne_eq, Option.ne_none_iff_exists']
    split
    case h_1 hctl =>
      refine exists_finish (.inl rfl) fun hkept m hm => hinv.received_hands m ?_
      have hecho : ¬ cfg.echoMode = true := fun hecho => hkept ⟨hecho, rfl⟩
      simp [hands, hphase, hecho, hm]
    case h_2 c hctl =>
      obtain ⟨posted, hprogress, -⟩ := hinv.post.progress
      rw [hctl] at hprogress
      obtain ⟨hok, -⟩ := hprogress
      -- the loops stand before a packet of their batch, and its send returns
      have hlt := hok.lt
      have ha : c.batch[c.i]? = some c.batch[c.i] := List.getElem?_eq_getElem hlt
      obtain ⟨q, hq, hpending⟩ := hinv.post.ring
      have hlegal := hinv.post.legal.legal c.batch[c.i] (by
        rw [hctl, remaining, List.drop_eq_getElem_cons hlt]
        exact List.mem_cons_self ..)
      rw [hq.run.outstanding_eq] at hlegal
      obtain ⟨ret, st', q', hcall, -⟩ := mlx5TransmitOne_spec cfg hq hpending hlegal
      exact ⟨_, by rw [ha, Option.bind_some, hcall, Option.map_some]⟩

/-! ## Where it leaves what was allocated -/

/-- The next step builds a reply that leaves what was allocated: the checksum over its
request reads behind a buffer, there is no region to divide by, an id has no count, or
the copied regions are larger than a buffer. -/
inductive Astray (cfg : Config) (numRefcntArrays : UInt64) (r : ServerRun) : Prop where
  | answer {pkt request : Addr} {rest batch : List Addr} (hphase : r.phase = .burst (pkt :: rest) batch)
      (hecho : cfg.echoMode = false)
      (hvalid : checkValidPacket r.st.mem (r.st.heap pkt) cfg.serverMac ≠ none)
      (hcomplete : batch.length + 1 = batchSize ∨ rest = []) (hrequest : request ∈ batch ++ [pkt])
      (houtside : ¬ ReplyInside cfg numRefcntArrays r.st request)

/-- The next step of the program crashes, or leaves what was allocated. -/
def GoesWrong (cfg : Config) (numRefcntArrays : UInt64) (fuel : ℕ) (r : ServerRun) : Prop :=
  ∀ r', doServerStep cfg fuel r = some r' → ¬ StepInside cfg numRefcntArrays r r'

/-- A step that has what it needs goes astray with a reply only: the releases find their
counts. -/
theorem stepInside_iff (hI : I.Distinct) (hsegments : cfg.numSegments.toNat ≤ maxScatters)
    (hfuel : maxScatters ≤ fuel) (hws : WorkingSetPlaced cfg) (hinv : Inv cfg fuel I r)
    (hreleases : r.post.ReleasesInside cfg numRefcntArrays)
    (hstep : doServerStep cfg fuel r = some r') :
    StepInside cfg numRefcntArrays r r' ↔ ¬ Astray cfg numRefcntArrays r := by
  have hpools : ¬ Starved cfg r := fun hstarved => by
    rw [(doServerStep_eq_none_iff hI hsegments hfuel hinv).mpr hstarved] at hstep
    simp at hstep
  -- away from a packet no reply is built
  have haway : (∀ pkt rest batch, r.phase ≠ .burst (pkt :: rest) batch) →
      ¬ Astray cfg numRefcntArrays r := fun hnot ⟨hphase, _, _, _, _, _⟩ => hnot _ _ _ hphase
  unfold StepInside
  split
  case h_1 pkt rest batch hphase =>
    have hready := (hinv.held_joined hphase).batchReady hI hsegments hfuel
    have hlength : (batch ++ [pkt]).length = batch.length + 1 := by simp
    have hbuild (hecho : cfg.echoMode = false)
        (hvalid : checkValidPacket r.st.mem (r.st.heap pkt) cfg.serverMac ≠ none)
        (hcomplete : batch.length + 1 = batchSize ∨ rest = []) :
        BuildInside cfg numRefcntArrays 0 (batch ++ [pkt]) r.st ↔
          ∀ request ∈ batch ++ [pkt], ReplyInside cfg numRefcntArrays r.st request := by
      refine buildInside_iff hws hsegments hready.nodup hready.fresh ?_
      rw [hlength]
      by_contra hless
      exact hpools (.answer hphase hecho hvalid hcomplete hless)
    constructor
    · rintro hinside ⟨hburst, hecho, hvalid, hcomplete, hrequest, houtside⟩
      obtain ⟨hpkt, rfl⟩ := ServerPhase.burst.inj (hphase.symm.trans hburst)
      obtain ⟨rfl, rfl⟩ := List.cons.inj hpkt
      exact houtside ((hbuild hecho hvalid hcomplete).mp (hinside hvalid hcomplete hecho) _ hrequest)
    · intro hstraight hvalid hcomplete hecho
      refine (hbuild hecho hvalid hcomplete).mpr fun request hrequest => ?_
      by_contra houtside
      exact hstraight (.answer hphase hecho hvalid hcomplete hrequest houtside)
  case h_2 rest batch hphase =>
    refine iff_of_true ?_ (haway (by simp [hphase]))
    unfold doServerStep at hstep
    rw [hphase] at hstep
    dsimp only at hstep
    split at hstep
    case h_1 hctl =>
      -- the cleanup gathers nothing
      obtain ⟨-, htrace, -⟩ := finish_keeps hstep
      intro m hm
      rw [htrace, List.drop_length] at hm
      simp at hm
    case h_2 c hctl =>
      obtain ⟨a, ha, hmap⟩ := Option.bind_eq_some_iff.mp hstep
      obtain ⟨⟨ret, st⟩, hcall, rfl⟩ := Option.map_eq_some_iff.mp hmap
      obtain ⟨⟨⟨st₀, reported⟩, ctl, batches⟩, taken, received, phase, lost⟩ := r
      obtain rfl : ctl = some c := hctl
      exact (hreleases.send hinv.post ha hcall).1
  case h_3 hburst _ => exact iff_of_true trivial (haway hburst)

/-- **The program goes wrong** at its next step exactly when a pool lacks what the step
needs or a reply leaves what was allocated, in every state that the server reaches
before. -/
theorem goesWrong_iff (hI : I.Distinct) (hsegments : cfg.numSegments.toNat ≤ maxScatters)
    (hfuel : maxScatters ≤ fuel) (hws : WorkingSetPlaced cfg)
    (h : Reachable (Init I) (CheckedStep cfg numRefcntArrays fuel) r) :
    GoesWrong cfg numRefcntArrays fuel r ↔ Starved cfg r ∨ Astray cfg numRefcntArrays r := by
  obtain ⟨hinv, hreleases⟩ := releasesInside_of_reachable hI hsegments hfuel hws h
  rw [← doServerStep_eq_none_iff hI hsegments hfuel hinv]
  cases hstep : doServerStep cfg fuel r with
  | none => simp [GoesWrong, hstep]
  | some r' =>
    have hinside := stepInside_iff hI hsegments hfuel hws hinv hreleases hstep
    simp [GoesWrong, hstep, hinside]

/-- With a working set of less than one segment the small server divides by zero at its
first request. -/
theorem goesWrong_noRegions : ∃ r, r.phase = .burst [0x400000] [] ∧
    GoesWrong { smallConfig with workingSetSize := 1023, numTotalSegments := 0 } 1 32 r := by
  have hruns : (doServerStep { smallConfig with workingSetSize := 1023, numTotalSegments := 0 } 32
      smallReceived).map (fun r => (r.phase,
        (checkValidPacket r.st.mem (r.st.heap 0x400000) smallConfig.serverMac).isSome)) =
          some (.burst [0x400000] [], true) := by
    decide +kernel
  obtain ⟨r, hpoll, heq⟩ := Option.map_eq_some_iff.mp hruns
  simp only [Prod.mk.injEq] at heq
  obtain ⟨hphase, hvalid⟩ := heq
  have hreach := (smallReceived_reachable smallServer_init
    { smallConfig with workingSetSize := 1023, numTotalSegments := 0 } 1 32).step
      (.program hpoll trivial)
  refine ⟨r, hphase, (goesWrong_iff smallItems_distinct (by decide) (Nat.le_refl 32)
    ⟨by decide, by decide, by decide⟩ hreach).mpr (.inr ?_)⟩
  refine .answer hphase rfl (Option.isSome_iff_ne_none.mp hvalid) (.inr rfl)
    (List.mem_append_right _ (List.mem_singleton_self _)) fun hinside => ?_
  exact hinside.divisor (by decide) rfl

/-! ## Pools that are large enough -/

/-- The batch that is collected is not full. -/
def Collects (r : ServerRun) : Prop :=
  ∀ rest batch, r.phase = .burst rest batch → batch.length < batchSize

/-- After a batch the next one starts empty. -/
theorem finish_collects {rest batch : List Addr} {ret : Int32}
    (h : finish cfg fuel rest batch ret r = some r') : r'.Collects := by
  obtain ⟨⟨own, post⟩, -, rfl⟩ := Option.map_eq_some_iff.mp h
  rintro rest' batch' hphase
  obtain ⟨-, rfl⟩ := ServerPhase.burst.inj hphase
  decide

theorem doServerStep_collects (hr : r.Collects) (h : doServerStep cfg fuel r = some r') :
    r'.Collects := by
  unfold doServerStep at h
  split at h
  case h_1 hphase =>
    obtain ⟨⟨ms, st⟩, -, rfl⟩ := Option.map_eq_some_iff.mp h
    rintro rest batch hburst
    obtain ⟨-, rfl⟩ := ServerPhase.burst.inj hburst
    decide
  case h_2 batch hphase =>
    obtain rfl := Option.some.inj h
    rintro rest batch hburst
    simp at hburst
  case h_3 pkt rest batch hphase =>
    have hlt := hr _ _ hphase
    unfold handlePacket at h
    split at h
    case h_1 =>
      obtain ⟨st, -, rfl⟩ := Option.map_eq_some_iff.mp h
      rintro rest' batch' hburst
      obtain ⟨-, rfl⟩ := ServerPhase.burst.inj hburst
      exact hlt
    case h_2 =>
      dsimp only at h
      split at h
      case isTrue =>
        unfold processBatch at h
        split at h
        case h_1 => simp at h
        case h_2 => exact finish_collects h
        case h_3 =>
          obtain rfl := Option.some.inj h
          rintro rest' batch' hburst
          simp at hburst
      case isFalse hmore =>
        obtain rfl := Option.some.inj h
        rintro rest' batch' hburst
        obtain ⟨-, rfl⟩ := ServerPhase.burst.inj hburst
        -- a full batch would have been processed
        simp only [List.length_append, List.length_singleton, not_or] at hmore ⊢
        omega
  case h_4 rest batch hphase =>
    split at h
    case h_1 => exact finish_collects h
    case h_2 c hctl =>
      obtain ⟨a, -, hmap⟩ := Option.bind_eq_some_iff.mp h
      obtain ⟨⟨ret, st⟩, -, rfl⟩ := Option.map_eq_some_iff.mp hmap
      rintro rest' batch' hburst
      simp [hphase] at hburst

theorem collects_of_reachable (h : Reachable (Init I) (Step cfg fuel) r) : r.Collects := by
  refine Reachable.invariant (P := Collects) (fun r hinit rest batch hburst => ?_) ?_ h
  · simp [hinit.phase] at hburst
  · intro r r' hr hstep
    cases hstep with
    | reports hnic => exact hr
    | receives hnic =>
      cases hnic
      exact hr
    | program hrun => exact doServerStep_collects hr hrun

/-- Holdings of a bounded size each. -/
theorem length_flatMap_le {α β γ : Type} {R : α → β → Prop} {f : β → List γ} {g : α → ℕ}
    {as : List α} {bs : List β} (h : List.Forall₂ R as bs)
    (hle : ∀ a b, R a b → (f b).length ≤ g a) : (bs.flatMap f).length ≤ (as.map g).sum := by
  induction h with
  | nil => simp
  | @cons a b as bs hab _ ih =>
    have hfirst := hle a b hab
    simp only [List.flatMap_cons, List.length_append, List.map_cons, List.sum_cons]
    omega

/-- What the chains of the send ring hold is bounded by its size. -/
structure RingBounds (cfg : Config) (tx : ℕ) (out : List Holding) : Prop where
  mbufs : (out.flatMap Holding.mbufs).length ≤ 4 * tx
  copies : cfg.zeroCopy = false → (out.flatMap Holding.mbufs).length ≤ tx
  buffers : (out.flatMap Holding.buffers).length ≤ tx
  packets : (out.flatMap Holding.packets).length ≤ if cfg.echoMode then tx else 0

theorem ringBounds_of_carries {heap : Heap} {sends : List Send} {out : List Holding} {tx : ℕ}
    (h : List.Forall₂ (Carries cfg heap) sends out) (hfit : Send.total sends ≤ tx)
    (hpos : ∀ s ∈ sends, 0 < s.numWqes.toNat) : RingBounds cfg tx out := by
  have hcount := (SendRun.length_le_total hpos).trans hfit
  have hones : (sends.map fun _ => 1).sum = sends.length := by simp
  constructor
  case mbufs =>
    refine (length_flatMap_le h fun s x hcarries => hcarries.blocks).trans ?_
    rw [List.sum_map_mul_left]
    exact Nat.mul_le_mul_left 4 hfit
  case copies =>
    intro hzero
    refine (length_flatMap_le h fun s x hcarries => hcarries.holds.length_le.1 (.inl hzero)).trans ?_
    rwa [hones]
  case buffers =>
    refine (length_flatMap_le h fun s x hcarries => hcarries.holds.length_le.2.1).trans ?_
    rwa [hones]
  case packets =>
    split
    case isTrue =>
      refine (length_flatMap_le h fun s x hcarries => hcarries.holds.length_le.2.2).trans ?_
      rwa [hones]
    case isFalse hecho =>
      -- outside echo mode no packet is sent back
      have hnone := length_flatMap_le h (f := Holding.packets) (g := fun _ => 0)
        fun s x hcarries => by
          rw [hcarries.holds.eq_nil.1 (by simpa using hecho)]
          exact le_rfl
      simpa using hnone

/-- The pools cover both rings, the packets that are lost, a burst and a batch. No
batch is larger than the part of the pool of packets that is not posted. -/
structure Sized (cfg : Config) (I : Holding) (r : ServerRun) : Prop where
  packets : r.st.rxq.rxWq.wqeCnt.toNat + (if cfg.echoMode then r.st.txq.sq.wqeCnt.toNat else 0) +
    r.lost.length + min burstSize r.st.rxq.rxWq.wqeCnt.toNat ≤ I.packets.length
  copies : cfg.echoMode = false → cfg.zeroCopy = false →
    r.st.txq.sq.wqeCnt.toNat + min batchSize (I.packets.length - r.st.rxq.rxWq.wqeCnt.toNat) ≤
      min I.mbufs.length I.buffers.length
  scatterLists : cfg.echoMode = false → cfg.zeroCopy = true →
    4 * r.st.txq.sq.wqeCnt.toNat + min batchSize (I.packets.length - r.st.rxq.rxWq.wqeCnt.toNat) *
      cfg.numSegments.toNat ≤ I.mbufs.length ∧ 0 < cfg.numSegments.toNat

/-- Pools of this size have what every step needs. -/
theorem not_starved (hinv : Inv cfg fuel I r) (hcollects : r.Collects) (hsized : Sized cfg I r) :
    ¬ Starved cfg r := by
  -- nothing is left to send where a pool is needed
  have hlengths : r.post.ctl = none → ∃ out,
      r.st.mbufMempool.freeList.length + (out.flatMap Holding.mbufs).length = I.mbufs.length ∧
      r.st.txBufMempool.freeList.length + (out.flatMap Holding.buffers).length = I.buffers.length ∧
      r.st.rxBufMempool.freeList.length + r.st.rxq.rxWq.wqeCnt.toNat +
        (r.hands cfg.echoMode).length + (out.flatMap Holding.packets).length = I.packets.length ∧
      r.received - r.taken ≤ r.st.rxq.rxWq.wqeCnt.toNat ∧
      RingBounds cfg r.st.txq.sq.wqeCnt.toNat out := by
    intro hctl
    obtain ⟨out, rest, hout, hrest, hheld⟩ := hinv.held_idle hctl
    rw [List.forall₂_nil_left_iff] at hrest
    rw [hrest, List.append_nil] at hheld
    obtain ⟨q, hq, -⟩ := hinv.post.ring
    obtain ⟨ring, counters, hrx⟩ := hheld.packets
    have hpackets := hrx.conserved.length_eq
    have hfull := hrx.ready.full
    have hfits := hrx.ready.fits
    have hreceived := hrx.received
    simp only [List.length_append, hfull] at hpackets hfull hfits hreceived
    refine ⟨out, hheld.mbufs.length_add, hheld.buffers.length_add, by omega, by omega, ?_⟩
    rw [hq.run.outstanding_eq] at hout
    exact ringBounds_of_carries hout hq.run.wellFormed.fit hq.run.wellFormed.pos
  rintro (⟨hphase, hpool⟩ | @⟨pkt, rest, batch, hphase, hecho, -, -, hpools⟩)
  · obtain ⟨out, -, -, hpackets, hwaiting, hbounds⟩ := hlengths (hinv.idle (by simp [hphase]))
    have hheld := hbounds.packets
    have hsize := hsized.packets
    have hhands : (r.hands cfg.echoMode).length = r.lost.length := by rw [hands, hphase]
    omega
  · obtain ⟨out, hmbufs, hbuffers, hpackets, -, hbounds⟩ := hlengths (hinv.idle (by simp [hphase]))
    have hlt := hcollects _ _ hphase
    have hhands : batch.length + 1 ≤ (r.hands cfg.echoMode).length := by
      rw [hands, hphase]
      simp only [List.length_append, List.length_cons]
      omega
    have hbatch : batch.length + 1 ≤
        min batchSize (I.packets.length - r.st.rxq.rxWq.wqeCnt.toNat) := by omega
    refine hpools ?_
    unfold PoolsSuffice
    split
    case isTrue hzero =>
      obtain ⟨hsize, hpos⟩ := hsized.scatterLists hecho hzero
      have hheld := hbounds.mbufs
      have hmul := Nat.mul_le_mul_right cfg.numSegments.toNat hbatch
      exact ⟨by omega, fun _ => hpos⟩
    case isFalse hzero =>
      have hzero' : cfg.zeroCopy = false := by simpa using hzero
      have hsize := hsized.copies hecho hzero'
      have hheld := hbounds.copies hzero'
      have hheld' := hbounds.buffers
      omega

/-- **With pools of this size the program never crashes** and never leaves what was
allocated, whatever the device does, as long as the requests it has in hand ask for
replies that do not. -/
theorem never_crashes (hI : I.Distinct) (hsegments : cfg.numSegments.toNat ≤ maxScatters)
    (hfuel : maxScatters ≤ fuel) (hws : WorkingSetPlaced cfg)
    (h : Reachable (Init I) (CheckedStep cfg numRefcntArrays fuel) r) (hsized : Sized cfg I r)
    (hreplies : cfg.echoMode = false → ∀ pkt rest batch, r.phase = .burst (pkt :: rest) batch →
      checkValidPacket r.st.mem (r.st.heap pkt) cfg.serverMac ≠ none →
        ∀ request ∈ batch ++ [pkt], ReplyInside cfg numRefcntArrays r.st request) :
    ∃ r', doServerStep cfg fuel r = some r' ∧ StepInside cfg numRefcntArrays r r' := by
  obtain ⟨hinv, hreleases⟩ := releasesInside_of_reachable hI hsegments hfuel hws h
  have hfed := not_starved hinv (collects_of_reachable (h.mono fun _ _ hstep => hstep.step)) hsized
  rw [← doServerStep_eq_none_iff hI hsegments hfuel hinv, ← ne_eq, Option.ne_none_iff_exists'] at hfed
  obtain ⟨r', hstep⟩ := hfed
  refine ⟨r', hstep, (stepInside_iff hI hsegments hfuel hws hinv hreleases hstep).mpr ?_⟩
  rintro ⟨hphase, hecho, hvalid, -, hrequest, houtside⟩
  exact houtside (hreplies hecho _ _ _ hphase hvalid _ hrequest)

/-- Eight items in each pool are enough for the rings of the small server, whatever its
packet asks for. -/
theorem never_crashes_smallPolled : ∃ r, r.phase = .burst [0x400000] [] ∧
    ∃ r', doServerStep smallConfig 32 r = some r' ∧ StepInside smallConfig 1 r r' := by
  have hruns : (doServerStep smallConfig 32 smallReceived).map (fun r =>
      (r.phase, r.lost, r.st.txq.sq.wqeCnt, r.st.rxq.rxWq.wqeCnt)) =
        some (.burst [0x400000] [], [], 4, 4) := by
    decide +kernel
  obtain ⟨r, hpoll, heq⟩ := Option.map_eq_some_iff.mp hruns
  simp only [Prod.mk.injEq] at heq
  obtain ⟨hphase, hlost, hsq, hrq⟩ := heq
  refine ⟨r, hphase, never_crashes smallItems_distinct (by decide) (Nat.le_refl 32)
    smallConfig_placed (smallPolled_reachable smallServer_init hpoll) ⟨?_, ?_, ?_⟩
    fun _ _ _ _ _ _ request _ => smallConfig_replyInside r.st request⟩
  · rw [hlost, hsq, hrq]
    decide
  · intro _ _
    rw [hsq, hrq]
    decide
  · intro _ hzero
    simp [smallConfig, Config.default] at hzero

end ServerRun

end Mlx5Netperf
