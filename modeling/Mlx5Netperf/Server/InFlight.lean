import Mlx5Netperf.Mlx5.RefusedSend
import Mlx5Netperf.Server.MemoryLayout

/-!
# Replies in Flight

From the moment its reply is built until its completion is gathered, nobody stores to
what a chain holds: neither the program, which builds and posts other replies in the
meantime, nor the device, which receives further packets. What the send ring reads
is what was built.
-/

namespace Mlx5Netperf

open Transition PostRun SendFifo ByteMemory

/-! ## Chains in line -/

section Line

variable {cfg : Config} {fuel reported ret : ℕ} {heap : Heap} {st st' : State} {q : SendFifo}
  {m : Addr} {x y : Holding} {requestHeader : Option RequestHeader} {inlineLen : ℕ}

/-- A chain holds one thing. -/
theorem Holds.unique (h : Holds cfg heap m x) (h' : Holds cfg heap m y) : x = y := by
  -- the two modes say which kind of chain it is
  cases h with
  | scatterList hecho hzero _ hchain =>
    cases h' with
    | scatterList _ _ _ hchain' => rw [hchain.unique hchain']
    | copied _ hcopy _ _ _ => simp [hzero] at hcopy
    | packet hback _ _ _ => simp [hecho] at hback
  | copied hecho hcopy _ _ hhead =>
    cases h' with
    | scatterList _ hzero _ _ => simp [hcopy] at hzero
    | copied _ _ _ _ hhead' => rw [← hhead, hhead']
    | packet hback _ _ _ => simp [hecho] at hback
  | packet hback _ _ _ =>
    cases h' with
    | scatterList hecho _ _ _ => simp [hback] at hecho
    | copied hecho _ _ _ _ => simp [hback] at hecho
    | packet _ _ _ _ => rfl

/-- Sending takes completions off the ring and puts none back. -/
theorem length_gathers_transmit (h : SendInv fuel reported st.txq st.heap st.trace q)
    (hpending : q.pending = [])
    (hlegal : LegalSend fuel st.heap q.outstanding m requestHeader inlineLen)
    (hcall : mlx5TransmitOne cfg fuel st m requestHeader inlineLen = some (ret, st')) :
    (Event.gathers st.trace).length ≤ (Event.gathers st'.trace).length := by
  have hgrows : ∀ {st st' : State} {q q' : SendFifo}, Completes cfg fuel reported st q st' q' →
      (Event.gathers st.trace).length ≤ (Event.gathers st'.trace).length := by
    intro st st' q q' hcompletes
    obtain ⟨k, -, hgathered⟩ := hcompletes.kept
      (oldest_kept cfg fuel reported q.outstanding (Event.gathers st.trace).length) ⟨0, rfl, rfl⟩
    omega
  obtain ⟨ret', st'', q', hcall', -, -, hcase⟩ := mlx5TransmitOne_spec cfg h hpending hlegal
  obtain ⟨rfl, rfl⟩ := Prod.mk.inj (Option.some.inj (hcall.symm.trans hcall'))
  rcases hcase with ⟨-, hcompletes⟩ | ⟨-, st₁, q₁, st₂, q₂, hbefore, -, hposted, hafter⟩
  · exact hgrows hcompletes
  · obtain ⟨stores, -, hst₂⟩ := hposted.fill
    have hposting : Event.gathers st₂.trace = Event.gathers st₁.trace := by
      simp [hst₂, State.push]
    have hlt := hgrows hbefore
    have hle := hgrows hafter
    rw [hposting] at hle
    exact hlt.trans hle

end Line

namespace ServerRun

/-- The chains in the order in which they are sent: those that were posted and those
that `post_mbufs` has still to send. -/
def lineup (r : ServerRun) : List Addr :=
  (Event.posts r.st.trace).map Send.mbuf ++ (remaining r.post.ctl).map SendArgs.mbuf

/-- The completions that were gathered. -/
def gathered (r : ServerRun) : ℕ := (Event.gathers r.st.trace).length

/-- Behind the gathered ones the chains in line hold what the pools lack. -/
theorem Inv.exists_heldBy {cfg : Config} {fuel : ℕ} {I : Holding} {r : ServerRun}
    (h : Inv cfg fuel I r) : ∃ hs, HeldBy I r.st r.taken r.received (r.hands cfg.echoMode) hs ∧
      List.Forall₂ (Holds cfg r.st.heap) (r.lineup.drop r.gathered) hs := by
  obtain ⟨out, rest, hout, hrest, hheld⟩ := h.held
  obtain ⟨q, hq, -⟩ := h.post.ring
  have hlength : (Event.gathers r.st.trace).length + q.outstanding.length =
      (Event.posts r.st.trace).length := hq.run.length_outstanding
  refine ⟨out ++ rest, hheld, ?_⟩
  have hdrop : r.lineup.drop r.gathered = (Event.outstanding r.st.trace).map Send.mbuf ++
      (remaining r.post.ctl).map SendArgs.mbuf := by
    rw [lineup, gathered, List.drop_append_of_le_length (by rw [List.length_map]; omega),
      ← List.map_drop]
    rfl
  rw [hdrop]
  exact List.rel_append (List.forall₂_map_left_iff.mpr (hout.imp fun _ _ hc => hc.holds)) hrest

/-! ## What a step keeps -/

/-- Where the program's items, its working set and the send ring lie, and the options
that it runs with. -/
structure InMemory (cfg : Config) (fuel : ℕ) (I : Holding) (base n : ℕ) : Prop where
  distinct : I.Distinct
  segments : cfg.numSegments.toNat ≤ maxScatters
  fuel : maxScatters ≤ fuel
  layout : MemoryLayout cfg I base n
  workingSet : WorkingSetOk cfg
  fit : cfg.zeroCopy = false → 58 + cfg.numSegments.toNat * cfg.segmentSize.toNat ≤ 16384

/-- The send ring lies where it was put, and so do the data of the packets that
`do_server` has. -/
structure Located (cfg : Config) (base n : ℕ) (r : ServerRun) : Prop where
  ring : RingAt r.st.txq base n
  packets : ∀ m ∈ r.hands cfg.echoMode, PlacedPacket r.st.heap m

/-- From `r` to `r'` chains only join the line at its end and leave it at its front,
and what the chains of `r` hold is left alone. -/
structure LeavesAlone (cfg : Config) (I : Holding) (r r' : ServerRun) : Prop where
  lineup : r.lineup <+: r'.lineup
  gathered : r.gathered ≤ r'.gathered
  untouched : ∀ hs, HeldBy I r.st r.taken r.received (r.hands cfg.echoMode) hs →
    ∀ x ∈ hs, Untouched cfg x r.st r'.st

section Steps

variable {cfg : Config} {fuel base n : ℕ} {I : Holding} {r r' : ServerRun} {st : State}
  {rest batch : List Addr} {ret : Int32}

/-- What moves neither the line nor what the chains hold. -/
theorem LeavesAlone.of_same (hposts : Event.posts r'.st.trace = Event.posts r.st.trace)
    (hgathers : Event.gathers r'.st.trace = Event.gathers r.st.trace)
    (hctl : (remaining r.post.ctl) <+: (remaining r'.post.ctl))
    (huntouched : ∀ hs, HeldBy I r.st r.taken r.received (r.hands cfg.echoMode) hs →
      ∀ x ∈ hs, Untouched cfg x r.st r'.st) : LeavesAlone cfg I r r' where
  lineup := by
    rw [ServerRun.lineup, ServerRun.lineup, hposts]
    exact (List.prefix_append_right_inj _).mpr (hctl.map _)
  gathered := by rw [ServerRun.gathered, ServerRun.gathered, hgathers]
  untouched := huntouched

/-- **Building the replies to a batch**, in every mode. -/
theorem prepareReplies_keeps {others requests : List Addr} {taken received : ℕ}
    {hs : List Holding} {res : Except Int32 (List Addr)} {st₁ : State}
    (h : HeldBy I st taken received (requests ++ others) hs) (hwhere : InMemory cfg fuel I base n)
    (hready : BatchReady cfg fuel st requests)
    (hplaced : ∀ m ∈ requests ++ others, PlacedPacket st.heap m)
    (hprepare : prepareReplies cfg fuel requests st = some (res, st₁))
    (hres : cfg.echoMode = true ∨ ∃ heads, res = .ok heads) :
    BatchKeeps cfg (requests ++ others) hs st st₁ := by
  unfold prepareReplies at hprepare
  split at hprepare
  case isTrue hecho =>
    exact h.echo_keeps hwhere.distinct hwhere.layout hplaced (Option.some.inj hprepare)
  case isFalse hecho =>
    obtain ⟨heads, rfl⟩ := hres.resolve_left hecho
    cases hzero : cfg.zeroCopy with
    | true => exact h.zeroCopy_keeps hwhere.distinct hready hzero hplaced hprepare
    | false =>
      exact h.copy_keeps hwhere.distinct hwhere.layout hready hzero hwhere.workingSet
        (hwhere.fit hzero) hplaced hprepare

/-- **A batch is processed**: replies are built behind those that are in flight, or an
error cleans the batch up. -/
theorem processBatch_alone (hwhere : InMemory cfg fuel I base n) (hctl : r.post.ctl = none)
    (hne : batch ≠ [])
    (hheld : ChainsHold cfg I r.taken r.received (batch ++ (rest ++ r.lost)) [] r.st)
    (hhands : (r.hands cfg.echoMode).Perm (batch ++ (rest ++ r.lost))) (hloc : Located cfg base n r)
    (hprocess : processBatch cfg fuel rest batch r = some r') :
    Located cfg base n r' ∧ LeavesAlone cfg I r r' := by
  have hready := hheld.batchReady hwhere.distinct hwhere.segments hwhere.fuel
  have hplaced : ∀ m ∈ batch ++ (rest ++ r.lost), PlacedPacket r.st.heap m :=
    fun m hm => hloc.packets m (hhands.mem_iff.mpr hm)
  obtain ⟨hs₀, hheld₀, -⟩ := hheld.exists_heldBy
  unfold processBatch at hprocess
  split at hprocess
  case h_1 => simp at hprocess
  case h_2 ret st hprepare =>
    have hret := prepareReplies_error_ne_zero hprepare
    have hecho : cfg.echoMode = true := by
      -- outside echo mode the packets are freed twice
      by_contra hecho
      obtain ⟨⟨own, post⟩, hbatch, -⟩ := Option.map_eq_some_iff.mp hprocess
      obtain ⟨st', hclean, -⟩ := Option.map_eq_some_iff.mp hbatch
      rw [Bool.eq_false_iff.mpr hecho, cleanupBatch_eq_none hne hret] at hclean
      simp at hclean
    obtain ⟨hkeeps, htrace, hctl', hhands'⟩ := finish_keeps hprocess
    have hbatch : ∀ hs, HeldBy I r.st r.taken r.received (batch ++ (rest ++ r.lost)) hs →
        BatchKeeps cfg (batch ++ (rest ++ r.lost)) hs r.st st := fun hs hboth =>
      prepareReplies_keeps hboth hwhere hready hplaced hprepare (.inl hecho)
    have hquiet : st.trace = r.st.trace := by
      rw [prepareReplies, if_pos hecho] at hprepare
      rw [(echoRequests_keeps (Option.some.inj hprepare)).rest]
    constructor
    · refine ⟨?_, fun m hm => ?_⟩
      · rw [hkeeps.txq]
        exact (hbatch hs₀ hheld₀).txq ▸ hloc.ring
      · rw [hkeeps.heap]
        rw [hhands'] at hm
        exact (hbatch hs₀ hheld₀).packets m (List.mem_append_right _ hm)
    · refine .of_same (by rw [htrace]; exact congrArg _ hquiet) (by rw [htrace]; exact congrArg _ hquiet)
        (by rw [hctl']; exact List.prefix_rfl) fun hs hboth x hx => ?_
      refine ((hbatch hs (hboth.perm hhands (.refl _))).untouched x hx).trans ?_
      exact .of_eq (fun a _ => congrFun hkeeps.heap a) hkeeps.mem
  case h_3 heads st hprepare =>
    have hprepared := prepared_of_prepareReplies hready hprepare
    have hbatch : ∀ hs, HeldBy I r.st r.taken r.received (batch ++ (rest ++ r.lost)) hs →
        BatchKeeps cfg (batch ++ (rest ++ r.lost)) hs r.st st := fun hs hboth =>
      prepareReplies_keeps hboth hwhere hready hplaced hprepare (.inr ⟨heads, rfl⟩)
    obtain ⟨tail, htrace, hquiet⟩ := hprepared.trace
    obtain rfl := Option.some.inj hprocess
    constructor
    · refine ⟨(hbatch hs₀ hheld₀).txq ▸ hloc.ring, fun m hm => ?_⟩
      refine (hbatch hs₀ hheld₀).packets m ?_
      -- in echo mode the batch is no longer among the packets of the program
      simp only [hands] at hm
      split at hm
      · exact List.mem_append_right _ (by simpa using hm)
      · refine (List.perm_iff_count.mpr fun a => ?_).mem_iff.mp hm
        simp only [List.count_append]
        omega
    · refine .of_same ?_ ?_ ?_ fun hs hboth x hx => ?_
      · exact (congrArg Event.posts htrace).trans
          (by rw [Event.posts_append, Event.posts_eq_nil hquiet, List.append_nil])
      · exact (congrArg Event.gathers htrace).trans
          (by rw [Event.gathers_append, Event.gathers_eq_nil hquiet, List.append_nil])
      · rw [hctl]
        exact List.nil_prefix
      · exact (hbatch hs (hboth.perm hhands (.refl _))).untouched x hx

/-- **One packet of the burst.** -/
theorem handlePacket_alone {pkt : Addr} (hwhere : InMemory cfg fuel I base n)
    (hinv : Inv cfg fuel I r) (hphase : r.phase = .burst (pkt :: rest) batch)
    (hloc : Located cfg base n r) (hhandle : handlePacket cfg fuel pkt rest batch r = some r') :
    Located cfg base n r' ∧ LeavesAlone cfg I r r' := by
  have hctl : r.post.ctl = none := hinv.idle (by simp [hphase])
  have hheld := hinv.held_idle hctl
  have hhands : r.hands cfg.echoMode = pkt :: rest ++ batch ++ r.lost := by rw [hands, hphase]
  unfold handlePacket at hhandle
  split at hhandle
  case h_1 hinvalid =>
    obtain ⟨st, hfree, rfl⟩ := Option.map_eq_some_iff.mp hhandle
    obtain ⟨tail, hreleased⟩ := mbufFree_released hfree
    have hkeeps := hreleased.keeps
    constructor
    · refine ⟨hkeeps.txq ▸ hloc.ring, fun m hm => ?_⟩
      have hplaced := hloc.packets m (by
        rw [hhands]
        exact List.mem_cons_of_mem _ hm)
      unfold PlacedPacket at hplaced ⊢
      rwa [show (r.post.withState { st with trace := r.st.trace }).run.st.heap m = r.st.heap m from
        congrFun hkeeps.heap m]
    · exact .of_same rfl rfl List.prefix_rfl fun hs _ x _ =>
        .of_eq (fun a _ => congrFun hkeeps.heap a) hkeeps.mem
  case h_2 hvalid =>
    -- the packet joins the batch
    have hperm : (r.hands cfg.echoMode).Perm (batch ++ [pkt] ++ (rest ++ r.lost)) := by
      rw [hhands]
      refine List.perm_iff_count.mpr fun a => ?_
      simp only [List.count_append, List.count_cons, List.count_nil]
      omega
    dsimp only at hhandle
    split at hhandle
    case isTrue hfull =>
      exact processBatch_alone hwhere hctl (by simp) (hheld.perm hperm) hperm hloc hhandle
    case isFalse hmore =>
      obtain rfl := Option.some.inj hhandle
      refine ⟨⟨hloc.ring, fun m hm => hloc.packets m ?_⟩,
        .of_same rfl rfl List.prefix_rfl fun hs _ x _ => .of_eq (fun _ _ => rfl) rfl⟩
      refine (hperm.trans ?_).mem_iff.mpr hm
      simp only [hands]
      rw [← List.append_assoc]
      exact List.perm_append_comm.append_right _

/-- **A poll** takes packets whose mbufs no chain holds. -/
theorem gather_alone {ms : List Addr} (hI : I.Distinct) (hphase : r.phase = .polling)
    (hloc : Located cfg base n r) (hcall : mlx5GatherRx r.st burstSize = some (ms, st)) :
    let r' : ServerRun :=
      { r with post := r.post.withState st, taken := r.taken + ms.length, phase := .burst ms [] }
    Located cfg base n r' ∧ LeavesAlone cfg I r r' := by
  have hkeeps := mlx5GatherRx_keeps hcall
  obtain ⟨htaken, hearlier⟩ := mlx5GatherRx_placed hcall
  have hhands : r.hands cfg.echoMode = r.lost := by rw [hands, hphase]
  constructor
  · refine ⟨hkeeps.txq ▸ hloc.ring, fun m hm => ?_⟩
    rcases List.mem_append.mp hm with hnew | hlost
    · exact htaken m (by simpa using hnew)
    · exact hearlier m (hloc.packets m (by rwa [hhands]))
  · refine .of_same (congrArg _ hkeeps.trace) (congrArg _ hkeeps.trace) List.prefix_rfl
      fun hs hboth x hx => .of_eq (fun a ha => hkeeps.heap a fun htouched => ?_) hkeeps.mem
    -- neither one of the packets nor a buffer that was posted
    rcases htouched with hms | hfree
    · exact ((hboth.gather hcall).apart hI hx ha).2.1 (List.mem_append_left _ hms)
    · exact (hboth.apart hI hx ha).2.2 hfree

/-- **The device** writes to buffers that are posted. -/
theorem NicReceives.alone (hnic : NicReceives r r') (hwhere : InMemory cfg fuel I base n)
    (hloc : Located cfg base n r) : Located cfg base n r' ∧ LeavesAlone cfg I r r' := by
  cases hnic with
  | @receive received' cq mem counters hle hlen hposted horder hreports hmem =>
    -- what is apart from every posted buffer is not written to
    have hagree : ∀ {a k : ℕ}, (∀ slot < r.st.rxq.rxWq.wqeCnt.toNat, ∀ buf,
        r.st.rxq.PostedIn slot buf → RangesApart buf.toNat 16384 a k) → AgreeOn r.st.mem mem a k := by
      intro a k hapart p hlo hhi
      refine hmem p fun slot hslot buf hbuf => ?_
      have hhead : rxBufHead.toNat = 128 := rfl
      have hlength : (netMtu + rxBufTail).toNat = 9280 := rfl
      rw [hhead, hlength]
      rcases hapart slot hslot buf hbuf with hbefore | hafter
      · exact .inr (by omega)
      · exact .inl (by omega)
    refine ⟨⟨hloc.ring, hloc.packets⟩, .of_same rfl rfl List.prefix_rfl fun hs hboth x hx => ?_⟩
    refine ⟨fun a _ => .of_eq rfl, fun a ha => ?_, ?_⟩
    · exact hagree fun slot hslot buf hbuf =>
        hboth.apart_posted hwhere.distinct hwhere.layout hx ha hslot hbuf
    · refine hagree fun slot hslot buf hbuf => hwhere.layout.workingSet buf ?_
      exact List.mem_append_right _ (hboth.posted hwhere.distinct hslot hbuf).1

/-- **One send of `post_mbufs`** stores the descriptor, on the send ring. -/
theorem transmit_alone {c : PostMbufs} {a : SendArgs} {ret : ℕ} (hwhere : InMemory cfg fuel I base n)
    (hinv : Inv cfg fuel I r) (hloc : Located cfg base n r) (hctl : r.post.ctl = some c)
    (ha : c.batch[c.i]? = some a)
    (hcall : mlx5TransmitOne cfg fuel r.st a.mbuf a.requestHeader a.inlineLen = some (ret, st)) :
    let r' : ServerRun := { r with post := { r.post.withState st with ctl := c.resume ret } }
    Located cfg base n r' ∧ LeavesAlone cfg I r r' := by
  obtain ⟨q, hq, hpending⟩ := hinv.post.ring
  obtain ⟨posted, hprogress, -⟩ := hinv.post.progress
  have hlegals := hinv.post.legal
  rw [hctl] at hprogress hlegals
  obtain ⟨hok, -⟩ := hprogress
  obtain ⟨hlt, hget⟩ := List.getElem?_eq_some_iff.mp ha
  have hdrop : c.batch.drop c.i = a :: c.batch.drop (c.i + 1) := by
    rw [List.drop_eq_getElem_cons hlt, hget]
  -- the packet that is sent is the first of those that remain
  have hlegal := hlegals.legal a (by
    simp only [remaining, hdrop]
    exact List.mem_cons_self ..)
  rw [hq.run.outstanding_eq] at hlegal
  obtain ⟨hring, hagree⟩ :=
    mlx5TransmitOne_agreeOn hq hpending hlegal hloc.ring hwhere.layout.front hcall
  have hgathers := length_gathers_transmit hq hpending hlegal hcall
  obtain ⟨ret', st', q', hcall', -, -, hcase⟩ := mlx5TransmitOne_outcome cfg hq hpending hlegal
  obtain ⟨rfl, rfl⟩ := Prod.mk.inj (Option.some.inj (hcall.symm.trans hcall'))
  have hsame : r.st.heap.SameButWqes st.heap := by
    rcases hcase with ⟨-, hsame, -⟩ | ⟨-, hsent, -⟩
    · rw [hsame.heap]
      exact .refl _
    · rw [hsent.heap]
      exact Heap.sameButWqes_modify _ _ _
  constructor
  · refine ⟨hring, fun m hm => ?_⟩
    obtain ⟨k, hk⟩ := hsame m
    have hplaced := hloc.packets m hm
    unfold PlacedPacket at hplaced ⊢
    exact (congrArg mbufData hk).trans hplaced
  · refine ⟨?_, hgathers, fun hs hboth x hx => ⟨fun a _ => hsame a, fun a ha => ?_, ?_⟩⟩
    · -- a sent packet changes from the remaining ones to the posted ones
      rw [ServerRun.lineup, ServerRun.lineup, hctl]
      show _ <+: (Event.posts st.trace).map Send.mbuf ++ (remaining (c.resume ret)).map SendArgs.mbuf
      rw [PostRun.remaining_resume hok]
      rcases hcase with ⟨rfl, hrefused, -⟩ | ⟨rfl, hsent, -⟩
      · rw [hrefused.posts, if_neg Nat.zero_ne_one]
        exact List.prefix_rfl
      · rw [hsent.posts, if_pos rfl, remaining, hdrop, List.map_append, List.append_assoc]
        exact List.prefix_rfl
    · exact hagree _ _ (hwhere.layout.ring a (hboth.mem_items hx ha))
    · exact hagree _ _ hwhere.layout.ring_workingSet

/-- **Every step** of the program and the device. -/
theorem Step.alone (hwhere : InMemory cfg fuel I base n) (hinv : Inv cfg fuel I r)
    (hloc : Located cfg base n r) (hstep : Step cfg fuel r r') :
    Located cfg base n r' ∧ LeavesAlone cfg I r r' := by
  cases hstep with
  | @reports run' hnic =>
    -- completion entries are no part of what is in flight
    obtain ⟨⟨run, ctl, batches⟩, taken, received, phase, lost⟩ := r
    cases hnic
    refine ⟨⟨hloc.ring.congr rfl rfl, hloc.packets⟩, ?_⟩
    exact .of_same rfl rfl List.prefix_rfl fun hs _ x _ => .of_eq (fun _ _ => rfl) rfl
  | receives hnic => exact hnic.alone hwhere hloc
  | program hrun =>
    unfold doServerStep at hrun
    split at hrun
    case h_1 hphase =>
      obtain ⟨⟨ms, st⟩, hcall, rfl⟩ := Option.map_eq_some_iff.mp hrun
      exact gather_alone hwhere.distinct hphase hloc hcall
    case h_2 batch hphase =>
      obtain rfl := Option.some.inj hrun
      refine ⟨⟨hloc.ring, fun m hm => hloc.packets m ?_⟩,
        .of_same rfl rfl List.prefix_rfl fun hs _ x _ => .of_eq (fun _ _ => rfl) rfl⟩
      rw [hands, hphase]
      exact List.perm_append_comm.mem_iff.mpr hm
    case h_3 pkt rest batch hphase => exact handlePacket_alone hwhere hinv hphase hloc hrun
    case h_4 rest batch hphase =>
      split at hrun
      case h_1 hctl =>
        obtain ⟨hkeeps, htrace, hctl', hhands⟩ := finish_keeps hrun
        refine ⟨⟨hkeeps.txq ▸ hloc.ring, fun m hm => ?_⟩, ?_⟩
        · rw [hkeeps.heap]
          refine hloc.packets m ?_
          rw [hhands] at hm
          rw [hands, hphase]
          simp only [List.mem_append] at hm ⊢
          tauto
        · refine .of_same (by rw [htrace]) (by rw [htrace]) (by rw [hctl']) ?_
          exact fun hs _ x _ => .of_eq (fun a _ => congrFun hkeeps.heap a) hkeeps.mem
      case h_2 c hctl =>
        obtain ⟨a, ha, hmap⟩ := Option.bind_eq_some_iff.mp hrun
        obtain ⟨⟨ret, st⟩, hcall, rfl⟩ := Option.map_eq_some_iff.mp hmap
        exact transmit_alone hwhere hinv hloc hctl ha hcall

end Steps

/-! ## Runs -/

section Runs

variable {cfg : Config} {fuel base n k : ℕ} {I : Holding} {r r' : ServerRun} {m : Addr}

/-- The server as `init_mlx5` leaves it, with its send ring at `base`. -/
structure Start (I : Holding) (base n : ℕ) (r : ServerRun) : Prop where
  init : Init I r
  ring : RingAt r.st.txq base n

theorem located_of_reachable (hwhere : InMemory cfg fuel I base n)
    (h : Reachable (Start I base n) (Step cfg fuel) r) : Inv cfg fuel I r ∧ Located cfg base n r := by
  refine Reachable.invariant (P := fun r => Inv cfg fuel I r ∧ Located cfg base n r) ?_ ?_ h
  · refine fun r hstart => ⟨hstart.init.inv, hstart.ring, fun m hm => ?_⟩
    rw [hands, hstart.init.phase] at hm
    simp [hstart.init.lost] at hm
  · rintro r r' ⟨hinv, hloc⟩ hstep
    exact ⟨hstep.inv hwhere.distinct hwhere.segments hwhere.fuel hinv,
      (hstep.alone hwhere hinv hloc).1⟩

/-- The chain in line at place `k`, when it is not gathered. -/
theorem Inv.exists_holds (hinv : Inv cfg fuel I r) (hk : r.lineup[k]? = some m)
    (hflight : r.gathered ≤ k) : ∃ hs x, x ∈ hs ∧ Holds cfg r.st.heap m x ∧
      HeldBy I r.st r.taken r.received (r.hands cfg.echoMode) hs := by
  obtain ⟨hs, hheld, hall⟩ := hinv.exists_heldBy
  have hget : (r.lineup.drop r.gathered)[k - r.gathered]? = some m := by
    rw [List.getElem?_drop, Nat.add_sub_cancel' hflight, hk]
  obtain ⟨hlt, rfl⟩ := List.getElem?_eq_some_iff.mp hget
  have hlt' : k - r.gathered < hs.length := hall.length_eq ▸ hlt
  exact ⟨hs, hs[k - r.gathered], List.getElem_mem hlt', hall.get hlt hlt', hheld⟩

/-- In the runs of the model, whose counts are no part of memory, the chain keeps its place
and what it holds stays as it is. -/
theorem in_flight_kept (hwhere : InMemory cfg fuel I base n)
    (h : Reachable (Start I base n) (Step cfg fuel) r)
    (hsteps : Relation.ReflTransGen (Step cfg fuel) r r') (hk : r.lineup[k]? = some m)
    (hflight : r'.gathered ≤ k) : r'.lineup[k]? = some m ∧
      ∃ x, Holds cfg r.st.heap m x ∧ Holds cfg r'.st.heap m x ∧ Untouched cfg x r.st r'.st := by
  induction hsteps with
  | refl =>
    obtain ⟨hs, x, -, hholds, -⟩ := (located_of_reachable hwhere h).1.exists_holds hk hflight
    exact ⟨hk, x, hholds, hholds, .of_eq (fun _ _ => rfl) rfl⟩
  | @tail r₁ r₂ hsteps hstep ih =>
    obtain ⟨hinv, hloc⟩ := located_of_reachable hwhere (h.steps hsteps)
    obtain ⟨-, halone⟩ := hstep.alone hwhere hinv hloc
    -- what is in flight after the step was so before it
    have hbefore : r₁.gathered ≤ k := halone.gathered.trans hflight
    obtain ⟨hk₁, x, hstart, hholds, huntouched⟩ := ih hbefore
    obtain ⟨hs, y, hy, hholds', hheld⟩ := hinv.exists_holds hk₁ hbefore
    obtain rfl := hholds.unique hholds'
    have hleft := halone.untouched hs hheld x hy
    refine ⟨?_, x, hstart, hholds.congr hleft.heap, huntouched.trans hleft⟩
    obtain ⟨hlt, -⟩ := List.getElem?_eq_some_iff.mp hk₁
    obtain ⟨tail, htail⟩ := halone.lineup
    rw [← htail, List.getElem?_append_left hlt, hk₁]

/-- **What is in flight stays as it is**: in every run of the server that stays inside what
was allocated, in every mode, the mbufs of a chain, the buffer or the packet that it
holds, and the working set are the same from any moment after its reply was built until
its completion is gathered, and the chain keeps its place in the line. -/
theorem in_flight_unchanged (numRefcntArrays : UInt64) (hwhere : InMemory cfg fuel I base n)
    (h : Reachable (Start I base n) (CheckedStep cfg numRefcntArrays fuel) r)
    (hsteps : Relation.ReflTransGen (CheckedStep cfg numRefcntArrays fuel) r r')
    (hk : r.lineup[k]? = some m) (hflight : r'.gathered ≤ k) : r'.lineup[k]? = some m ∧
      ∃ x, Holds cfg r.st.heap m x ∧ Holds cfg r'.st.heap m x ∧ Untouched cfg x r.st r'.st :=
  in_flight_kept hwhere (h.mono fun _ _ hstep => CheckedStep.step hstep)
    (Relation.ReflTransGen.mono (fun _ _ hstep => CheckedStep.step hstep) _ _ hsteps) hk hflight

end Runs

/-! ## The small server -/

theorem smallLayout : MemoryLayout smallConfig smallItems 0x10000 4 where
  front := by decide
  items := by simp [smallItems, RangesApart]
  top := by simp [smallItems]
  ring := by simp [smallItems, RangesApart, inlineSpill]
  workingSet := by simp [smallItems, RangesApart, smallConfig, Config.default]
  ring_workingSet := by simp [RangesApart, smallConfig, Config.default, inlineSpill]

theorem smallServer_where : InMemory smallConfig 32 smallItems 0x10000 4 where
  distinct := smallItems_distinct
  segments := by decide
  fuel := Nat.le_refl 32
  layout := smallLayout
  workingSet := ⟨by decide, by decide, by decide, by decide, by decide⟩
  fit := fun _ => by decide

theorem smallServer_start : Start smallItems 0x10000 4 smallServer where
  init := smallServer_init
  ring := ⟨rfl, rfl, ⟨2, rfl⟩, rfl, rfl, by decide⟩

/-- Its reply, built and then posted. -/
theorem in_flight_unchanged_smallPosting : ∃ (r r' : ServerRun) (m : Addr) (x : Holding),
    r.phase = .posting [] [0x400000] ∧ r.post.ctl ≠ none ∧ r'.post.ctl = none ∧
      r'.lineup[0]? = some m ∧ Holds smallConfig r.st.heap m x ∧
        Untouched smallConfig x r.st r'.st := by
  have hruns : (((doServerStep smallConfig 32 smallReceived).bind (doServerStep smallConfig 32)).bind
      fun r => (doServerStep smallConfig 32 r).map fun r' => (r.phase, r.post.ctl.isSome, r.lineup,
        r'.post.ctl.isNone, r'.gathered, (Event.frees r'.st.trace).isEmpty)) =
          some (.posting [] [0x400000], true, [0x100000], true, 0, true) := by
    decide +kernel
  obtain ⟨r, hr, hlast⟩ := Option.bind_eq_some_iff.mp hruns
  obtain ⟨r₁, hpoll, hprocess⟩ := Option.bind_eq_some_iff.mp hr
  obtain ⟨r', hsend, heq⟩ := Option.map_eq_some_iff.mp hlast
  simp only [Prod.mk.injEq, List.isEmpty_iff] at heq
  obtain ⟨hphase, hctl, hlineup, hdone, hgathered, hfrees⟩ := heq
  have hreach : Reachable (Start smallItems 0x10000 4) (CheckedStep smallConfig 1 32) r :=
    smallProcessed_reachable smallServer_start hpoll hprocess
  -- nothing is released yet
  have hinside : StepInside smallConfig 1 r r' := by
    rw [StepInside, hphase]
    intro m hm
    simp [hfrees] at hm
  obtain ⟨hline, x, hholds, -, huntouched⟩ := in_flight_unchanged (k := 0) 1 smallServer_where hreach
    (.single (.program hsend hinside)) (by rw [hlineup]; rfl) (Nat.le_of_eq hgathered)
  refine ⟨r, r', _, x, hphase, ?_, ?_, hline, hholds, huntouched⟩
  · exact Option.isSome_iff_ne_none.mp hctl
  · exact Option.isNone_iff_eq_none.mp hdone

end ServerRun

end Mlx5Netperf
