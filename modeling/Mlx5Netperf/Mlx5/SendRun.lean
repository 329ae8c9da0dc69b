import Mlx5Netperf.Lib.Transition
import Mlx5Netperf.Mlx5.SendRing

/-!
# Runs of the Send Ring

The send ring in its environment: the application hands chains to
`mlx5_transmit_one` and works on everything else in between, and the device
reports completions in the order the chains were posted.
-/

namespace Mlx5Netperf

open SendFifo Transition

/-- The sends that were posted and not yet gathered. -/
def Event.outstanding (tr : List Event) : List Send := (posts tr).drop (gathers tr).length

theorem SendFifo.Run.outstanding_eq {n : ℕ} {tr : List Event} {q : SendFifo} (h : Run n tr q) :
    Event.outstanding tr = q.outstanding := by
  obtain ⟨done, hposts, hgathers, -⟩ := h.split
  simp [Event.outstanding, hposts, hgathers]

/-- The program, and the number of sends the device has reported so far. -/
structure SendRun where
  st : State
  reported : ℕ

namespace SendRun

/-- What the rest of the program may do between two sends: anything that leaves
the send ring and the nodes of the outstanding chains alone. -/
structure AppStep (st st' : State) : Prop where
  txq : st'.txq = st.txq
  trace : ∃ tail, st'.trace = st.trace ++ tail ∧ ∀ e ∈ tail, e.IsQuiet
  heap : ∀ s ∈ Event.outstanding st.trace, ∀ nodes, st.heap.IsChain (some s.mbuf) nodes →
    ∀ a ∈ nodes, st'.heap a = st.heap a

/-- The ring as it is set up: counters zero, nothing sent, and every completion
queue entry still the device's. -/
structure Init (r : SendRun) : Prop where
  size : ∃ k ≤ 16, r.st.txq.sq.wqeCnt.toNat = 2 ^ k
  sqHead : r.st.txq.sqHead = 0
  cqHead : r.st.txq.cqHead = 0
  trueCqHead : r.st.txq.trueCqHead = 0
  trace : r.st.trace = []
  reported : r.reported = 0
  reports : r.st.txq.txCq.Reports mlx5CqeReq 0 []

/-- The device reports further sends, in the order they were posted. -/
inductive NicStep : SendRun → SendRun → Prop where
  | report {st : State} {reported reported' : ℕ} {cq : Cq} (hle : reported ≤ reported')
      (hposted : reported' ≤ (Event.posts st.trace).length)
      (hreports : cq.Reports mlx5CqeReq st.txq.cqHead
        (((Event.outstanding st.trace).take (reported' - (Event.gathers st.trace).length)).map
          Send.wqeCounter)) :
      NicStep ⟨st, reported⟩ ⟨{ st with txq := { st.txq with txCq := cq } }, reported'⟩

/-- One step of the ring and its environment. -/
inductive Step (cfg : Config) (fuel : ℕ) : SendRun → SendRun → Prop where
  /-- The device reports. -/
  | nic {r r' : SendRun} (hnic : NicStep r r') : Step cfg fuel r r'
  /-- The rest of the program runs. -/
  | app {st st' : State} {reported : ℕ} (happ : AppStep st st') :
      Step cfg fuel ⟨st, reported⟩ ⟨st', reported⟩
  /-- A chain is handed to `mlx5_transmit_one`. -/
  | transmit {st st' : State} {reported ret : ℕ} {m : Addr}
      {requestHeader : Option RequestHeader} {inlineLen : ℕ}
      (hlegal : LegalSend fuel st.heap (Event.outstanding st.trace) m requestHeader inlineLen)
      (hcall : mlx5TransmitOne cfg fuel st m requestHeader inlineLen = some (ret, st')) :
      Step cfg fuel ⟨st, reported⟩ ⟨st', reported⟩

/-- What holds between two calls: the ring holds a queue in which nothing waits
for its release. -/
def Inv (fuel : ℕ) (r : SendRun) : Prop :=
  ∃ q, SendInv fuel r.reported r.st.txq r.st.heap r.st.trace q ∧ q.pending = []

variable {cfg : Config} {fuel : ℕ}

theorem Init.inv {r : SendRun} (h : Init r) : Inv fuel r := by
  refine ⟨SendFifo.init, ⟨h.size, ?_, h.trueCqHead, h.sqHead, ?_, ?_, ?_, ?_, ?_⟩, rfl⟩
  · rw [h.trace]
    exact .nil
  · simp [SendFifo.init]
  · simp [SendFifo.init]
  · simp [h.trace, Event.gathers]
  · simp [h.reported]
  · rw [h.cqHead]
    simpa [SendFifo.init] using h.reports

/-- A chain keeps its nodes and its release function when they are left alone. -/
theorem releasable_of_agree {heap heap' : Heap} {m : Addr} (h : Releasable fuel heap m)
    (hagree : ∀ nodes, heap.IsChain (some m) nodes → ∀ a ∈ nodes, heap' a = heap a) :
    Releasable fuel heap' m ∧ heap' m = heap m := by
  obtain ⟨nodes, hchain, hlen⟩ := h.chain
  have hkeep := hagree nodes hchain
  -- the first node is among those left alone
  have hself : heap' m = heap m := by
    cases hchain with
    | cons _ => exact hkeep m (List.mem_cons_self ..)
  refine ⟨⟨⟨nodes, hchain.congr fun a ha => by rw [hkeep a ha], hlen⟩, ?_⟩, hself⟩
  rw [hself]
  exact h.release

/-- A report adds entries to the completion queue and changes nothing else. -/
theorem NicStep.sendInv {r r' : SendRun} {q : SendFifo} (hnic : NicStep r r')
    (hq : SendInv fuel r.reported r.st.txq r.st.heap r.st.trace q) :
    SendInv fuel r'.reported r'.st.txq r'.st.heap r'.st.trace q := by
  cases hnic with
  | report hle hposted hreports =>
    rw [hq.run.outstanding_eq] at hreports
    -- the reported sends are the oldest outstanding ones, which is what a poll finds
    exact { hq with
      waiting := fun s hs => (hq.waiting s hs).congr rfl rfl
      gathered_le := hq.gathered_le.trans hle
      reported_le := hposted
      reports := hreports }

/-- The rest of the program does not disturb the ring. -/
theorem AppStep.sendInv {reported : ℕ} {st st' : State} {q : SendFifo} (happ : AppStep st st')
    (hq : SendInv fuel reported st.txq st.heap st.trace q) (hpending : q.pending = []) :
    SendInv fuel reported st'.txq st'.heap st'.trace q := by
  obtain ⟨tail, htrace, hquiet⟩ := happ.trace
  have hagree := happ.heap
  rw [hq.run.outstanding_eq] at hagree
  rw [happ.txq, htrace]
  -- the outstanding chains are left alone, and nothing else of the heap matters
  refine SendInv.append_quiet { hq with waiting := fun s hs => ?_, pending := ?_ } hquiet
  · obtain ⟨hreleasable, hself⟩ := releasable_of_agree (hq.waiting s hs).releasable (hagree s hs)
    exact ⟨by rw [hself]; exact (hq.waiting s hs).numWqes, (hq.waiting s hs).buffer, hreleasable⟩
  · simp [hpending]

/-- Every step keeps the invariant. -/
theorem Step.inv {r r' : SendRun} (hinv : Inv fuel r) (hstep : Step cfg fuel r r') :
    Inv fuel r' := by
  obtain ⟨q, hq, hpending⟩ := hinv
  cases hstep with
  | nic hnic => exact ⟨q, hnic.sendInv hq, hpending⟩
  | app happ => exact ⟨q, happ.sendInv hq hpending, hpending⟩
  | transmit hlegal hcall =>
    rw [hq.run.outstanding_eq] at hlegal
    obtain ⟨ret, st', q', hcall', hinv', hpending', -⟩ :=
      mlx5TransmitOne_spec cfg hq hpending hlegal
    rw [hcall] at hcall'
    obtain ⟨-, rfl⟩ := Prod.mk.inj (Option.some.inj hcall')
    exact ⟨q', hinv', hpending'⟩

theorem Inv.of_reachable {r : SendRun} (h : Reachable Init (Step cfg fuel) r) : Inv fuel r :=
  Reachable.invariant (P := Inv fuel) (fun _ hinit => hinit.inv) (fun _ _ hinv hstep =>
    Step.inv hinv hstep) h

/-- A legal call in a reachable state returns, and its state is reachable again. -/
theorem transmit_returns {r : SendRun} (h : Reachable Init (Step cfg fuel) r) {m : Addr}
    {requestHeader : Option RequestHeader} {inlineLen : ℕ}
    (hlegal : LegalSend fuel r.st.heap (Event.outstanding r.st.trace) m requestHeader inlineLen) :
    ∃ ret st', mlx5TransmitOne cfg fuel r.st m requestHeader inlineLen = some (ret, st') ∧
      Reachable Init (Step cfg fuel) ⟨st', r.reported⟩ := by
  obtain ⟨q, hq, hpending⟩ := Inv.of_reachable h
  have hlegal' := hlegal
  rw [hq.run.outstanding_eq] at hlegal'
  obtain ⟨ret, st', -, hcall, -⟩ := mlx5TransmitOne_spec cfg hq hpending hlegal'
  exact ⟨ret, st', hcall, h.step (.transmit hlegal hcall)⟩

/-- **Send-ring accounting and no overwrite.** In every reachable state the
counters measure the outstanding blocks; at every moment of the run these fit
the ring and no two outstanding sends share a block; and the completions
gathered so far were mapped, in order, to the chains posted for them. -/
theorem send_ring_accounting {r : SendRun} (h : Reachable Init (Step cfg fuel) r) :
    (nrInflightTx r.st.txq).toNat = Send.total (Event.outstanding r.st.trace) ∧
    (∀ tr, tr <+: r.st.trace →
      Send.total (Event.outstanding tr) ≤ r.st.txq.sq.wqeCnt.toNat ∧
      (Event.outstanding tr).Pairwise fun a b =>
        Disjoint (a.slots r.st.txq.sq.wqeCnt.toNat) (b.slots r.st.txq.sq.wqeCnt.toNat)) ∧
    Event.gathers r.st.trace =
      ((Event.posts r.st.trace).take (Event.gathers r.st.trace).length).map
        fun s => (s.wqeCounter, s.mbuf) := by
  obtain ⟨q, hq, -⟩ := Inv.of_reachable h
  refine ⟨?_, ?_, ?_⟩
  · rw [hq.run.outstanding_eq]
    exact hq.nrInflightTx
  · intro tr hpre
    -- every moment of the run was the end of a run of its own
    obtain ⟨q', hrun⟩ := hq.run.of_prefix hpre
    have hwell := hrun.wellFormed
    rw [hrun.outstanding_eq]
    exact ⟨hwell.fit, pairwise_disjoint_slots hq.dvd32 hwell.positions hwell.fit⟩
  · obtain ⟨done, hposts, hgathers, -⟩ := hq.run.split
    simp [hposts, hgathers]

/-- A ring of four blocks with one chain of one mbuf to send. -/
def oneSend : State :=
  { State.zeroed 4 4 with
    heap := fun _ => { Mbuf.zeroed with nbSegs := 1, release := some .txCompletion } }

theorem oneSend_init : Init ⟨oneSend, 0⟩ where
  size := ⟨2, by decide, rfl⟩
  sqHead := rfl
  cqHead := rfl
  trueCqHead := rfl
  trace := rfl
  reported := rfl
  reports := by decide +kernel

/-- A chain of one mbuf. -/
theorem legalSend_of_single {heap : Heap} {outstanding : List Send} {m : Addr}
    (hnext : (heap m).next = none) (hsegs : (heap m).nbSegs = 1)
    (hrelease : (heap m).release = some .txCompletion) (hfresh : m ∉ outstanding.map Send.mbuf) :
    LegalSend 1 heap outstanding m none 0 where
  chain := ⟨[m], .cons (hnext ▸ .nil), by rw [hsegs]; rfl, le_rfl⟩
  range := by rw [hsegs]; decide
  release := by simp [hrelease]
  fresh := hfresh
  inlineLen_ok := .inl rfl
  header := by simp

theorem oneSend_legal : LegalSend 1 oneSend.heap (Event.outstanding oneSend.trace) 7 none 0 :=
  legalSend_of_single rfl rfl rfl (by decide)

/-- The state after one more call of `mlx5_transmit_one`. -/
def afterSend (st : State) (m : Addr) : State :=
  match mlx5TransmitOne Config.default 1 st m none 0 with
  | some (_, st') => st'
  | none => st

theorem afterSend_reachable {st : State} {m : Addr} {reported : ℕ}
    (h : Reachable Init (Step Config.default 1) ⟨st, reported⟩)
    (hlegal : LegalSend 1 st.heap (Event.outstanding st.trace) m none 0) :
    Reachable Init (Step Config.default 1) ⟨afterSend st m, reported⟩ := by
  obtain ⟨ret, st', hcall, hreach⟩ := transmit_returns h hlegal
  rwa [afterSend, hcall]

/-- Four chains fill the ring. -/
def fourSent : State := [7, 8, 9, 10].foldl afterSend oneSend

theorem fourSent_reachable : Reachable Init (Step Config.default 1) ⟨fourSent, 0⟩ := by
  have hfirst := afterSend_reachable (.init oneSend_init) oneSend_legal
  have hsecond := afterSend_reachable (m := 8) hfirst (legalSend_of_single (by decide +kernel)
    (by decide +kernel) (by decide +kernel) (by decide +kernel))
  have hthird := afterSend_reachable (m := 9) hsecond (legalSend_of_single (by decide +kernel)
    (by decide +kernel) (by decide +kernel) (by decide +kernel))
  exact afterSend_reachable (m := 10) hthird (legalSend_of_single (by decide +kernel) (by decide +kernel)
    (by decide +kernel) (by decide +kernel))

/-- The device has reported the first two of them. -/
def twoReported : Cq :=
  { fourSent.txq.txCq with
    buf := fun i => if i < 2 then ⟨0, 0, 0, htobe16 (UInt16.ofNat i), 0⟩
      else fourSent.txq.txCq.buf i }

def fourReported : State := { fourSent with txq := { fourSent.txq with txCq := twoReported } }

theorem fourSent_reports : NicStep ⟨fourSent, 0⟩ ⟨fourReported, 2⟩ :=
  .report (Nat.zero_le 2) (by decide +kernel) (by decide +kernel)

theorem afterSend_fourReported : (Event.posts (afterSend fourReported 11).trace).map Send.mbuf =
    [7, 8, 9, 10, 11] ∧ Event.gathers (afterSend fourReported 11).trace = [(0, 7), (1, 8)] ∧
      Event.frees (afterSend fourReported 11).trace = [7, 8] := by
  decide +kernel

/-- The accounting when a fifth send has gathered two of the four before it. -/
theorem send_ring_accounting_fiveSends :
    ∃ r : SendRun, (Event.posts r.st.trace).map Send.mbuf = [7, 8, 9, 10, 11] ∧
      Event.gathers r.st.trace = [(0, 7), (1, 8)] ∧
      (nrInflightTx r.st.txq).toNat = Send.total (Event.outstanding r.st.trace) ∧
      (∀ tr, tr <+: r.st.trace →
        Send.total (Event.outstanding tr) ≤ r.st.txq.sq.wqeCnt.toNat ∧
        (Event.outstanding tr).Pairwise fun a b =>
          Disjoint (a.slots r.st.txq.sq.wqeCnt.toNat) (b.slots r.st.txq.sq.wqeCnt.toNat)) ∧
      Event.gathers r.st.trace =
        ((Event.posts r.st.trace).take (Event.gathers r.st.trace).length).map
          fun s => (s.wqeCounter, s.mbuf) := by
  have hreported := fourSent_reachable.step (.nic fourSent_reports)
  have hfifth := afterSend_reachable (m := 11) hreported (legalSend_of_single (by decide +kernel)
    (by decide +kernel) (by decide +kernel) (by decide +kernel))
  obtain ⟨hposts, hgathers, -⟩ := afterSend_fourReported
  exact ⟨_, hposts, hgathers, send_ring_accounting hfifth⟩

end SendRun

end Mlx5Netperf
