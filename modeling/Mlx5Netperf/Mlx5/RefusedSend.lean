import Mlx5Netperf.Mlx5.Poll
import Mlx5Netperf.Mlx5.SendRun

/-!
# When a Send Is Refused

`mlx5_transmit_one` returns 0 exactly when the chain does not fit behind the
outstanding ones, also not after the oldest `SQ_CLEAN_MAX` of the reported sends made
room. What is refused once the device reported everything does not fit the ring at all.
-/

namespace Mlx5Netperf

open SendFifo

variable {cfg : Config} {fuel reported : ℕ} {st st' : State} {q q' : SendFifo} {m : Addr}
  {requestHeader : Option RequestHeader} {inlineLen : ℕ}

/-! ## What one round of completions takes -/

/-- Completions take the oldest outstanding sends, as many as are gathered. -/
theorem oldest_kept (cfg : Config) (fuel reported : ℕ) (outstanding : List Send) (gathered : ℕ) :
    KeptByCompletions cfg fuel reported fun st q => ∃ k, q.outstanding = outstanding.drop k ∧
      (Event.gathers st.trace).length = gathered + k where
  gather := by
    rintro st p s rest pending - ⟨k, hdrop, hgathers⟩
    refine ⟨k + 1, ?_, ?_⟩
    · have htail := congrArg List.tail hdrop
      rwa [List.tail_cons, List.tail_drop] at htail
    · simp [State.gather, hgathers, Nat.add_assoc]
  free := by
    rintro st st' p outstanding m pending - ⟨k, hdrop, hgathers⟩ hfree
    obtain ⟨tail, hreleased⟩ := mbufFree_released hfree
    have hquiet : ∀ e ∈ tail, e.IsQuiet := fun e he => (hreleased.tail_isRelease e he).isQuiet
    refine ⟨k, hdrop, ?_⟩
    rw [hreleased.trace, Event.gathers_append, Event.gathers_eq_nil hquiet]
    simp [hgathers]
  txq := fun _ h => h

/-- A gathering call finds as many completions as are reported and not yet read. -/
theorem length_mlx5GatherCompletionsLoop {budget : ℕ} {ms : List Addr}
    (h : SendInv fuel reported st.txq st.heap st.trace q)
    (hloop : mlx5GatherCompletionsLoop budget st = some (ms, st')) :
    ms.length = min budget (reported - (Event.gathers st.trace).length) := by
  rw [mlx5GatherCompletionsLoop_eq] at hloop
  have hpolled := congrArg List.length (h.reports.map_poll (by decide) budget)
  have hlength := h.run.length_outstanding
  have hle := h.reported_le
  rw [← Poller.length_entries hloop]
  simp only [List.length_map, List.length_take] at hpolled
  exact hpolled.trans (by omega)

/-- Every entry that is taken is logged. -/
theorem gathers_takeAll {cqes : List Mlx5Cqe64} {ms : List Addr} (hlen : cqes.length = ms.length)
    (st : State) : (Event.gathers (txPoller.takeAll st cqes ms).trace).length =
      (Event.gathers st.trace).length + ms.length := by
  induction ms generalizing st cqes with
  | nil =>
    obtain rfl := List.length_eq_zero_iff.mp hlen
    simp
  | cons m ms ih =>
    obtain ⟨cqe, cqes, rfl⟩ := List.exists_cons_of_length_eq_add_one hlen
    rw [Poller.takeAll_cons, ih (Nat.succ.inj hlen)]
    simp [txPoller, State.gather]
    omega

/-- **One round of completions** takes the oldest of the reported sends off the ring,
`SQ_CLEAN_MAX` of them at most. -/
theorem gatherAndFree_drop (cfg : Config) (h : SendInv fuel reported st.txq st.heap st.trace q)
    (hpending : q.pending = []) : ∃ st' q', gatherAndFree cfg fuel st = some st' ∧
      Completes cfg fuel reported st q st' q' ∧ q'.pending = [] ∧ q'.outstanding =
        q.outstanding.drop (min sqCleanMax (reported - (Event.gathers st.trace).length)) := by
  obtain ⟨ms, st₁, q₁, hloop, hcompletes₁, hpending₁⟩ :=
    mlx5GatherCompletionsLoop_spec cfg sqCleanMax h
  rw [hpending, List.nil_append] at hpending₁
  have hdoorbell : Completes cfg fuel reported st₁ q₁ _ q₁ :=
    .cqDoorbell hcompletes₁.inv (ByteOrder.bswap32 (st₁.txq.cqHead &&& 0xffffff))
  obtain ⟨st', hfree, hcompletes⟩ := mbufFreeAll_spec cfg hdoorbell.inv hpending₁
  refine ⟨st', { q₁ with pending := [] }, ?_, (hcompletes₁.trans hdoorbell).trans hcompletes, rfl, ?_⟩
  · simp only [gatherAndFree, mlx5GatherCompletions, hloop, Option.map_some, Option.bind_some]
    exact hfree
  · obtain ⟨k, hdrop, hgathers⟩ := hcompletes₁.kept
      (oldest_kept cfg fuel reported q.outstanding (Event.gathers st.trace).length) ⟨0, rfl, rfl⟩
    have hlogged : (Event.gathers st₁.trace).length =
        (Event.gathers st.trace).length + ms.length := by
      rw [mlx5GatherCompletionsLoop_eq] at hloop
      obtain ⟨hall, rfl⟩ := Poller.loop_eq_some_iff.mp hloop
      exact gathers_takeAll hall.length_eq st
    have hcount := length_mlx5GatherCompletionsLoop h hloop
    obtain rfl : k = min sqCleanMax (reported - (Event.gathers st.trace).length) := by omega
    exact hdrop

/-! ## Refusals -/

/-- Fewer outstanding sends take fewer blocks. -/
theorem total_drop_le (ss : List Send) (k : ℕ) : Send.total (ss.drop k) ≤ Send.total ss := by
  conv_rhs => rw [← List.take_append_drop k ss, Send.total_append]
  exact Nat.le_add_left ..

/-- **A reservation** succeeds exactly when there is room behind what one round of
completions leaves. -/
theorem reserveWqes_room (cfg : Config) (h : SendInv fuel reported st.txq st.heap st.trace q)
    (hpending : q.pending = []) (n : Int32) : ∃ room st', reserveWqes cfg fuel st n = some (room, st') ∧
      (room = true ↔ Send.total (q.outstanding.drop
        (min sqCleanMax (reported - (Event.gathers st.trace).length))) + n.toUInt32.toNat ≤
          st.txq.sq.wqeCnt.toNat) := by
  have hle := total_drop_le q.outstanding
    (min sqCleanMax (reported - (Event.gathers st.trace).length))
  cases hfull : sqFull st.txq n with
  | false =>
    have hroom := h.sqFull_eq_false.mp hfull
    refine ⟨true, st, by simp [reserveWqes, hfull], iff_of_true rfl ?_⟩
    omega
  | true =>
    obtain ⟨st', q', hgather, hcompletes, -, hdrop⟩ := gatherAndFree_drop cfg h hpending
    refine ⟨!sqFull st'.txq n, st', by simp [reserveWqes, hfull, hgather], ?_⟩
    rw [Bool.not_eq_true', hcompletes.inv.sqFull_eq_false, hdrop, hcompletes.same.sq]

/-- **A send is refused** exactly when its blocks do not fit behind what one round of
completions leaves. -/
theorem mlx5TransmitOne_refused_iff (h : SendInv fuel reported st.txq st.heap st.trace q)
    (hpending : q.pending = [])
    (hlegal : LegalSend fuel st.heap q.outstanding m requestHeader inlineLen) :
    (∃ st', mlx5TransmitOne cfg fuel st m requestHeader inlineLen = some (0, st')) ↔
      st.txq.sq.wqeCnt.toNat < Send.total (q.outstanding.drop
        (min sqCleanMax (reported - (Event.gathers st.trace).length))) +
          wqeBlocks inlineLen (st.heap m).nbSegs.toNat := by
  obtain ⟨room, st₁, hreserve, hroom⟩ := reserveWqes_room cfg h hpending
    (numWqes (numUnits inlineLen (st.heap m).nbSegs))
  rw [(numWqes_toNat hlegal.inlineLen_ok _ hlegal.range).1] at hroom
  rw [← Nat.not_le, ← hroom]
  cases room with
  | false =>
    refine iff_of_true ⟨st₁, ?_⟩ Bool.false_ne_true
    simp [mlx5TransmitOne, mlx5PostTransmission, mlx5FillTxSegment, hreserve]
  | true =>
    simp only [not_true_eq_false, iff_false, not_exists]
    intro st' hcall
    obtain ⟨⟨ctrl, st₂⟩, hpost, hrest⟩ := Option.bind_eq_some_iff.mp hcall
    obtain ⟨⟨ret, st₃⟩, hfill, hctrl⟩ := Option.map_eq_some_iff.mp hpost
    -- with room the descriptor is written, and 1 is returned
    obtain ⟨⟨room, st₄⟩, hreserve', hstores⟩ := Option.bind_eq_some_iff.mp hfill
    obtain ⟨rfl, rfl⟩ := Prod.mk.inj (Option.some.inj (hreserve.symm.trans hreserve'))
    obtain ⟨stores, -, hret⟩ := Option.map_eq_some_iff.mp hstores
    obtain ⟨rfl, rfl⟩ := Prod.mk.inj hret
    have hne : (0 : Int32) ≠ enomem := by decide
    simp only [if_neg hne, Prod.mk.injEq] at hctrl
    obtain ⟨rfl, rfl⟩ := hctrl
    dsimp only at hrest
    split at hrest
    · obtain ⟨st₅, -, hone⟩ := Option.map_eq_some_iff.mp hrest
      simp at hone
    · simp at hrest

namespace SendRun

open Transition

variable {r : SendRun}

/-- **When `mlx5_transmit_one` refuses a chain**, in every state of every run. -/
theorem send_refused_iff (h : Reachable Init (Step cfg fuel) r)
    (hlegal : LegalSend fuel r.st.heap (Event.outstanding r.st.trace) m requestHeader inlineLen) :
    (∃ st', mlx5TransmitOne cfg fuel r.st m requestHeader inlineLen = some (0, st')) ↔
      r.st.txq.sq.wqeCnt.toNat < Send.total ((Event.outstanding r.st.trace).drop
        (min sqCleanMax (r.reported - (Event.gathers r.st.trace).length))) +
          wqeBlocks inlineLen (r.st.heap m).nbSegs.toNat := by
  obtain ⟨q, hq, hpending⟩ := Inv.of_reachable h
  have houtstanding := hq.run.outstanding_eq
  rw [houtstanding] at hlegal ⊢
  exact mlx5TransmitOne_refused_iff hq hpending hlegal

/-- An empty ring of four blocks does not refuse a chain of one mbuf. -/
theorem send_refused_iff_oneSend :
    ¬ ∃ st', mlx5TransmitOne Config.default 1 oneSend 7 none 0 = some (0, st') :=
  (send_refused_iff (.init oneSend_init : Reachable Init (Step Config.default 1) ⟨oneSend, 0⟩)
    oneSend_legal).not.mpr (by decide +kernel)

end SendRun

end Mlx5Netperf
