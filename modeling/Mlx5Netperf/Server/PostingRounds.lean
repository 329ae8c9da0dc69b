import Mlx5Netperf.Mlx5.RefusedSend
import Mlx5Netperf.Server.ServerProgress

/-!
# How Long a Batch Is Posted

`post_mbufs` spins on a packet that the ring refuses. When the device keeps up with
the program, nothing that fits the ring is refused, and a batch is posted with one
call of `mlx5_transmit_one` for each of its packets.
-/

namespace Mlx5Netperf

open Transition PostRun

/-! ## A ring whose sends are all reported -/

section Reported

variable {cfg : Config} {fuel reported : ℕ} {st : State} {q : SendFifo} {m : Addr}
  {requestHeader : Option RequestHeader} {inlineLen : ℕ}

/-- Of more sends than one round of completions takes, that many blocks are freed. -/
theorem le_total_take {ss : List Send} (hpos : ∀ s ∈ ss, 0 < s.numWqes.toNat) {n : ℕ}
    (hn : n ≤ ss.length) : n ≤ Send.total (ss.take n) := by
  have hle := SendRun.length_le_total fun s (hs : s ∈ ss.take n) => hpos s (List.mem_of_mem_take hs)
  rwa [List.length_take, Nat.min_eq_left hn] at hle

/-- **Nothing that fits is refused** once the device reported all sends. -/
theorem not_refused_of_reported (cfg : Config)
    (h : SendInv fuel reported st.txq st.heap st.trace q) (hpending : q.pending = [])
    (hlegal : LegalSend fuel st.heap q.outstanding m requestHeader inlineLen)
    (hreported : reported = (Event.posts st.trace).length)
    (hfits : wqeBlocks inlineLen (st.heap m).nbSegs.toNat ≤ min sqCleanMax st.txq.sq.wqeCnt.toNat) :
    ¬ ∃ st', mlx5TransmitOne cfg fuel st m requestHeader inlineLen = some (0, st') := by
  rw [mlx5TransmitOne_refused_iff h hpending hlegal]
  have hlength := h.run.length_outstanding
  have hwell := h.run.wellFormed
  have hunread : reported - (Event.gathers st.trace).length = q.outstanding.length := by omega
  rw [hunread]
  rcases Nat.le_total q.outstanding.length sqCleanMax with hfew | hmany
  · -- the ring becomes empty
    rw [Nat.min_eq_right hfew, List.drop_length, Send.total_nil]
    omega
  · rw [Nat.min_eq_left hmany]
    have hfreed := le_total_take hwell.pos hmany
    have hfit := hwell.fit
    rw [← List.take_append_drop sqCleanMax q.outstanding, Send.total_append] at hfit
    omega

end Reported

namespace ServerRun

variable {cfg : Config} {fuel : ℕ} {I : Holding} {r r' : ServerRun}

/-! ## Rounds -/

/-- The device reports sends or receives packets. -/
inductive DeviceStep : ServerRun → ServerRun → Prop where
  | reports {r : ServerRun} {run' : SendRun} (hnic : SendRun.NicStep r.post.run run') :
      DeviceStep r { r with post := { r.post with run := run' } }
  | receives {r r' : ServerRun} (hnic : NicReceives r r') : DeviceStep r r'

theorem DeviceStep.step (h : DeviceStep r r') : Step cfg fuel r r' := by
  cases h with
  | reports hnic => exact .reports hnic
  | receives hnic => exact .receives hnic

/-- The device keeps up: before the program sends, everything it sent is reported. -/
def CaughtUp (r : ServerRun) : Prop :=
  r.post.ctl ≠ none → r.post.run.reported = (Event.posts r.st.trace).length

/-- One step of the program, with the device steps before it. -/
def Round (cfg : Config) (fuel : ℕ) (r r' : ServerRun) : Prop :=
  ∃ r₁, Relation.ReflTransGen DeviceStep r r₁ ∧ r₁.CaughtUp ∧ doServerStep cfg fuel r₁ = some r'

/-- That many rounds. -/
def Rounds (cfg : Config) (fuel : ℕ) : ℕ → ServerRun → ServerRun → Prop
  | 0, r, r' => r' = r
  | n + 1, r, r' => ∃ r₁, Round cfg fuel r r₁ ∧ Rounds cfg fuel n r₁ r'

/-- Whether the chain of a packet fits the ring, and one round of completions. -/
def Fits (r : ServerRun) (a : SendArgs) : Prop :=
  wqeBlocks a.inlineLen (r.st.heap a.mbuf).nbSegs.toNat ≤ min sqCleanMax r.st.txq.sq.wqeCnt.toNat

instance (r : ServerRun) (a : SendArgs) : Decidable (r.Fits a) := inferInstanceAs (Decidable (_ ≤ _))

/-- What the device leaves alone. -/
structure SameProgram (r r' : ServerRun) : Prop where
  phase : r'.phase = r.phase
  ctl : r'.post.ctl = r.post.ctl
  heap : r'.st.heap = r.st.heap
  wqeCnt : r'.st.txq.sq.wqeCnt = r.st.txq.sq.wqeCnt

theorem DeviceStep.sameProgram (h : DeviceStep r r') : SameProgram r r' := by
  cases h with
  | reports hnic =>
    obtain ⟨⟨run, ctl, batches⟩, taken, received, phase, lost⟩ := r
    cases hnic
    exact ⟨rfl, rfl, rfl, rfl⟩
  | receives hnic =>
    cases hnic
    exact ⟨rfl, rfl, rfl, rfl⟩

theorem sameProgram_of_deviceSteps (h : Relation.ReflTransGen DeviceStep r r') :
    SameProgram r r' := by
  induction h with
  | refl => exact ⟨rfl, rfl, rfl, rfl⟩
  | tail _ hstep ih =>
    have hlast := hstep.sameProgram
    exact ⟨hlast.phase.trans ih.phase, hlast.ctl.trans ih.ctl, hlast.heap.trans ih.heap,
      hlast.wqeCnt.trans ih.wqeCnt⟩

theorem reachable_of_deviceSteps (h : Reachable (Init I) (Step cfg fuel) r)
    (hsteps : Relation.ReflTransGen DeviceStep r r') : Reachable (Init I) (Step cfg fuel) r' := by
  induction hsteps with
  | refl => exact h
  | tail _ hstep ih => exact ih.step hstep.step

/-! ## Posting -/

/-- **A round of posting** sends the next packet. -/
theorem Round.posting {rest batch : List Addr} {a : SendArgs} {later : List SendArgs}
    (hI : I.Distinct) (hsegments : cfg.numSegments.toNat ≤ maxScatters) (hfuel : maxScatters ≤ fuel)
    (h : Reachable (Init I) (Step cfg fuel) r) (hphase : r.phase = .posting rest batch)
    (hremaining : remaining r.post.ctl = a :: later) (hfits : r.Fits a)
    (hround : Round cfg fuel r r') :
    Reachable (Init I) (Step cfg fuel) r' ∧ r'.phase = .posting rest batch ∧
      remaining r'.post.ctl = later ∧ r.st.heap.SameButWqes r'.st.heap ∧
      r'.st.txq.sq.wqeCnt = r.st.txq.sq.wqeCnt := by
  obtain ⟨r₁, hsteps, hcaught, hrun⟩ := hround
  have hsame := sameProgram_of_deviceSteps hsteps
  have hreach := reachable_of_deviceSteps h hsteps
  have hinv := Inv.of_reachable hI hsegments hfuel hreach
  have hreach' : Reachable (Init I) (Step cfg fuel) r' := hreach.step (.program hrun)
  rw [← hsame.ctl] at hremaining
  obtain ⟨c, hctl⟩ : ∃ c, r₁.post.ctl = some c := by
    cases hctl : r₁.post.ctl with
    | none => simp [hctl, remaining] at hremaining
    | some c => exact ⟨c, rfl⟩
  obtain ⟨q, hq, hpending⟩ := hinv.post.ring
  obtain ⟨posted, hprogress, -⟩ := hinv.post.progress
  rw [hctl] at hprogress hremaining
  obtain ⟨hok, -⟩ := hprogress
  have hlt := hok.lt
  rw [remaining, List.drop_eq_getElem_cons hlt] at hremaining
  obtain ⟨ha, hlater⟩ := List.cons.inj hremaining
  have hlegal := hinv.post.legal.legal a (by
    rw [hctl, remaining, List.drop_eq_getElem_cons hlt, ha]
    exact List.mem_cons_self ..)
  rw [hq.run.outstanding_eq] at hlegal
  -- the next packet is not refused
  have hreported := hcaught (by simp [hctl])
  have hnot := not_refused_of_reported cfg hq hpending hlegal hreported (by
    rw [Fits, ← hsame.heap, ← hsame.wqeCnt] at hfits
    exact hfits)
  obtain ⟨ret, st', q', hcall, hq', -, hcase⟩ := mlx5TransmitOne_outcome cfg hq hpending hlegal
  rcases hcase with ⟨rfl, -⟩ | ⟨rfl, hsent, -⟩
  · exact absurd ⟨st', hcall⟩ hnot
  have hstep : SendRun.Step cfg fuel r₁.post.run ⟨st', r₁.post.run.reported⟩ :=
    .transmit (by rw [hq.run.outstanding_eq]; exact hlegal) hcall
  have hwqeCnt := hstep.wqeCnt ⟨q, hq, hpending⟩
  have hphase' : r₁.phase = .posting rest batch := hsame.phase.trans hphase
  have hget : c.batch[c.i]? = some a := by rw [List.getElem?_eq_getElem hlt, ha]
  rw [doServerStep, hphase', hctl] at hrun
  simp only [hget, Option.bind_some, hcall, Option.map_some, Option.some.injEq] at hrun
  subst hrun
  refine ⟨hreach', rfl, ?_, ?_, hwqeCnt.trans hsame.wqeCnt⟩
  · rw [PostRun.remaining_resume hok, if_pos rfl, hlater]
  · -- of all mbufs `num_wqes` of the first is written
    show r.st.heap.SameButWqes st'.heap
    rw [hsent.heap, hsame.heap]
    exact Heap.sameButWqes_modify _ _ _

/-- The chain of a packet fits as before when only `num_wqes` changed. -/
theorem Fits.congr {a : SendArgs} (h : r.Fits a) (hheap : r.st.heap.SameButWqes r'.st.heap)
    (hwqeCnt : r'.st.txq.sq.wqeCnt = r.st.txq.sq.wqeCnt) : r'.Fits a := by
  obtain ⟨n, hn⟩ := hheap a.mbuf
  unfold Fits at h ⊢
  rw [hn, hwqeCnt]
  exact h

/-- **The last round** frees the packets and starts the next batch. -/
theorem Round.finished {rest batch : List Addr} (hI : I.Distinct)
    (hsegments : cfg.numSegments.toNat ≤ maxScatters) (hfuel : maxScatters ≤ fuel)
    (h : Reachable (Init I) (Step cfg fuel) r) (hphase : r.phase = .posting rest batch)
    (hremaining : remaining r.post.ctl = []) (hround : Round cfg fuel r r') :
    r'.phase = .burst rest [] := by
  obtain ⟨r₁, hsteps, -, hrun⟩ := hround
  have hsame := sameProgram_of_deviceSteps hsteps
  have hinv := Inv.of_reachable hI hsegments hfuel (reachable_of_deviceSteps h hsteps)
  rw [← hsame.ctl] at hremaining
  have hctl : r₁.post.ctl = none := by
    cases hctl : r₁.post.ctl with
    | none => rfl
    | some c =>
      -- the loops stand before a packet of their batch
      obtain ⟨posted, hprogress, -⟩ := hinv.post.progress
      rw [hctl] at hprogress hremaining
      obtain ⟨hok, -⟩ := hprogress
      have hlt := hok.lt
      have hle := List.drop_eq_nil_iff.mp hremaining
      omega
  rw [doServerStep, hsame.phase.trans hphase, hctl] at hrun
  obtain ⟨⟨own, post⟩, -, rfl⟩ := Option.map_eq_some_iff.mp hrun
  rfl

/-- **A batch is posted in one call for each packet** when the device keeps up and
every chain fits the ring: after these and one more round the batch is over. -/
theorem posting_finishes {rest batch : List Addr} (hI : I.Distinct)
    (hsegments : cfg.numSegments.toNat ≤ maxScatters) (hfuel : maxScatters ≤ fuel)
    (h : Reachable (Init I) (Step cfg fuel) r) (hphase : r.phase = .posting rest batch)
    (hfits : ∀ a ∈ remaining r.post.ctl, r.Fits a)
    (hrounds : Rounds cfg fuel ((remaining r.post.ctl).length + 1) r r') :
    r'.phase = .burst rest [] := by
  generalize hlater : remaining r.post.ctl = later at hfits hrounds
  induction later generalizing r with
  | nil =>
    obtain ⟨r₁, hround, rfl⟩ := hrounds
    exact hround.finished hI hsegments hfuel h hphase hlater
  | cons a later ih =>
    obtain ⟨r₁, hround, hrounds⟩ := hrounds
    obtain ⟨hreach, hphase₁, hlater₁, hheap, hwqeCnt⟩ := hround.posting hI hsegments hfuel h hphase
      hlater (hfits a (List.mem_cons_self ..))
    refine ih hreach hphase₁ hlater₁ (fun b hb => ?_) hrounds
    exact (hfits b (List.mem_cons_of_mem _ hb)).congr hheap hwqeCnt

/-- The reply of the small server is posted in one round, and a second one ends the batch. -/
theorem posting_finishes_smallReceived : ∃ r r', r.phase = .posting [] [0x400000] ∧
    Rounds smallConfig 32 2 r r' ∧ r'.phase = .burst [] [] := by
  have hruns : ((doServerStep smallConfig 32 smallReceived).bind (doServerStep smallConfig 32)).bind
      (fun r => (doServerStep smallConfig 32 r).bind fun r₁ => (doServerStep smallConfig 32 r₁).map
        fun _ => (r.phase, (remaining r.post.ctl).map fun a => decide (r.Fits a),
          decide (r.post.run.reported = (Event.posts r.st.trace).length), r₁.post.ctl.isNone)) =
        some (.posting [] [0x400000], [true], true, true) := by
    decide +kernel
  obtain ⟨r, hr, hrest⟩ := Option.bind_eq_some_iff.mp hruns
  obtain ⟨r₀, hpoll, hprocess⟩ := Option.bind_eq_some_iff.mp hr
  obtain ⟨r₁, hsend, hlast⟩ := Option.bind_eq_some_iff.mp hrest
  obtain ⟨r₂, hfinish, heq⟩ := Option.map_eq_some_iff.mp hlast
  simp only [Prod.mk.injEq, decide_eq_true_eq, Option.isNone_iff_eq_none] at heq
  obtain ⟨hphase, hfits, hreported, hctl⟩ := heq
  obtain ⟨a, hremaining, hfit⟩ := List.map_eq_singleton_iff.mp hfits
  have hreach : Reachable (Init smallItems) (Step smallConfig 32) r :=
    (smallProcessed_reachable smallServer_init hpoll hprocess).mono fun _ _ h => h.step
  have hrounds : Rounds smallConfig 32 2 r r₂ :=
    ⟨r₁, ⟨r, .refl, fun _ => hreported, hsend⟩, r₂, ⟨r₁, .refl, fun h => absurd hctl h, hfinish⟩, rfl⟩
  refine ⟨r, r₂, hphase, hrounds, ?_⟩
  refine posting_finishes smallItems_distinct (by decide) (Nat.le_refl 32) hreach hphase ?_ ?_
  · rw [hremaining]
    simpa using hfit
  · rw [hremaining]
    exact hrounds

end ServerRun

end Mlx5Netperf
