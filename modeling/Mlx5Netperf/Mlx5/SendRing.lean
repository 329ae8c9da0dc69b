import Mlx5Netperf.Mlx5.SendFifo
import Mlx5Netperf.Mlx5.FillTxSegment

/-!
# The Send Ring Follows the Abstract Queue

`SendInv` ties the three counters, the `buffers` array and the completion queue
of an `mlx5_txq` to a `SendFifo`. Each function of the send path keeps it: the
gathering loop, the release loop, the reservation, the posting of a descriptor
and `mlx5_transmit_one` as a whole. The same lemmas say that every one of these
calls returns.
-/

namespace Mlx5Netperf

open WordArith SendFifo

/-! ## Slots -/

/-- The slot that a completion names is the slot of the head it was posted at. -/
theorem wqeIdx_toNat {w : UInt32} {k : ℕ} (hk : k ≤ 16) (hw : w.toNat = 2 ^ k) (head : UInt32) :
    (wqeIdx head.toUInt16 w).toNat = head.toNat % w.toNat := by
  -- the ring size divides `2 ^ 16`, so the low 16 bits of the head suffice
  have hdvd : w.toNat ∣ 2 ^ 16 := dvd_two_pow_of_le hw hk
  have hle : w.toNat ≤ 2 ^ 16 := Nat.le_of_dvd (by omega) hdvd
  have hpos : 0 < w.toNat := hw ▸ Nat.two_pow_pos k
  have hlt := Nat.mod_lt head.toNat hpos
  rw [wqeIdx, UInt32.toNat_toUInt16, toNat_and_sub_one hw, UInt16.toNat_toUInt32,
    toNat_toUInt16_mod hdvd]
  exact Nat.mod_eq_of_lt (by omega)

theorem currentIdx_toNat {v : Mlx5Txq} {k : ℕ} (hw : v.sq.wqeCnt.toNat = 2 ^ k) :
    v.currentIdx.toNat = v.sqHead.toNat % v.sq.wqeCnt.toNat := toNat_and_sub_one hw

/-! ## The invariant -/

/-- An outstanding send as the driver remembers it. -/
structure Waiting (fuel : ℕ) (v : Mlx5Txq) (heap : Heap) (s : Send) : Prop where
  numWqes : (heap s.mbuf).numWqes = s.numWqes
  buffer : v.buffers (s.sqHead.toNat % v.sq.wqeCnt.toNat) = some s.mbuf
  releasable : Releasable fuel heap s.mbuf

theorem Waiting.congr {fuel : ℕ} {v v' : Mlx5Txq} {heap : Heap} {s : Send}
    (h : Waiting fuel v heap s) (hbuffers : v'.buffers = v.buffers) (hsq : v'.sq = v.sq) :
    Waiting fuel v' heap s :=
  ⟨h.numWqes, by rw [hbuffers, hsq]; exact h.buffer, h.releasable⟩

/-- The send ring `v` holds the queue `q` at the end of the trace, and the
device has reported the first `reported` of all sends. -/
structure SendInv (fuel reported : ℕ) (v : Mlx5Txq) (heap : Heap) (tr : List Event)
    (q : SendFifo) : Prop where
  size : ∃ k ≤ 16, v.sq.wqeCnt.toNat = 2 ^ k
  run : Run v.sq.wqeCnt.toNat tr q
  trueCqHead : v.trueCqHead = UInt32.ofNat q.start
  sqHead : v.sqHead = UInt32.ofNat q.stop
  waiting : ∀ s ∈ q.outstanding, Waiting fuel v heap s
  pending : ∀ m ∈ q.pending, Releasable fuel heap m
  gathered_le : (Event.gathers tr).length ≤ reported
  reported_le : reported ≤ (Event.posts tr).length
  reports : v.txCq.Reports mlx5CqeReq v.cqHead
    ((q.outstanding.take (reported - (Event.gathers tr).length)).map Send.wqeCounter)

section Invariant

variable {fuel reported : ℕ} {v : Mlx5Txq} {heap : Heap} {tr : List Event} {q : SendFifo}

theorem SendInv.dvd (h : SendInv fuel reported v heap tr q) : v.sq.wqeCnt.toNat ∣ 2 ^ 16 := by
  obtain ⟨k, hk, hw⟩ := h.size
  exact dvd_two_pow_of_le hw hk

theorem SendInv.dvd32 (h : SendInv fuel reported v heap tr q) : v.sq.wqeCnt.toNat ∣ 2 ^ 32 :=
  h.dvd.trans (pow_dvd_pow 2 (by omega))

theorem SendInv.wqeCnt_le (h : SendInv fuel reported v heap tr q) :
    v.sq.wqeCnt.toNat ≤ 2 ^ 16 := Nat.le_of_dvd (by omega) h.dvd

/-- **The head counters measure the outstanding sends.** -/
theorem SendInv.nrInflightTx (h : SendInv fuel reported v heap tr q) :
    (nrInflightTx v).toNat = Send.total q.outstanding := by
  have hfit := h.run.wellFormed.fit
  have hle := h.wqeCnt_le
  rw [Mlx5Netperf.nrInflightTx, h.sqHead, h.trueCqHead, stop, ofNat_add_sub]
  exact toNat_ofNat_of_lt (by omega)

/-- A full ring is one without `n` free blocks. -/
theorem SendInv.sqFull_eq_false (h : SendInv fuel reported v heap tr q) {n : Int32} :
    sqFull v n = false ↔ Send.total q.outstanding + n.toUInt32.toNat ≤ v.sq.wqeCnt.toNat := by
  have hfit := h.run.wellFormed.fit
  have hinflight : Mlx5Netperf.nrInflightTx v = UInt32.ofNat (Send.total q.outstanding) := by
    rw [← h.nrInflightTx, UInt32.ofNat_toNat]
  rw [sqFull, decide_eq_false_iff_not, UInt32.lt_iff_toNat_lt, hinflight, toNat_sub_ofNat hfit]
  omega

/-- A quiet event keeps the invariant. -/
theorem SendInv.quiet {e : Event} (h : SendInv fuel reported v heap tr q) (he : e.IsQuiet) :
    SendInv fuel reported v heap (tr ++ [e]) q where
  size := h.size
  run := h.run.snoc (.quiet he)
  trueCqHead := h.trueCqHead
  sqHead := h.sqHead
  waiting := h.waiting
  pending := h.pending
  gathered_le := by simpa [Event.gathers_of_isQuiet he] using h.gathered_le
  reported_le := by simpa [Event.posts_of_isQuiet he] using h.reported_le
  reports := by simpa [Event.gathers_of_isQuiet he] using h.reports

theorem SendInv.append_quiet {tail : List Event} (h : SendInv fuel reported v heap tr q)
    (htail : ∀ e ∈ tail, e.IsQuiet) : SendInv fuel reported v heap (tr ++ tail) q := by
  induction tail generalizing tr with
  | nil => simpa using h
  | cons e tail ih =>
    have hstep := h.quiet (htail e (List.mem_cons_self ..))
    simpa using ih hstep fun e' he' => htail e' (List.mem_cons_of_mem _ he')

/-- Releasing the oldest completed chain keeps the invariant. -/
theorem SendInv.freed {p : ℕ} {outstanding : List Send} {m : Addr} {pending : List Addr}
    (h : SendInv fuel reported v heap tr ⟨p, outstanding, m :: pending⟩) :
    SendInv fuel reported v heap (tr ++ [.freed m]) ⟨p, outstanding, pending⟩ where
  size := h.size
  run := h.run.snoc .freed
  trueCqHead := h.trueCqHead
  sqHead := h.sqHead
  waiting := h.waiting
  pending := fun m' hm' => h.pending m' (List.mem_cons_of_mem _ hm')
  gathered_le := by simpa using h.gathered_le
  reported_le := by simpa using h.reported_le
  reports := by simpa using h.reports

/-- The doorbells of both queues are not part of the invariant. -/
theorem SendInv.doorbell {d : UInt32} {bf : List UInt8}
    (h : SendInv fuel reported v heap tr q) :
    SendInv fuel reported { v with dbrec := d, bfReg := bf } heap tr q where
  size := h.size
  run := h.run
  trueCqHead := h.trueCqHead
  sqHead := h.sqHead
  waiting := fun s hs => (h.waiting s hs).congr rfl rfl
  pending := h.pending
  gathered_le := h.gathered_le
  reported_le := h.reported_le
  reports := h.reports

theorem SendInv.cqDoorbell {d : UInt32} (h : SendInv fuel reported v heap tr q) :
    SendInv fuel reported { v with txCq := { v.txCq with dbrec := d } } heap tr q where
  size := h.size
  run := h.run
  trueCqHead := h.trueCqHead
  sqHead := h.sqHead
  waiting := fun s hs => (h.waiting s hs).congr rfl rfl
  pending := h.pending
  gathered_le := h.gathered_le
  reported_le := h.reported_le
  reports := (Cq.reports_dbrec ..).mpr h.reports

end Invariant

/-! ## Gathering and releasing -/

section Calls

variable (cfg : Config) {fuel reported : ℕ}

/-- One completion: the chain the entry names is the oldest outstanding one. -/
theorem SendInv.gather {st : State} {p : ℕ} {s : Send} {rest : List Send} {pending : List Addr}
    (h : SendInv fuel reported st.txq st.heap st.trace ⟨p, s :: rest, pending⟩)
    (hunread : (Event.gathers st.trace).length < reported) :
    SendInv fuel reported (st.gather s.wqeCounter s.mbuf).txq st.heap
      (st.trace ++ [.gathered s.wqeCounter s.mbuf])
      ⟨p + s.numWqes.toNat, rest, pending ++ [s.mbuf]⟩ := by
  have hs := h.waiting s (List.mem_cons_self ..)
  have hfit := h.run.wellFormed.fit
  have hle := h.wqeCnt_le
  simp only [Send.total_cons] at hfit
  obtain ⟨k, hk⟩ : ∃ k, reported - (Event.gathers st.trace).length = k + 1 :=
    ⟨reported - (Event.gathers st.trace).length - 1, by omega⟩
  refine ⟨h.size, h.run.snoc .gathered, ?_, ?_, ?_, ?_, ?_, ?_, ?_⟩
  -- the block count of a send fits into 32 bits, since it fits into the ring
  · have hnum : s.numWqes.toUInt32.toNat = s.numWqes.toNat := by
      rw [UInt64.toNat_toUInt32]
      exact Nat.mod_eq_of_lt (by omega)
    simp only [State.gather, State.log_txq, hs.numWqes, h.trueCqHead, ofNat_add_toUInt32, hnum]
  · simpa [State.gather, stop, Nat.add_assoc] using h.sqHead
  · exact fun t ht => (h.waiting t (List.mem_cons_of_mem _ ht)).congr rfl rfl
  · intro m hm
    rcases List.mem_append.mp hm with hold | hnew
    · exact h.pending m hold
    · rw [List.mem_singleton.mp hnew]
      exact hs.releasable
  · simpa using Nat.succ_le_of_lt hunread
  · simpa using h.reported_le
  · have hreports := h.reports
    -- one report less is unread
    have hk' : reported - ((Event.gathers st.trace).length + 1) = k := by omega
    simp only [hk, List.take_succ_cons, List.map_cons, Cq.Reports] at hreports
    simpa [State.gather, hk'] using hreports.2.2.2

/-- A property of the program and its send queue that survives completions:
taking the oldest outstanding send, releasing the oldest completed chain, and
whatever happens inside the send queue's own record. -/
structure KeptByCompletions (cfg : Config) (fuel reported : ℕ) (P : State → SendFifo → Prop) :
    Prop where
  gather : ∀ {st : State} {p : ℕ} {s : Send} {rest : List Send} {pending : List Addr},
    SendInv fuel reported st.txq st.heap st.trace ⟨p, s :: rest, pending⟩ →
    P st ⟨p, s :: rest, pending⟩ →
    P (st.gather s.wqeCounter s.mbuf) ⟨p + s.numWqes.toNat, rest, pending ++ [s.mbuf]⟩
  free : ∀ {st st' : State} {p : ℕ} {outstanding : List Send} {m : Addr} {pending : List Addr},
    SendInv fuel reported st.txq st.heap st.trace ⟨p, outstanding, m :: pending⟩ →
    P st ⟨p, outstanding, m :: pending⟩ → mbufFree cfg fuel st (some m) = some st' →
    P st' ⟨p, outstanding, pending⟩
  txq : ∀ {st : State} {q : SendFifo} (v : Mlx5Txq), P st q → P { st with txq := v } q

/-- From `st` and `q`, completions alone lead to `st'` and `q'`. -/
structure Completes (cfg : Config) (fuel reported : ℕ) (st : State) (q : SendFifo) (st' : State)
    (q' : SendFifo) : Prop where
  inv : SendInv fuel reported st'.txq st'.heap st'.trace q'
  sub : ∀ s ∈ q'.outstanding, s ∈ q.outstanding
  same : st.SameRing st'
  kept : ∀ {P : State → SendFifo → Prop}, KeptByCompletions cfg fuel reported P → P st q → P st' q'

namespace Completes

variable {cfg} {st st' st'' : State} {q q' q'' : SendFifo}

theorem refl (h : SendInv fuel reported st.txq st.heap st.trace q) :
    Completes cfg fuel reported st q st q :=
  ⟨h, fun _ hs => hs, .refl st, fun _ hP => hP⟩

theorem trans (h : Completes cfg fuel reported st q st' q')
    (h' : Completes cfg fuel reported st' q' st'' q'') :
    Completes cfg fuel reported st q st'' q'' :=
  ⟨h'.inv, fun s hs => h.sub s (h'.sub s hs), h.same.trans h'.same,
    fun hkept hP => h'.kept hkept (h.kept hkept hP)⟩

/-- Ringing the completion queue's doorbell. -/
theorem cqDoorbell (h : SendInv fuel reported st.txq st.heap st.trace q) (d : UInt32) :
    Completes cfg fuel reported st q
      { st with txq := { st.txq with txCq := { st.txq.txCq with dbrec := d } } } q :=
  ⟨h.cqDoorbell, fun _ hs => hs, ⟨rfl, rfl, rfl, rfl, rfl, rfl, rfl, rfl, rfl, rfl⟩,
    fun hkept hP => hkept.txq _ hP⟩

/-- Ringing the send queue's doorbell. -/
theorem ringDoorbell (h : SendInv fuel reported st.txq st.heap st.trace q) (ctrl : ℕ) :
    Completes cfg fuel reported st q (mlx5RingDoorbell st ctrl) q :=
  ⟨h.doorbell, fun _ hs => hs, ⟨rfl, rfl, rfl, rfl, rfl, rfl, rfl, rfl, rfl, rfl⟩,
    fun hkept hP => hkept.txq _ hP⟩

end Completes

/-- **The gathering loop** takes reported sends in order and stops at the first
entry that is not one. -/
theorem mlx5GatherCompletionsLoop_spec (budget : ℕ) {st : State} {q : SendFifo}
    (h : SendInv fuel reported st.txq st.heap st.trace q) :
    ∃ ms st' q', mlx5GatherCompletionsLoop budget st = some (ms, st') ∧
      Completes cfg fuel reported st q st' q' ∧ q'.pending = q.pending ++ ms := by
  induction budget generalizing st q with
  | zero => exact ⟨[], st, q, rfl, .refl h, by simp⟩
  | succ budget ih =>
    have hreports := h.reports
    rcases hunread : (q.outstanding.take (reported - (Event.gathers st.trace).length)) with _ | ⟨s, _⟩
    · -- nothing is reported: the entry at the head still belongs to the device
      rw [hunread] at hreports
      have hstatus : st.txq.txCq.status st.txq.cqHead = mlx5CqeInvalid := hreports
      refine ⟨[], st, q, ?_, .refl h, by simp⟩
      simp only [mlx5GatherCompletionsLoop, hstatus, if_true]
    -- the oldest outstanding send is reported
    · obtain ⟨p, outstanding, pending⟩ := q
      obtain ⟨k, hk⟩ : ∃ k, reported - (Event.gathers st.trace).length = k + 1 := by
        refine ⟨reported - (Event.gathers st.trace).length - 1, ?_⟩
        rcases Nat.eq_zero_or_pos (reported - (Event.gathers st.trace).length) with hzero | hpos
        · simp [hzero] at hunread
        · omega
      rcases outstanding with _ | ⟨t, rest⟩
      · simp at hunread
      simp only [hk, List.take_succ_cons, List.cons.injEq] at hunread
      obtain ⟨rfl, -⟩ := hunread
      simp only [hk, List.take_succ_cons, List.map_cons, Cq.Reports] at hreports
      obtain ⟨hstatus, hformat, hcounter, -⟩ := hreports
      have ht := h.waiting t (List.mem_cons_self ..)
      obtain ⟨w, hw, hsize⟩ := h.size
      -- the entry names the slot that the send was posted at
      have hbuffer : st.txq.buffers (wqeIdx t.wqeCounter st.txq.sq.wqeCnt).toNat = some t.mbuf := by
        rw [Send.wqeCounter, wqeIdx_toNat hw hsize]
        exact ht.buffer
      have hgather := h.gather (by omega)
      have hone : Completes cfg fuel reported st ⟨p, t :: rest, pending⟩
          (st.gather t.wqeCounter t.mbuf) ⟨p + t.numWqes.toNat, rest, pending ++ [t.mbuf]⟩ :=
        ⟨hgather, fun s hs => List.mem_cons_of_mem _ hs, .gather ..,
          fun hkept hP => hkept.gather h hP⟩
      obtain ⟨ms, st', q', hloop, hcompletes, hpending⟩ := ih hgather
      refine ⟨t.mbuf :: ms, st', q', ?_, hone.trans hcompletes, by simp [hpending]⟩
      simp only [mlx5GatherCompletionsLoop, hstatus, hformat, hcounter, hbuffer, hloop]
      simp [mlx5CqeReq, mlx5CqeInvalid]

/-- The release loop empties the list of completed chains. -/
theorem mbufFreeAll_spec {ms : List Addr} {st : State} {q : SendFifo}
    (h : SendInv fuel reported st.txq st.heap st.trace q) (hpending : q.pending = ms) :
    ∃ st', mbufFreeAll cfg fuel st ms = some st' ∧
      Completes cfg fuel reported st q st' { q with pending := [] } := by
  induction ms generalizing st q with
  | nil =>
    obtain ⟨p, outstanding, pending⟩ := q
    obtain rfl : pending = [] := hpending
    exact ⟨st, rfl, .refl h⟩
  | cons m ms ih =>
    obtain ⟨p, outstanding, pending⟩ := q
    obtain rfl : pending = m :: ms := hpending
    obtain ⟨st₁, hfree⟩ := (h.pending m (List.mem_cons_self ..)).mbufFree cfg
    obtain ⟨tail, hreleased⟩ := mbufFree_released hfree
    have hquiet : ∀ e ∈ tail, e.IsQuiet := fun e he => (hreleased.tail_isRelease e he).isQuiet
    -- releasing logs nothing that the queue looks at
    have hinv₁ : SendInv fuel reported st₁.txq st₁.heap st₁.trace ⟨p, outstanding, ms⟩ := by
      rw [hreleased.keeps.txq, hreleased.keeps.heap, hreleased.trace]
      exact h.freed.append_quiet hquiet
    have hone : Completes cfg fuel reported st ⟨p, outstanding, m :: ms⟩ st₁ ⟨p, outstanding, ms⟩ :=
      ⟨hinv₁, fun s hs => hs, .freed hreleased, fun hkept hP => hkept.free h hP hfree⟩
    obtain ⟨st', hrest, hcompletes⟩ := ih hinv₁ rfl
    exact ⟨st', by simp [mbufFreeAll, hfree, hrest], hone.trans hcompletes⟩

/-- **Both places that gather completions**: gather what is reported, release it,
and leave the rest of the ring alone. -/
theorem gatherAndFree_spec {st : State} {q : SendFifo}
    (h : SendInv fuel reported st.txq st.heap st.trace q) (hpending : q.pending = []) :
    ∃ st' q', gatherAndFree cfg fuel st = some st' ∧
      Completes cfg fuel reported st q st' q' ∧ q'.pending = [] := by
  obtain ⟨ms, st₁, q₁, hloop, hcompletes₁, hpending₁⟩ :=
    mlx5GatherCompletionsLoop_spec cfg sqCleanMax h
  rw [hpending, List.nil_append] at hpending₁
  have hdoorbell : Completes cfg fuel reported st₁ q₁ _ q₁ :=
    .cqDoorbell hcompletes₁.inv (ByteOrder.bswap32 (st₁.txq.cqHead &&& 0xffffff))
  obtain ⟨st', hfree, hcompletes⟩ := mbufFreeAll_spec cfg hdoorbell.inv hpending₁
  refine ⟨st', { q₁ with pending := [] }, ?_, (hcompletes₁.trans hdoorbell).trans hcompletes, rfl⟩
  simp only [gatherAndFree, mlx5GatherCompletions, hloop, Option.map_some, Option.bind_some]
  exact hfree

/-- The reservation says whether there is room, and changes nothing but what it gathered. -/
theorem reserveWqes_spec {st : State} {q : SendFifo} (n : Int32)
    (h : SendInv fuel reported st.txq st.heap st.trace q) (hpending : q.pending = []) :
    ∃ room st' q', reserveWqes cfg fuel st n = some (room, st') ∧
      Completes cfg fuel reported st q st' q' ∧ q'.pending = [] ∧
      (room = true → sqFull st'.txq n = false) := by
  rcases hfull : sqFull st.txq n with _ | _
  · exact ⟨true, st, q, by simp [reserveWqes, hfull], .refl h, hpending, fun _ => hfull⟩
  -- full: completions are gathered once, and the room is computed again
  · obtain ⟨st', q', hgather, hcompletes, hpending'⟩ := gatherAndFree_spec cfg h hpending
    exact ⟨!sqFull st'.txq n, st', q', by simp [reserveWqes, hfull, hgather], hcompletes, hpending',
      by simp⟩

/-! ## Posting -/

/-- `num_wqes` plays no role in releasing. -/
theorem Releasable.sameButWqes {heap heap' : Heap} {m : Addr} (h : Releasable fuel heap m)
    (hsame : heap.SameButWqes heap') : Releasable fuel heap' m := by
  obtain ⟨nodes, hchain, hlen⟩ := h.chain
  refine ⟨⟨nodes, hsame.isChain hchain, hlen⟩, ?_⟩
  obtain ⟨n, hn⟩ := hsame m
  rw [hn]
  exact h.release

/-- **Posting**: where `n` blocks are free, the new send takes the blocks behind
the newest one, and no outstanding send loses its `buffers` entry. -/
theorem SendInv.push {st : State} {q : SendFifo} {m : Addr} {n : Int32}
    (h : SendInv fuel reported st.txq st.heap st.trace q) (hpending : q.pending = [])
    (hroom : sqFull st.txq n = false)
    (hexact : n.toInt64.toUInt64.toNat = n.toUInt32.toNat) (hpos : 0 < n.toUInt32.toNat)
    (hfresh : m ∉ q.outstanding.map Send.mbuf) (hreleasable : Releasable fuel st.heap m) :
    SendInv fuel reported (st.push m n).txq (st.push m n).heap (st.push m n).trace
      { q with outstanding := q.outstanding ++ [⟨m, st.txq.sqHead, n.toInt64.toUInt64⟩] } := by
  obtain ⟨k, hk, hsize⟩ := h.size
  have hroom' := h.sqFull_eq_false.mp hroom
  have hwell := h.run.wellFormed
  have hlength := h.run.length_outstanding
  have hpos64 : 0 < n.toInt64.toUInt64.toNat := by omega
  have hroom64 : Send.total q.outstanding + n.toInt64.toUInt64.toNat ≤ st.txq.sq.wqeCnt.toNat := by
    omega
  -- position, head, buffers, releases and reports, one after the other
  refine ⟨h.size, h.run.snoc (.posted hpending h.sqHead hpos64 hroom64 hfresh), h.trueCqHead,
    ?_, ?_, ?_, ?_, ?_, ?_⟩
  · simp only [State.push, State.log_txq, Mlx5Txq.push, h.sqHead, ofNat_add_toUInt32, stop,
      Send.total_append, Send.total_cons, Send.total_nil, hexact, Nat.add_zero, Nat.add_assoc]
  · intro s hs
    rcases List.mem_append.mp hs with hold | hnew
    · have hwaiting := h.waiting s hold
      have hne : s.mbuf ≠ m := fun heq => hfresh (heq ▸ List.mem_map_of_mem hold)
      obtain ⟨pos, hhead, hlo, hhi⟩ := hwell.positions.exists_of_mem hold
      have hspos := hwell.pos s hold
      -- the new send starts less than one lap after the old one
      have hslot : s.sqHead.toNat % st.txq.sq.wqeCnt.toNat ≠ st.txq.currentIdx.toNat := by
        rw [currentIdx_toNat hsize, hhead, h.sqHead, toNat_ofNat_mod h.dvd32,
          toNat_ofNat_mod h.dvd32, stop]
        exact CircularRing.mod_ne_of_lt (by omega) (by omega)
      refine ⟨?_, ?_, hwaiting.releasable.sameButWqes (Heap.sameButWqes_modify _ _ _)⟩
      · simp only [State.push, State.log_heap, Heap.modify_of_ne _ hne, hwaiting.numWqes]
      · simp only [State.push, State.log_txq, Mlx5Txq.push, Function.update_of_ne hslot,
          hwaiting.buffer]
    · rw [List.mem_singleton.mp hnew]
      refine ⟨by simp [State.push], ?_, hreleasable.sameButWqes (Heap.sameButWqes_modify _ _ _)⟩
      simp only [State.push, State.log_txq, Mlx5Txq.push, ← currentIdx_toNat hsize,
        Function.update_self]
  · simp [hpending]
  · simpa [State.push] using h.gathered_le
  · simpa [State.push] using Nat.le_succ_of_le h.reported_le
  · have hle := h.reported_le
    have hgathers : Event.gathers (st.push m n).trace = Event.gathers st.trace := by
      simp [State.push]
    -- the reported sends are older than the new one
    rw [hgathers, List.take_append_of_le_length (by omega)]
    exact h.reports

/-- What callers of the send functions promise about a chain: it ends in a null
pointer after `nb_segs` nodes, it can be released, it is not outstanding, its
length leaves the `int` arithmetic in range, and a header is there to inline. -/
structure LegalSend (fuel : ℕ) (heap : Heap) (outstanding : List Send) (m : Addr)
    (requestHeader : Option RequestHeader) (inlineLen : ℕ) : Prop where
  chain : ∃ nodes, heap.IsChain (some m) nodes ∧ nodes.length = (heap m).nbSegs.toNat ∧
    nodes.length ≤ fuel
  range : (heap m).nbSegs.toNat + 9 < 2 ^ 31
  release : (heap m).release ≠ none
  fresh : m ∉ outstanding.map Send.mbuf
  inlineLen_ok : InlineLenOk inlineLen
  header : 0 < inlineLen → requestHeader ≠ none

/-- The number of blocks that a send takes, in the width of `mbuf.num_wqes`. -/
def sendWqes (heap : Heap) (m : Addr) (inlineLen : ℕ) : UInt64 :=
  (numWqes (numUnits inlineLen (heap m).nbSegs)).toInt64.toUInt64

/-- The state and the queue right after a chain was posted from `st` and `q`. -/
structure Posted (fuel reported : ℕ) (st : State) (q : SendFifo) (m : Addr)
    (requestHeader : Option RequestHeader) (inlineLen : ℕ) (st' : State) (q' : SendFifo) :
    Prop where
  inv : SendInv fuel reported st'.txq st'.heap st'.trace q'
  fill : ∃ stores, segmentStores fuel st m requestHeader inlineLen
      (numUnits inlineLen (st.heap m).nbSegs) = some stores ∧
    st' = { st with mem := st.mem.stores stores }.push m
      (numWqes (numUnits inlineLen (st.heap m).nbSegs))
  queue : q' = { q with
    outstanding := q.outstanding ++ [⟨m, st.txq.sqHead, sendWqes st.heap m inlineLen⟩] }

/-- **`mlx5_fill_tx_segment`** returns: after some completions it posts the
chain, or refuses it. -/
theorem mlx5FillTxSegment_spec {st : State} {q : SendFifo} {m : Addr}
    {requestHeader : Option RequestHeader} {inlineLen : ℕ}
    (h : SendInv fuel reported st.txq st.heap st.trace q) (hpending : q.pending = [])
    (hlegal : LegalSend fuel st.heap q.outstanding m requestHeader inlineLen) :
    ∃ ret st' q₁ q', mlx5FillTxSegment cfg fuel st m requestHeader inlineLen = some (ret, st') ∧
      q₁.pending = [] ∧
      (ret = enomem ∧ q' = q₁ ∧ Completes cfg fuel reported st q st' q₁ ∨
        ret = 0 ∧ ∃ st₁, Completes cfg fuel reported st q st₁ q₁ ∧
          Posted fuel reported st₁ q₁ m requestHeader inlineLen st' q') := by
  obtain ⟨room, st₁, q₁, hreserve, hcompletes, hpending₁, hroom⟩ :=
    reserveWqes_spec cfg (numWqes (numUnits inlineLen (st.heap m).nbSegs)) h hpending
  cases room with
  | false =>
    exact ⟨enomem, st₁, q₁, q₁, by simp [mlx5FillTxSegment, hreserve], hpending₁,
      .inl ⟨rfl, rfl, hcompletes⟩⟩
  | true =>
    have hheap := hcompletes.same.heap
    obtain ⟨nodes, hchain, -, hlen⟩ := hlegal.chain
    rw [← hheap] at hchain
    obtain ⟨stores, hstores⟩ : ∃ stores, segmentStores fuel st₁ m requestHeader inlineLen
        (numUnits inlineLen (st.heap m).nbSegs) = some stores :=
      ⟨_, segmentStores_eq _ hchain hlen hlegal.header⟩
    -- the block count is the same in 32 and in 64 bits
    obtain ⟨hwqes32, hwqes64⟩ := numWqes_toNat hlegal.inlineLen_ok _ hlegal.range
    -- what is still outstanding was outstanding before the reservation
    have hfresh : m ∉ q₁.outstanding.map Send.mbuf := by
      intro hmem
      obtain ⟨s, hs, rfl⟩ := List.mem_map.mp hmem
      exact hlegal.fresh (List.mem_map_of_mem (hcompletes.sub s hs))
    have hreleasable : Releasable fuel st₁.heap m :=
      ⟨⟨nodes, hchain, hlen⟩, by rw [hheap]; exact hlegal.release⟩
    let st₂ : State := { st₁ with mem := st₁.mem.stores stores }
    have hinv₂ : SendInv fuel reported st₂.txq st₂.heap st₂.trace q₁ := hcompletes.inv
    have hpush := hinv₂.push hpending₁ (hroom rfl) (hwqes64.trans hwqes32.symm)
      (hwqes32 ▸ wqeBlocks_pos ..) hfresh hreleasable
    refine ⟨0, _, q₁, _, mlx5FillTxSegment_of_room hreserve hstores, hpending₁,
      .inr ⟨rfl, st₁, hcompletes, hpush, ⟨stores, ?_, ?_⟩, ?_⟩⟩
    · rw [hheap]
      exact hstores
    · rw [hheap]
    · rw [hheap]
      rfl

/-- **`mlx5_transmit_one`** returns 0 after some completions, or 1 with the chain
posted between completions. -/
theorem mlx5TransmitOne_spec {st : State} {q : SendFifo} {m : Addr}
    {requestHeader : Option RequestHeader} {inlineLen : ℕ}
    (h : SendInv fuel reported st.txq st.heap st.trace q) (hpending : q.pending = [])
    (hlegal : LegalSend fuel st.heap q.outstanding m requestHeader inlineLen) :
    ∃ ret st' q', mlx5TransmitOne cfg fuel st m requestHeader inlineLen = some (ret, st') ∧
      SendInv fuel reported st'.txq st'.heap st'.trace q' ∧ q'.pending = [] ∧
      (ret = 0 ∧ Completes cfg fuel reported st q st' q' ∨
        ret = 1 ∧ ∃ st₁ q₁ st₂ q₂, Completes cfg fuel reported st q st₁ q₁ ∧ q₁.pending = [] ∧
          Posted fuel reported st₁ q₁ m requestHeader inlineLen st₂ q₂ ∧
          Completes cfg fuel reported st₂ q₂ st' q') := by
  obtain ⟨ret, st₂, q₁, q₂, hfill, hpending₁, hcase⟩ := mlx5FillTxSegment_spec cfg h hpending hlegal
  rcases hcase with ⟨rfl, rfl, hcompletes⟩ | ⟨rfl, st₁, hcompletes, hposted⟩
  · exact ⟨0, st₂, q₂, by simp [mlx5TransmitOne, mlx5PostTransmission, hfill], hcompletes.inv,
      hpending₁, .inl ⟨rfl, hcompletes⟩⟩
  · have hdoorbell : Completes cfg fuel reported st₂ q₂ _ q₂ :=
      .ringDoorbell hposted.inv (getSegment st.txq st.txq.currentIdx)
    have hpending₂ : q₂.pending = [] := by rw [hposted.queue, hpending₁]
    have hne : (0 : Int32) ≠ enomem := by decide
    simp only [mlx5TransmitOne, mlx5PostTransmission, hfill, Option.map_some, Option.bind_some,
      if_neg hne]
    split
    -- many blocks are in flight, so completions are gathered right away
    · obtain ⟨st', q', hgather, hcompletes', hpending'⟩ :=
        gatherAndFree_spec cfg hdoorbell.inv hpending₂
      exact ⟨1, st', q', by simp [hgather], hcompletes'.inv, hpending',
        .inr ⟨rfl, st₁, q₁, st₂, q₂, hcompletes, hpending₁, hposted, hdoorbell.trans hcompletes'⟩⟩
    · exact ⟨1, _, q₂, rfl, hdoorbell.inv, hpending₂,
        .inr ⟨rfl, st₁, q₁, st₂, q₂, hcompletes, hpending₁, hposted, hdoorbell⟩⟩

/-- What a successful send leaves behind, seen from its caller. -/
structure State.Sent (st st' : State) (s : Send) : Prop where
  heap : st'.heap = st.heap.modify s.mbuf fun b => { b with numWqes := s.numWqes }
  rxq : st'.rxq = st.rxq
  requestHeaders : st'.requestHeaders = st.requestHeaders
  posts : Event.posts st'.trace = Event.posts st.trace ++ [s]

/-- Between two completions and a posting, the caller sees one send. -/
theorem Posted.sent {st st₁ st₂ st' : State} {q q₁ q₂ q' : SendFifo} {m : Addr}
    {requestHeader : Option RequestHeader} {inlineLen : ℕ}
    (hbefore : Completes cfg fuel reported st q st₁ q₁)
    (hposted : Posted fuel reported st₁ q₁ m requestHeader inlineLen st₂ q₂)
    (hafter : Completes cfg fuel reported st₂ q₂ st' q') :
    st.Sent st' ⟨m, st.txq.sqHead, sendWqes st.heap m inlineLen⟩ ∧
      ∀ s ∈ q'.outstanding, s ∈ q.outstanding ∨ s.mbuf = m := by
  obtain ⟨stores, -, hst₂⟩ := hposted.fill
  have hheap := hbefore.same.heap
  refine ⟨⟨?_, ?_, ?_, ?_⟩, ?_⟩
  -- completions leave the mbufs alone, and posting sets one `num_wqes`
  · rw [hafter.same.heap, hst₂, ← hheap]
    rfl
  · rw [hafter.same.rxq, hst₂, ← hbefore.same.rxq]
    rfl
  · rw [hafter.same.requestHeaders, hst₂, ← hbefore.same.requestHeaders]
    rfl
  · rw [hafter.same.posts, hst₂]
    simp [State.push, hbefore.same.posts, hbefore.same.sqHead, hheap, sendWqes]
  · intro s hs
    have hmem := hafter.sub s hs
    rw [hposted.queue] at hmem
    rcases List.mem_append.mp hmem with hold | hnew
    · exact .inl (hbefore.sub s hold)
    · exact .inr (by rw [List.mem_singleton.mp hnew])

/-- **`mlx5_transmit_one`, seen from its caller**: refused with the ring as it
was, or sent. -/
theorem mlx5TransmitOne_outcome {st : State} {q : SendFifo} {m : Addr}
    {requestHeader : Option RequestHeader} {inlineLen : ℕ}
    (h : SendInv fuel reported st.txq st.heap st.trace q) (hpending : q.pending = [])
    (hlegal : LegalSend fuel st.heap q.outstanding m requestHeader inlineLen) :
    ∃ ret st' q', mlx5TransmitOne cfg fuel st m requestHeader inlineLen = some (ret, st') ∧
      SendInv fuel reported st'.txq st'.heap st'.trace q' ∧ q'.pending = [] ∧
      (ret = 0 ∧ st.SameRing st' ∧ (∀ s ∈ q'.outstanding, s ∈ q.outstanding) ∨
        ret = 1 ∧ st.Sent st' ⟨m, st.txq.sqHead, sendWqes st.heap m inlineLen⟩ ∧
          ∀ s ∈ q'.outstanding, s ∈ q.outstanding ∨ s.mbuf = m) := by
  obtain ⟨ret, st', q', hcall, hinv, hpending', hcase⟩ := mlx5TransmitOne_spec cfg h hpending hlegal
  refine ⟨ret, st', q', hcall, hinv, hpending', ?_⟩
  rcases hcase with ⟨hret, hcompletes⟩ | ⟨hret, st₁, q₁, st₂, q₂, hbefore, -, hposted, hafter⟩
  · exact .inl ⟨hret, hcompletes.same, hcompletes.sub⟩
  · exact .inr ⟨hret, Posted.sent cfg hbefore hposted hafter⟩

/-- A legal chain stays legal while another chain is sent. -/
theorem LegalSend.mono {heap heap' : Heap} {outstanding outstanding' : List Send} {m : Addr}
    {requestHeader : Option RequestHeader} {inlineLen : ℕ}
    (h : LegalSend fuel heap outstanding m requestHeader inlineLen)
    (hheap : heap.SameButWqes heap')
    (hfresh : ∀ s ∈ outstanding', s ∈ outstanding ∨ s.mbuf ≠ m) :
    LegalSend fuel heap' outstanding' m requestHeader inlineLen := by
  obtain ⟨nodes, hchain, hlen, hfuel⟩ := h.chain
  obtain ⟨n, hn⟩ := hheap m
  refine ⟨⟨nodes, hheap.isChain hchain, ?_, hfuel⟩, ?_, ?_, ?_, h.inlineLen_ok, h.header⟩
  · rw [hn]
    exact hlen
  · rw [hn]
    exact h.range
  · rw [hn]
    exact h.release
  · intro hmem
    obtain ⟨s, hs, rfl⟩ := List.mem_map.mp hmem
    rcases hfresh s hs with hold | hne
    · exact h.fresh (List.mem_map_of_mem hold)
    · exact hne rfl

end Calls

end Mlx5Netperf
