import Mlx5Netperf.Mlx5.SendRun

/-!
# Room in the Send Completion Queue

Sends are admitted by the blocks they take in the send ring; the entries of the
completion queue are not counted. The ring bounds the completions that are on
their way only through its own size, which `mlx5_init_txq` never compares with
the size of the queue.
-/

namespace Mlx5Netperf

open SendFifo Transition WordArith ByteOrder

namespace SendRun

variable {cfg : Config} {fuel : ℕ}

/-- What `mlx5_init_txq` leaves, whatever sizes it got. -/
structure Setup (r : SendRun) : Prop where
  size : ∃ k, r.st.txq.sq.wqeCnt.toNat = 2 ^ k
  sqHead : r.st.txq.sqHead = 0
  cqHead : r.st.txq.cqHead = 0
  trueCqHead : r.st.txq.trueCqHead = 0
  trace : r.st.trace = []
  reported : r.reported = 0
  reports : r.st.txq.txCq.Reports mlx5CqeReq 0 []

/-- A ring whose blocks the 16-bit counter of a completion can name. -/
theorem Setup.init {r : SendRun} (h : Setup r) (hsmall : r.st.txq.sq.wqeCnt.toNat ≤ 2 ^ 16) :
    Init r := by
  obtain ⟨k, hk⟩ := h.size
  rw [hk] at hsmall
  exact ⟨⟨k, (Nat.pow_le_pow_iff_right (by decide)).mp hsmall, hk⟩, h.sqHead, h.cqHead,
    h.trueCqHead, h.trace, h.reported, h.reports⟩

/-! ## A ring that is not larger than the queue -/

/-- Each outstanding send takes a block. -/
theorem length_le_total {ss : List Send} (h : ∀ s ∈ ss, 0 < s.numWqes.toNat) :
    ss.length ≤ Send.total ss := by
  induction ss with
  | nil => exact le_rfl
  | cons s ss ih =>
    have hs := h s (List.mem_cons_self ..)
    have hrest := ih fun t ht => h t (List.mem_cons_of_mem _ ht)
    rw [List.length_cons, Send.total_cons]
    omega

/-- The size of the ring never changes. -/
theorem Step.wqeCnt {r r' : SendRun} (hinv : Inv fuel r) (hstep : Step cfg fuel r r') :
    r'.st.txq.sq.wqeCnt = r.st.txq.sq.wqeCnt := by
  obtain ⟨q, hq, hpending⟩ := hinv
  cases hstep with
  | nic hnic =>
    cases hnic with
    | report => rfl
  | app happ => exact congrArg (fun v : Mlx5Txq => v.sq.wqeCnt) happ.txq
  | transmit hlegal hcall =>
    rw [hq.run.outstanding_eq] at hlegal
    -- gathering, posting and gathering again keep the record of the ring
    obtain ⟨ret, st', q', hcall', -, -, hcase⟩ := mlx5TransmitOne_spec cfg hq hpending hlegal
    rw [hcall] at hcall'
    obtain ⟨-, rfl⟩ := Prod.mk.inj (Option.some.inj hcall')
    rcases hcase with ⟨-, hcompletes⟩ | ⟨-, st₁, q₁, st₂, q₂, hbefore, -, hposted, hafter⟩
    · exact congrArg Sq.wqeCnt hcompletes.same.sq
    · obtain ⟨stores, -, hst₂⟩ := hposted.fill
      have hpush : st₂.txq.sq = st₁.txq.sq := by
        rw [hst₂]
        rfl
      exact congrArg Sq.wqeCnt (hafter.same.sq.trans (hpush.trans hbefore.same.sq))

/-- **As many completions may come as there are blocks**, at most. -/
theorem length_outstanding_le {r₀ r : SendRun} (hinit : Init r₀)
    (h : Reachable (fun s => s = r₀) (Step cfg fuel) r) :
    (Event.outstanding r.st.trace).length ≤ r₀.st.txq.sq.wqeCnt.toNat := by
  have hinv : Inv fuel r ∧ r.st.txq.sq.wqeCnt = r₀.st.txq.sq.wqeCnt := by
    refine Reachable.invariant (P := fun r => Inv fuel r ∧
      r.st.txq.sq.wqeCnt = r₀.st.txq.sq.wqeCnt) ?_ ?_ h
    · rintro s rfl
      exact ⟨hinit.inv, rfl⟩
    · rintro s t ⟨hinv, hsize⟩ hstep
      exact ⟨hstep.inv hinv, (hstep.wqeCnt hinv).trans hsize⟩
  obtain ⟨⟨q, hq, -⟩, hsize⟩ := hinv
  -- the outstanding sends share the blocks of the ring
  have hwell := hq.run.wellFormed
  rw [hq.run.outstanding_eq, ← hsize]
  exact (length_le_total hwell.pos).trans hwell.fit

/-! ## A device that stalls -/

/-- An mbuf that can be sent by itself. -/
structure PlainMbuf (b : Mbuf) : Prop where
  next : b.next = none
  nbSegs : b.nbSegs = 1
  release : b.release ≠ none

/-- After `n` sends of one block each, none of them reported. -/
structure Stalled (n : ℕ) (wqeCnt : UInt32) (r : SendRun) : Prop where
  reported : r.reported = 0
  heap : ∀ a, PlainMbuf (r.st.heap a)
  wqeCnt : r.st.txq.sq.wqeCnt = wqeCnt
  sqHead : r.st.txq.sqHead = UInt32.ofNat n
  trueCqHead : r.st.txq.trueCqHead = 0
  invalid : r.st.txq.txCq.status r.st.txq.cqHead = mlx5CqeInvalid
  posts : (Event.posts r.st.trace).map Send.mbuf = (List.range n).map UInt64.ofNat
  gathers : Event.gathers r.st.trace = []

variable {n : ℕ} {wqeCnt : UInt32} {r : SendRun}

/-- Gathering finds nothing. -/
theorem gatherAndFree_of_invalid {st : State}
    (h : st.txq.txCq.status st.txq.cqHead = mlx5CqeInvalid) :
    gatherAndFree cfg fuel st = some { st with txq := { st.txq with txCq := { st.txq.txCq with
      dbrec := bswap32 (st.txq.cqHead &&& 0xffffff) } } } := by
  have hloop : mlx5GatherCompletionsLoop sqCleanMax st = some ([], st) := by
    rw [sqCleanMax, mlx5GatherCompletionsLoop]
    exact if_pos h
  rw [gatherAndFree, mlx5GatherCompletions, hloop]
  rfl

/-- One more chain of one mbuf may be sent. -/
theorem Stalled.legal (h : Stalled n wqeCnt r) (hfuel : 0 < fuel) (hn : n < 2 ^ 32) :
    LegalSend fuel r.st.heap (Event.outstanding r.st.trace) (UInt64.ofNat n) none 0 := by
  obtain ⟨hnext, hsegs, hrelease⟩ := h.heap (UInt64.ofNat n)
  refine ⟨⟨[UInt64.ofNat n], NullTerminated.isChain_singleton hnext, ?_, hfuel⟩, ?_, hrelease, ?_,
    .inl rfl, by simp⟩
  · rw [hsegs]
    rfl
  · rw [hsegs]
    decide
  · rw [Event.outstanding, h.gathers, List.length_nil, List.drop_zero, h.posts]
    -- no send is posted twice: the addresses are the numbers so far
    intro hmem
    obtain ⟨i, hi, heq⟩ := List.mem_map.mp hmem
    rw [List.mem_range] at hi
    have hval := congrArg UInt64.toNat heq
    rw [UInt64.toNat_ofNat', UInt64.toNat_ofNat', Nat.mod_eq_of_lt (by omega),
      Nat.mod_eq_of_lt (by omega)] at hval
    omega

/-- The state after one more send of one block. -/
theorem Stalled.fill (h : Stalled n wqeCnt r) (hfuel : 0 < fuel) (hn : n < wqeCnt.toNat) :
    ∃ stores, mlx5FillTxSegment cfg fuel r.st (UInt64.ofNat n) none 0 =
      some (0, { r.st with mem := r.st.mem.stores stores }.push (UInt64.ofNat n) 1) := by
  have hsmall := wqeCnt.toNat_lt
  obtain ⟨nodes, hchain, -, hlen⟩ := (h.legal hfuel (by omega)).chain
  -- one segment fits in the first block
  have hunits : numWqes (numUnits 0 (r.st.heap (UInt64.ofNat n)).nbSegs) = 1 := by
    rw [(h.heap _).nbSegs]
    decide
  -- less than a ring of them is on its way
  have hroom : sqFull r.st.txq 1 = false := by
    have hone : (1 : Int32).toUInt32.toNat = 1 := by decide
    rw [sqFull, decide_eq_false_iff_not, UInt32.lt_iff_toNat_lt, nrInflightTx, h.sqHead,
      h.trueCqHead, h.wqeCnt, UInt32.sub_zero, toNat_sub_ofNat hn.le, hone]
    omega
  have hreserve : reserveWqes cfg fuel r.st (numWqes (numUnits 0
      (r.st.heap (UInt64.ofNat n)).nbSegs)) = some (true, r.st) := by
    rw [hunits, reserveWqes, hroom]
    rfl
  have hfill := mlx5FillTxSegment_of_room hreserve
    (@segmentStores_eq fuel r.st (UInt64.ofNat n) none 0 nodes _ hchain hlen (by simp))
  rw [hunits] at hfill
  exact ⟨_, hfill⟩

/-- Posting it adds a send. -/
theorem Stalled.push (h : Stalled n wqeCnt r) (mem : ByteMemory) :
    Stalled (n + 1) wqeCnt ⟨{ r.st with mem := mem }.push (UInt64.ofNat n) 1, r.reported⟩ := by
  have hone : (1 : Int32).toUInt32 = UInt32.ofNat 1 := by decide
  -- only the posted mbuf changes, in its number of blocks
  refine ⟨h.reported, fun a => ?_, h.wqeCnt, ?_, h.trueCqHead, h.invalid, ?_, ?_⟩
  · have hkeep : ∀ (w : UInt64) b, PlainMbuf b → PlainMbuf { b with numWqes := w } :=
      fun w b hb => ⟨hb.next, hb.nbSegs, hb.release⟩
    exact Heap.modify_keeps (hkeep _) (h.heap a) _
  · simp only [State.push, State.log_txq, Mlx5Txq.push, h.sqHead, hone]
    exact (UInt32.ofNat_add ..).symm
  · simp only [State.push, State.log_trace, Event.posts_append, List.map_append, h.posts,
      List.range_succ]
    simp
  · simp only [State.push, State.log_trace, Event.gathers_append, h.gathers]
    rfl

/-- A record of the send queue that only differs in its doorbells. -/
theorem Stalled.congr {st : State} (h : Stalled n wqeCnt r) (heap : st.heap = r.st.heap)
    (trace : st.trace = r.st.trace) (sq : st.txq.sq = r.st.txq.sq)
    (sqHead : st.txq.sqHead = r.st.txq.sqHead) (trueCqHead : st.txq.trueCqHead = r.st.txq.trueCqHead)
    (status : st.txq.txCq.status st.txq.cqHead = r.st.txq.txCq.status r.st.txq.cqHead) :
    Stalled n wqeCnt ⟨st, r.reported⟩ := by
  refine ⟨h.reported, ?_, ?_, sqHead.trans h.sqHead, trueCqHead.trans h.trueCqHead,
    status.trans h.invalid, ?_, ?_⟩
  · simpa only [heap] using h.heap
  · simpa only [sq] using h.wqeCnt
  · simpa only [trace] using h.posts
  · simpa only [trace] using h.gathers

/-- **While there is a free block**, one more chain is sent, and none completes. -/
theorem Stalled.transmit (h : Stalled n wqeCnt r) (hfuel : 0 < fuel) (hn : n < wqeCnt.toNat) :
    ∃ st', mlx5TransmitOne cfg fuel r.st (UInt64.ofNat n) none 0 = some (1, st') ∧
      Stalled (n + 1) wqeCnt ⟨st', r.reported⟩ := by
  obtain ⟨stores, hfill⟩ := @Stalled.fill cfg fuel n wqeCnt r h hfuel hn
  have hpushed := h.push (r.st.mem.stores stores)
  have hrung : ∀ ctrl, Stalled (n + 1) wqeCnt
      ⟨mlx5RingDoorbell ({ r.st with mem := r.st.mem.stores stores }.push (UInt64.ofNat n) 1) ctrl,
        r.reported⟩ := fun ctrl => hpushed.congr rfl rfl rfl rfl rfl rfl
  have hne : (0 : Int32) ≠ enomem := by decide
  simp only [mlx5TransmitOne, mlx5PostTransmission, hfill, Option.map_some, Option.bind_some,
    if_neg hne]
  -- past the threshold the code gathers once more, and finds nothing
  split
  case isTrue =>
    rw [gatherAndFree_of_invalid (hrung _).invalid]
    exact ⟨_, rfl, (hrung _).congr rfl rfl rfl rfl rfl rfl⟩
  case isFalse => exact ⟨_, rfl, hrung _⟩

/-- **A stalled device**: as many sends as there are blocks can be on their way. -/
theorem exists_stalled {r₀ : SendRun} (hsetup : Setup r₀) (hfuel : 0 < fuel)
    (hn : n ≤ r₀.st.txq.sq.wqeCnt.toNat) :
    ∃ r, Reachable (fun s => s = r₀) (Step cfg fuel) r ∧ Stalled n r₀.st.txq.sq.wqeCnt r := by
  induction n with
  | zero =>
    -- the program prepares its mbufs
    obtain ⟨st, reported⟩ := r₀
    let st' : State := { st with
      heap := fun _ => { Mbuf.zeroed with nbSegs := 1, release := some .txCompletion } }
    have happ : AppStep st st' := by
      refine ⟨rfl, ⟨[], by simp [st'], by simp⟩, ?_⟩
      intro s hs
      rw [show st.trace = [] from hsetup.trace] at hs
      simp [Event.outstanding, Event.posts] at hs
    have hreach : Reachable (fun s => s = ⟨st, reported⟩) (Step cfg fuel) ⟨st, reported⟩ := .init rfl
    refine ⟨⟨st', reported⟩, hreach.step (.app happ), ?_⟩
    refine ⟨hsetup.reported, fun a => ⟨rfl, rfl, by simp [st']⟩, rfl, hsetup.sqHead,
      hsetup.trueCqHead, ?_, ?_, ?_⟩
    · have hreports := hsetup.reports
      rw [← hsetup.cqHead] at hreports
      exact hreports
    · simp [st', show st.trace = [] from hsetup.trace, Event.posts]
    · simp [st', show st.trace = [] from hsetup.trace, Event.gathers]
  | succ n ih =>
    obtain ⟨r, hreach, hstalled⟩ := ih (by omega)
    have hsmall := r₀.st.txq.sq.wqeCnt.toNat_lt
    obtain ⟨st', hcall, hnext⟩ := @Stalled.transmit cfg fuel n _ r hstalled hfuel (by omega)
    exact ⟨⟨st', r.reported⟩, hreach.step (.transmit (hstalled.legal hfuel (by omega)) hcall), hnext⟩

theorem Stalled.length_outstanding (h : Stalled n wqeCnt r) :
    (Event.outstanding r.st.trace).length = n := by
  have hlen := congrArg List.length h.posts
  rw [List.length_map, List.length_map, List.length_range] at hlen
  rw [Event.outstanding, h.gathers, List.length_nil, List.drop_zero, hlen]

/-! ## The bound -/

/-- A queue smaller than the ring overruns when the device stalls. -/
theorem exists_overrun {r₀ : SendRun} (hsetup : Setup r₀) (hfuel : 0 < fuel)
    (hless : r₀.st.txq.txCq.cqeCnt.toNat < r₀.st.txq.sq.wqeCnt.toNat) :
    ∃ r, Reachable (fun s => s = r₀) (Step cfg fuel) r ∧
      r₀.st.txq.txCq.cqeCnt.toNat < (Event.outstanding r.st.trace).length := by
  -- one send more than the queue has entries
  obtain ⟨r, hreach, hstalled⟩ := @exists_stalled cfg fuel _ r₀ hsetup hfuel hless
  exact ⟨r, hreach, by rw [hstalled.length_outstanding]; exact Nat.lt_succ_self _⟩

/-- **The completion queue cannot overrun** when it has an entry for every block
of the ring and the ring is one that completions can name; with fewer entries
than blocks some run overruns it. -/
theorem completion_queue_bound {r₀ : SendRun} (hsetup : Setup r₀) (hfuel : 0 < fuel) :
    (r₀.st.txq.sq.wqeCnt.toNat ≤ r₀.st.txq.txCq.cqeCnt.toNat →
      r₀.st.txq.sq.wqeCnt.toNat ≤ 2 ^ 16 →
      ∀ r, Reachable (fun s => s = r₀) (Step cfg fuel) r →
        (Event.outstanding r.st.trace).length ≤ r₀.st.txq.txCq.cqeCnt.toNat) ∧
    (r₀.st.txq.txCq.cqeCnt.toNat < r₀.st.txq.sq.wqeCnt.toNat →
      ∃ r, Reachable (fun s => s = r₀) (Step cfg fuel) r ∧
        r₀.st.txq.txCq.cqeCnt.toNat < (Event.outstanding r.st.trace).length) := by
  constructor
  · intro hle hsmall r hreach
    exact (length_outstanding_le (hsetup.init hsmall) hreach).trans hle
  · exact exists_overrun hsetup hfuel

/-- A ring of 512 blocks with a completion queue of 256 entries. -/
def wideRing : SendRun :=
  ⟨{ State.zeroed 512 4 with
    txq := { Mlx5Txq.zeroed 0x10000 512 with txCq := Cq.deviceOwned 256 } }, 0⟩

theorem setup_wideRing : Setup wideRing where
  size := ⟨9, rfl⟩
  sqHead := rfl
  cqHead := rfl
  trueCqHead := rfl
  trace := rfl
  reported := rfl
  reports := by decide +kernel

/-- A full ring of 128 blocks and its queue of 128 entries. -/
theorem completion_queue_bound_fullRing :
    ∃ r, Stalled 128 128 r ∧ (Event.outstanding r.st.trace).length ≤ 128 := by
  have hsetup : Setup ⟨State.zeroed 128 4, 0⟩ :=
    ⟨⟨7, rfl⟩, rfl, rfl, rfl, rfl, rfl, by decide +kernel⟩
  obtain ⟨r, hreach, hstalled⟩ :=
    @exists_stalled Config.default 1 128 ⟨State.zeroed 128 4, 0⟩ hsetup (by decide) (by decide)
  exact ⟨r, hstalled,
    (completion_queue_bound hsetup (by decide)).1 (by decide) (by decide) r hreach⟩

/-- With 512 blocks and 256 entries more than 256 completions can be on their way. -/
theorem completion_queue_overrun_wideRing :
    ¬ ∀ (cfg : Config) (fuel : ℕ) (r₀ r : SendRun), Setup r₀ →
      Reachable (fun s => s = r₀) (Step cfg fuel) r →
      (Event.outstanding r.st.trace).length ≤ r₀.st.txq.txCq.cqeCnt.toNat := by
  intro hclaim
  obtain ⟨r, hreach, hmany⟩ :=
    @exists_overrun Config.default 1 wideRing setup_wideRing (by decide) (by decide)
  exact absurd (hclaim _ _ _ r setup_wideRing hreach) (by omega)

end SendRun

end Mlx5Netperf
