import Mlx5Netperf.Completion

/-!
# Gathering Send Completions

`mlx5_gather_completions` of `mlx5_rxtx.c`.
-/

namespace Mlx5Netperf

open ByteOrder

/-- The ring slot a completion names: `be16toh(cqe->wqe_counter) & (sq.wqe_cnt - 1)`,
kept in 16 bits. -/
def wqeIdx (wqeCounter : UInt16) (wqeCnt : UInt32) : UInt16 :=
  (wqeCounter.toUInt32 &&& (wqeCnt - 1)).toUInt16

/-- One entry: advance over it and take the chain it names. -/
def State.gather (st : State) (wqeCounter : UInt16) (m : Addr) : State :=
  { st with txq := { st.txq with
      cqHead := st.txq.cqHead + 1
      trueCqHead := st.txq.trueCqHead + (st.heap m).numWqes.toUInt32 } }.log
    (.gathered wqeCounter m)

/-- The loop of `mlx5_gather_completions`; `none` is a panic, or a null `buffers` entry. -/
def mlx5GatherCompletionsLoop : ℕ → State → Option (List Addr × State)
  | 0, st => some ([], st)
  | budget + 1, st =>
    let v := st.txq
    let cqe := v.txCq.at v.cqHead
    let opcode := v.txCq.status v.cqHead
    -- the entry still belongs to the device
    if opcode = mlx5CqeInvalid then some ([], st)
    -- `panic`: an error, or a compressed entry
    else if opcode ≠ mlx5CqeReq then none
    else if mlx5GetCqeFormat cqe = 3 then none
    else
      match v.buffers (wqeIdx (be16toh cqe.wqeCounter) v.sq.wqeCnt).toNat with
      | none => none
      | some m =>
        (mlx5GatherCompletionsLoop budget (st.gather (be16toh cqe.wqeCounter) m)).map
          fun (ms, st) => (m :: ms, st)

/-- `mlx5_gather_completions`: the chains of up to `budget` completions. -/
def mlx5GatherCompletions (st : State) (budget : ℕ) : Option (List Addr × State) :=
  (mlx5GatherCompletionsLoop budget st).map fun (ms, st) =>
    (ms, { st with txq := { st.txq with txCq := { st.txq.txCq with
      -- the doorbell record has 24 bits of the index
      dbrec := bswap32 (st.txq.cqHead &&& 0xffffff) } } })

/-- `mlx5_gather_completions` followed by `mbuf_free` of everything it returned. -/
def gatherAndFree (cfg : Config) (fuel : ℕ) (st : State) : Option State :=
  (mlx5GatherCompletions st sqCleanMax).bind fun (mbs, st) => mbufFreeAll cfg fuel st mbs

/-! ## What completions leave alone -/

/-- What completions leave alone: everything a refused send must not change. -/
structure State.SameRing (st st' : State) : Prop where
  mem : st'.mem = st.mem
  heap : st'.heap = st.heap
  rxq : st'.rxq = st.rxq
  requestHeaders : st'.requestHeaders = st.requestHeaders
  sq : st'.txq.sq = st.txq.sq
  sqHead : st'.txq.sqHead = st.txq.sqHead
  txSqLogStride : st'.txq.txSqLogStride = st.txq.txSqLogStride
  qpNum : st'.txq.qpNum = st.txq.qpNum
  buffers : st'.txq.buffers = st.txq.buffers
  posts : Event.posts st'.trace = Event.posts st.trace

namespace State.SameRing

theorem refl (st : State) : st.SameRing st := ⟨rfl, rfl, rfl, rfl, rfl, rfl, rfl, rfl, rfl, rfl⟩

theorem trans {st st' st'' : State} (h : st.SameRing st') (h' : st'.SameRing st'') :
    st.SameRing st'' :=
  ⟨h'.mem.trans h.mem, h'.heap.trans h.heap, h'.rxq.trans h.rxq,
    h'.requestHeaders.trans h.requestHeaders, h'.sq.trans h.sq, h'.sqHead.trans h.sqHead,
    h'.txSqLogStride.trans h.txSqLogStride, h'.qpNum.trans h.qpNum,
    h'.buffers.trans h.buffers, h'.posts.trans h.posts⟩

/-- Taking one completion. -/
theorem gather (st : State) (c : UInt16) (m : Addr) : st.SameRing (st.gather c m) := by
  refine ⟨rfl, rfl, rfl, rfl, rfl, rfl, rfl, rfl, rfl, ?_⟩
  simp [State.gather]

/-- Releasing one chain. -/
theorem freed {st st' : State} {m : Addr} {tail : List Event}
    (h : Released (st.log (.freed m)) st' tail) : st.SameRing st' := by
  have hposts : Event.posts tail = [] :=
    Event.posts_eq_nil fun e he => (h.tail_isRelease e he).isQuiet
  have htxq : st'.txq = st.txq := h.keeps.txq
  refine ⟨h.keeps.mem, h.keeps.heap, h.keeps.rxq, h.keeps.requestHeaders, ?_, ?_, ?_, ?_, ?_, ?_⟩
  all_goals first | rw [htxq] | skip
  rw [h.trace, Event.posts_append, hposts, State.log_trace, Event.posts_append]
  simp

end State.SameRing

/-- The gathering loop only takes completions. -/
theorem mlx5GatherCompletionsLoop_sameRing {budget : ℕ} {st st' : State} {ms : List Addr}
    (h : mlx5GatherCompletionsLoop budget st = some (ms, st')) : st.SameRing st' := by
  induction budget generalizing st ms with
  | zero =>
    obtain ⟨-, rfl⟩ := Prod.mk.inj (Option.some.inj h)
    exact .refl st
  | succ budget ih =>
    simp only [mlx5GatherCompletionsLoop] at h
    -- the four ways out of a round
    split at h
    · obtain ⟨-, rfl⟩ := Prod.mk.inj (Option.some.inj h)
      exact .refl st
    · split at h
      · simp at h
      · split at h
        · simp at h
        · split at h
          · simp at h
          · obtain ⟨⟨ms', st''⟩, hloop, heq⟩ := Option.map_eq_some_iff.mp h
            obtain ⟨-, rfl⟩ := Prod.mk.inj heq
            exact (State.SameRing.gather ..).trans (ih hloop)

/-- So does the release loop. -/
theorem mbufFreeAll_sameRing {cfg : Config} {fuel : ℕ} {st st' : State} {ms : List Addr}
    (h : mbufFreeAll cfg fuel st ms = some st') : st.SameRing st' := by
  induction ms generalizing st with
  | nil =>
    obtain rfl := Option.some.inj h
    exact .refl st
  | cons m ms ih =>
    obtain ⟨st₁, hfree, hrest⟩ := Option.bind_eq_some_iff.mp h
    obtain ⟨tail, hreleased⟩ := mbufFree_released hfree
    exact (State.SameRing.freed hreleased).trans (ih hrest)

theorem gatherAndFree_sameRing {cfg : Config} {fuel : ℕ} {st st' : State}
    (h : gatherAndFree cfg fuel st = some st') : st.SameRing st' := by
  obtain ⟨⟨ms, st₁⟩, hgather, hfree⟩ := Option.bind_eq_some_iff.mp h
  obtain ⟨⟨ms', st₂⟩, hloop, heq⟩ := Option.map_eq_some_iff.mp hgather
  obtain ⟨rfl, rfl⟩ := Prod.mk.inj heq
  -- the doorbell is rung between gathering and releasing
  let st₃ : State := { st₂ with txq := { st₂.txq with txCq := { st₂.txq.txCq with
    dbrec := bswap32 (st₂.txq.cqHead &&& 0xffffff) } } }
  have hdoorbell : st₂.SameRing st₃ := ⟨rfl, rfl, rfl, rfl, rfl, rfl, rfl, rfl, rfl, rfl⟩
  have hfree' : mbufFreeAll cfg fuel st₃ ms' = some st' := hfree
  exact ((mlx5GatherCompletionsLoop_sameRing hloop).trans hdoorbell).trans
    (mbufFreeAll_sameRing hfree')

end Mlx5Netperf
