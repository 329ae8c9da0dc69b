import Mlx5Netperf.State

/-!
# Release Functions

`server_change_refcnt` of `mlx5_rxtx.c`, the three release functions of
`inc/mlx5_rxtx.h` and `mbuf_free`. A loop over a scatter list is bounded by
`fuel`; `none` is a call through a null pointer, or a list longer than the fuel.
-/

namespace Mlx5Netperf

open NullTerminated

/-! ## Reference counts -/

/-- Store a count in the two-level array. -/
def storeRefcnt (refcnts : ℕ → ℕ → UInt16) (arr seg : ℕ) (count : UInt16) : ℕ → ℕ → UInt16 :=
  fun j i => if j = arr ∧ i = seg then count else refcnts j i

/-- `server_change_refcnt`. The result starts at zero and the new count is
added to it, or, for a decrement, subtracted from it. Division and arrays are total
here; the code divides by `num_total_segments` and indexes unchecked, so that this is
its behaviour for a number other than zero and a count that was allocated. -/
def serverChangeRefcnt (cfg : Config) (st : State) (index : UInt64) (change : Int16) :
    UInt16 × State :=
  let physicalSegment := (index % cfg.numTotalSegments).toNat
  let refcntArray := (index / cfg.numTotalSegments).toNat
  let old := st.workingSetRefcnts refcntArray physicalSegment
  -- a decrement subtracts the change times minus one
  let new := if change > 0 then old + change.toUInt16 else old - (change * -1).toUInt16
  let cur : UInt16 := if change > 0 then 0 + new else 0 - new
  (cur, { st with
    workingSetRefcnts := storeRefcnt st.workingSetRefcnts refcntArray physicalSegment new })

/-! ## Release functions -/

/-- One round of `zero_copy_tx_completion`. The count is truncated to 8 bits
before it is compared with zero. -/
def zeroCopyTxCompletionStep (cfg : Config) (m : Addr) (st : State) : State :=
  let st := if cfg.usingRefCounting then
      let index := (st.heap m).releaseData
      let (cur, st) := serverChangeRefcnt cfg st index (-1)
      -- the negated count, cut to eight bits
      let refcnt : UInt8 := cur.toUInt8
      if refcnt = 0 then st.log (.refcntZero index) else st
    else st
  { st with mbufMempool := mempoolFree st.mbufMempool m }.log (.released m)

/-- `zero_copy_tx_completion` -/
def zeroCopyTxCompletion (cfg : Config) (fuel : ℕ) (st : State) (m : Addr) : Option State :=
  traverse (fun a => (st.heap a).next) (zeroCopyTxCompletionStep cfg) fuel (some m) st

/-- One round of `tx_completion`. -/
def txCompletionStep (m : Addr) (st : State) : State :=
  { st with
    txBufMempool := mempoolFree st.txBufMempool (st.heap m).head
    mbufMempool := mempoolFree st.mbufMempool m }

/-- `tx_completion` -/
def txCompletion (fuel : ℕ) (st : State) (m : Addr) : Option State :=
  traverse (fun a => (st.heap a).next) txCompletionStep fuel (some m) st

/-- `rx_completion` -/
def rxCompletion (st : State) (m : Addr) : State :=
  { st with rxBufMempool := mempoolFree st.rxBufMempool (st.heap m).head }

/-- `mbuf_free`: call the release function of the mbuf. -/
def mbufFree (cfg : Config) (fuel : ℕ) (st : State) : Option Addr → Option State
  -- calling through a null pointer
  | none => none
  | some m =>
    let st := st.log (.freed m)
    match (st.heap m).release with
    | none => none
    | some .zeroCopyTxCompletion => zeroCopyTxCompletion cfg fuel st m
    | some .txCompletion => txCompletion fuel st m
    | some .rxCompletion => some (rxCompletion st m)

/-- The loop `for (i = 0; i < compl; i++) mbuf_free(mbs[i])`. -/
def mbufFreeAll (cfg : Config) (fuel : ℕ) : State → List Addr → Option State
  | st, [] => some st
  | st, m :: ms => (mbufFree cfg fuel st (some m)).bind fun st => mbufFreeAll cfg fuel st ms

/-! ## What releasing leaves alone -/

/-- Nothing differs but the pools, the reference counts and the trace. -/
structure State.Keeps (st st' : State) : Prop where
  mem : st'.mem = st.mem
  heap : st'.heap = st.heap
  txq : st'.txq = st.txq
  rxq : st'.rxq = st.rxq
  requestHeaders : st'.requestHeaders = st.requestHeaders

/-- The events inside a release function. -/
def Event.IsRelease : Event → Prop
  | .released _ => True
  | .refcntZero _ => True
  | _ => False

theorem Event.IsRelease.isQuiet {e : Event} (h : e.IsRelease) : e.IsQuiet := by
  cases e <;> trivial

namespace State.Keeps

theorem rfl {st : State} : st.Keeps st := ⟨Eq.refl _, Eq.refl _, Eq.refl _, Eq.refl _, Eq.refl _⟩

theorem trans {st st' st'' : State} (h : st.Keeps st') (h' : st'.Keeps st'') : st.Keeps st'' :=
  ⟨h'.mem.trans h.mem, h'.heap.trans h.heap, h'.txq.trans h.txq, h'.rxq.trans h.rxq,
    h'.requestHeaders.trans h.requestHeaders⟩

end State.Keeps

/-- The state after a release function, seen from outside: `tail` is what it logged. -/
structure Released (st st' : State) (tail : List Event) : Prop where
  keeps : st.Keeps st'
  trace : st'.trace = st.trace ++ tail
  tail_isRelease : ∀ e ∈ tail, e.IsRelease

namespace Released

theorem refl (st : State) : Released st st [] := ⟨.rfl, by simp, by simp⟩

theorem trans {st st' st'' : State} {t t' : List Event} (h : Released st st' t)
    (h' : Released st' st'' t') : Released st st'' (t ++ t') := by
  refine ⟨h.keeps.trans h'.keeps, by rw [h'.trace, h.trace, List.append_assoc], ?_⟩
  intro e he
  rcases List.mem_append.mp he with hl | hr
  · exact h.tail_isRelease e hl
  · exact h'.tail_isRelease e hr

end Released

theorem zeroCopyTxCompletionStep_released (cfg : Config) (m : Addr) (st : State) :
    ∃ tail, Released st (zeroCopyTxCompletionStep cfg m st) tail := by
  simp only [zeroCopyTxCompletionStep]
  split
  · split
    -- counting, with and without the warning
    · refine ⟨[.refcntZero (st.heap m).releaseData, .released m], ⟨rfl, rfl, rfl, rfl, rfl⟩, ?_, ?_⟩
      · simp [State.log, serverChangeRefcnt]
      · simp [Event.IsRelease]
    · exact ⟨[.released m], ⟨rfl, rfl, rfl, rfl, rfl⟩, by simp [State.log, serverChangeRefcnt],
        by simp [Event.IsRelease]⟩
  · exact ⟨[.released m], ⟨rfl, rfl, rfl, rfl, rfl⟩, by simp [State.log],
      by simp [Event.IsRelease]⟩

theorem txCompletionStep_released (m : Addr) (st : State) :
    Released st (txCompletionStep m st) [] :=
  ⟨⟨rfl, rfl, rfl, rfl, rfl⟩, by simp [txCompletionStep], by simp⟩

/-- A round that only releases makes a loop that only releases. -/
theorem foldl_released {body : Addr → State → State}
    (hbody : ∀ m st, ∃ tail, Released st (body m st) tail) (nodes : List Addr) (st : State) :
    ∃ tail, Released st (nodes.foldl (fun s a => body a s) st) tail := by
  induction nodes generalizing st with
  | nil => exact ⟨[], .refl st⟩
  | cons m nodes ih =>
    -- what the rounds log is logged one after the other
    obtain ⟨t, ht⟩ := hbody m st
    obtain ⟨t', ht'⟩ := ih (body m st)
    exact ⟨t ++ t', ht.trans ht'⟩

theorem traverse_released {next : Addr → Option Addr} {body : Addr → State → State}
    (hbody : ∀ m st, ∃ tail, Released st (body m st) tail) {fuel : ℕ} {p : Option Addr}
    {st st' : State} (h : traverse next body fuel p st = some st') :
    ∃ tail, Released st st' tail := by
  obtain ⟨nodes, -, -, rfl⟩ := exists_chain_of_traverse h
  exact foldl_released hbody nodes st

/-- **What `mbuf_free` does, seen from outside.** -/
theorem mbufFree_released {cfg : Config} {fuel : ℕ} {st st' : State} {m : Addr}
    (h : mbufFree cfg fuel st (some m) = some st') :
    ∃ tail, Released (st.log (.freed m)) st' tail := by
  simp only [mbufFree] at h
  split at h
  · simp at h
  · exact traverse_released (zeroCopyTxCompletionStep_released cfg) h
  · exact traverse_released (fun m st => ⟨[], txCompletionStep_released m st⟩) h
  · obtain rfl := Option.some.inj h
    exact ⟨[], ⟨rfl, rfl, rfl, rfl, rfl⟩, by simp [rxCompletion], by simp⟩

/-- A chain that ends within the fuel and has a release function can be freed. -/
structure Releasable (fuel : ℕ) (heap : Heap) (m : Addr) : Prop where
  chain : ∃ nodes, heap.IsChain (some m) nodes ∧ nodes.length ≤ fuel
  release : (heap m).release ≠ none

theorem Releasable.mbufFree (cfg : Config) {fuel : ℕ} {st : State} {m : Addr}
    (h : Releasable fuel st.heap m) : ∃ st', mbufFree cfg fuel st (some m) = some st' := by
  obtain ⟨nodes, hchain, hlen⟩ := h.chain
  obtain ⟨rel, hrel⟩ := Option.ne_none_iff_exists'.mp h.release
  simp only [Mlx5Netperf.mbufFree, State.log_heap, hrel]
  cases rel with
  | zeroCopyTxCompletion => exact ⟨_, hchain.traverse_eq _ hlen _⟩
  | txCompletion => exact ⟨_, hchain.traverse_eq _ hlen _⟩
  | rxCompletion => exact ⟨_, rfl⟩

end Mlx5Netperf
