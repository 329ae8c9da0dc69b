import Mlx5Netperf.ReleasedPools
import Mlx5Netperf.Server.RefcntCells

/-!
# What Changes of Reference Counts Report

The value that `server_change_refcnt` returns, and the warning that
`zero_copy_tx_completion` makes of it. An increment returns the new count. A
decrement returns its negation, and the caller keeps the low eight bits only.
-/

namespace Mlx5Netperf

open NullTerminated

variable {cfg : Config} {st : State}

/-! ## One change -/

/-- The call returns the count it leaves behind, which is the old one changed,
and leaves the other cells alone. -/
structure ReportsCount (cfg : Config) (st : State) (index : UInt64) (change : Int16) : Prop where
  returned : (serverChangeRefcnt cfg st index change).1 =
    (serverChangeRefcnt cfg st index change).2.workingSetRefcnts (refcntCell cfg index).1
      (refcntCell cfg index).2
  stored : (serverChangeRefcnt cfg st index change).2.workingSetRefcnts (refcntCell cfg index).1
      (refcntCell cfg index).2 =
    st.workingSetRefcnts (refcntCell cfg index).1 (refcntCell cfg index).2 + change.toUInt16
  others : ∀ j i, (j, i) ≠ refcntCell cfg index →
    (serverChangeRefcnt cfg st index change).2.workingSetRefcnts j i = st.workingSetRefcnts j i

/-- Both branches change the count by the given amount. -/
theorem serverChangeRefcnt_eq (cfg : Config) (st : State) (index : UInt64) (change : Int16) :
    serverChangeRefcnt cfg st index change =
      let new := st.workingSetRefcnts (refcntCell cfg index).1 (refcntCell cfg index).2 +
        change.toUInt16
      (if change > 0 then new else 0 - new, { st with
        workingSetRefcnts := storeRefcnt st.workingSetRefcnts (refcntCell cfg index).1
          (refcntCell cfg index).2 new }) := by
  -- the other branch subtracts the change times minus one
  have hnegate : ∀ old : UInt16, old - (change * -1).toUInt16 = old + change.toUInt16 := by
    intro old
    rw [Int16.toUInt16_mul]
    show old - change.toUInt16 * (-1) = _
    grind
  unfold serverChangeRefcnt
  split
  · simp only [UInt16.zero_add, refcntCell]
  · simp only [hnegate, refcntCell]

/-- A word is its own negation at zero and half way round. -/
theorem zero_sub_eq_self_iff (x : UInt16) : 0 - x = x ↔ x = 0 ∨ x = 0x8000 := by
  have hx := x.toNat_lt
  simp only [← UInt16.toNat_inj, UInt16.toNat_sub, UInt16.toNat_zero, UInt16.reduceToNat]
  -- the negation is `2 ^ 16 - x`, so `2 * x` is a multiple of `2 ^ 16`
  omega

/-- **The returned value** is the new count after an increment, and after a
decrement to zero or to 2 ^ 15. -/
theorem reportsCount_iff (cfg : Config) (st : State) (index : UInt64) (change : Int16) :
    ReportsCount cfg st index change ↔
      0 < change ∨
        st.workingSetRefcnts (refcntCell cfg index).1 (refcntCell cfg index).2 + change.toUInt16 = 0 ∨
        st.workingSetRefcnts (refcntCell cfg index).1 (refcntCell cfg index).2 + change.toUInt16 =
          0x8000 := by
  have hchange := serverChangeRefcnt_eq cfg st index change
  generalize hnew : st.workingSetRefcnts (refcntCell cfg index).1 (refcntCell cfg index).2 +
    change.toUInt16 = new at hchange ⊢
  have hcell : (serverChangeRefcnt cfg st index change).2.workingSetRefcnts
      (refcntCell cfg index).1 (refcntCell cfg index).2 = new := by
    rw [hchange]
    exact if_pos ⟨rfl, rfl⟩
  have hreturned : (serverChangeRefcnt cfg st index change).1 =
      if change > 0 then new else 0 - new := by rw [hchange]
  -- cell and other cells are right in any case, so the returned value decides
  have hequal : ReportsCount cfg st index change ↔
      (if change > 0 then new else 0 - new) = new := by
    constructor
    · intro h
      rw [← hreturned, h.returned, hcell]
    · intro heq
      constructor
      case returned => rw [hreturned, hcell, heq]
      case stored => rw [hcell, hnew]
      case others => exact fun j i hne => serverChangeRefcnt_of_ne hne
  rw [hequal]
  split
  case isTrue hpos => exact ⟨fun _ => .inl hpos, fun _ => rfl⟩
  case isFalse hneg => rw [zero_sub_eq_self_iff, or_iff_right hneg]

/-! ## A chain of releases -/

/-- What a release of `nodes` logs that warns when a count is left for which
`warn` holds. -/
def releaseLog (cfg : Config) (warn : UInt16 → Bool) (heap : Heap) :
    List Addr → (ℕ → ℕ → UInt16) → List Event
  | [], _ => []
  | a :: nodes, refcnts =>
    let index := (heap a).releaseData
    let refcnts := dropRefcnt cfg refcnts index
    let cell := refcntCell cfg index
    (if warn (refcnts cell.1 cell.2) then [.refcntZero index] else []) ++
      .released a :: releaseLog cfg warn heap nodes refcnts

/-- The zero test of `zero_copy_tx_completion` holds of every multiple of 256. -/
theorem toUInt8_zero_sub_eq_zero_iff (x : UInt16) :
    (0 - x).toUInt8 = 0 ↔ x.toNat % 256 = 0 := by
  have hx := x.toNat_lt
  simp only [← UInt8.toNat_inj, UInt16.toNat_toUInt8, UInt16.toNat_sub, UInt16.toNat_zero,
    UInt8.toNat_zero]
  -- a word and its negation have the same low byte up to sign
  omega

/-- One round of the release: the warning, if any, and the release. -/
theorem zeroCopyTxCompletionStep_trace (hcounting : cfg.usingRefCounting = true) (a : Addr) :
    (zeroCopyTxCompletionStep cfg a st).trace = st.trace ++
      releaseLog cfg (fun count => count.toNat % 256 = 0) st.heap [a] st.workingSetRefcnts := by
  have hdrop : dropRefcnt cfg st.workingSetRefcnts (st.heap a).releaseData
      (refcntCell cfg (st.heap a).releaseData).1 (refcntCell cfg (st.heap a).releaseData).2 =
        st.workingSetRefcnts (refcntCell cfg (st.heap a).releaseData).1
          (refcntCell cfg (st.heap a).releaseData).2 + (-1 : Int16).toUInt16 := by
    have hminus : ∀ count : UInt16, count - 1 = count + (-1 : Int16).toUInt16 := by
      intro count
      show count - 1 = count + (-1)
      grind
    exact (if_pos ⟨rfl, rfl⟩).trans (hminus _)
  have hnegative : ¬ (-1 : Int16) > 0 := by decide
  simp only [zeroCopyTxCompletionStep, hcounting, if_true, serverChangeRefcnt_eq, hnegative,
    if_false, toUInt8_zero_sub_eq_zero_iff, releaseLog, hdrop, decide_eq_true_eq]
  split <;> simp

/-- **The log of a release** warns at every count that is a multiple of 256. -/
theorem foldl_zeroCopyTxCompletionStep_trace (hcounting : cfg.usingRefCounting = true)
    (nodes : List Addr) :
    (nodes.foldl (fun s a => zeroCopyTxCompletionStep cfg a s) st).trace = st.trace ++
      releaseLog cfg (fun count => count.toNat % 256 = 0) st.heap nodes st.workingSetRefcnts := by
  induction nodes generalizing st with
  | nil => simp [releaseLog]
  | cons a nodes ih =>
    -- a round writes the counts and the trace; the segments of the nodes behind stay
    obtain ⟨tail, hreleased⟩ := zeroCopyTxCompletionStep_released cfg a st
    have hrefcnts := zeroCopyTxCompletionStep_refcnts cfg a st
    rw [hcounting, if_pos rfl] at hrefcnts
    rw [List.foldl_cons, ih, hreleased.keeps.heap, hrefcnts, zeroCopyTxCompletionStep_trace hcounting]
    simp only [releaseLog, List.append_assoc, List.cons_append, List.nil_append]

/-- The count of node `k`'s segment right after its release, when the nodes are
released in order. -/
def countLeft (cfg : Config) (heap : Heap) (refcnts : ℕ → ℕ → UInt16) (nodes : List Addr) (k : ℕ)
    (a : Addr) : UInt16 :=
  let cell := refcntCell cfg (heap a).releaseData
  refcnts cell.1 cell.2 -
    UInt16.ofNat (((nodes.take (k + 1)).map fun b => refcntCell cfg (heap b).releaseData).count cell)

/-- A decrement takes one from the count of its cell. -/
theorem dropRefcnt_apply (cfg : Config) (refcnts : ℕ → ℕ → UInt16) (segment : UInt64)
    (cell : ℕ × ℕ) : dropRefcnt cfg refcnts segment cell.1 cell.2 =
      refcnts cell.1 cell.2 - UInt16.ofNat ([refcntCell cfg segment].count cell) := by
  by_cases h : cell = refcntCell cfg segment
  · subst h
    rw [List.count_singleton_self]
    exact if_pos ⟨rfl, rfl⟩
  · have hne : ¬ (cell.1 = (refcntCell cfg segment).1 ∧ cell.2 = (refcntCell cfg segment).2) :=
      fun heq => h (Prod.ext heq.1 heq.2)
    have hcount : [refcntCell cfg segment].count cell = 0 :=
      List.count_eq_zero.mpr fun hmem => h (List.mem_singleton.mp hmem)
    rw [hcount]
    exact (if_neg hne).trans (UInt16.sub_zero _).symm

theorem countLeft_zero (cfg : Config) (heap : Heap) (refcnts : ℕ → ℕ → UInt16) (nodes : List Addr)
    (a : Addr) : countLeft cfg heap refcnts (a :: nodes) 0 a =
      dropRefcnt cfg refcnts (heap a).releaseData (refcntCell cfg (heap a).releaseData).1
        (refcntCell cfg (heap a).releaseData).2 := by
  rw [dropRefcnt_apply]
  rfl

theorem countLeft_succ (cfg : Config) (heap : Heap) (refcnts : ℕ → ℕ → UInt16) (nodes : List Addr)
    (a b : Addr) (k : ℕ) : countLeft cfg heap refcnts (a :: nodes) (k + 1) b =
      countLeft cfg heap (dropRefcnt cfg refcnts (heap a).releaseData) nodes k b := by
  -- the releases before node `k` are counted off one at a time
  have hsub : ∀ (x : UInt16) (m n : ℕ),
      x - UInt16.ofNat (m + n) = x - UInt16.ofNat m - UInt16.ofNat n := by
    intro x m n
    rw [UInt16.ofNat_add]
    grind
  simp only [countLeft, dropRefcnt_apply, List.take_succ_cons, List.map_cons, ← hsub]
  rw [← List.singleton_append, List.count_append]

/-- **Two releases warn alike** exactly when their tests agree on every count that
is left. -/
theorem releaseLog_eq_iff (warn warn' : UInt16 → Bool) (heap : Heap) (nodes : List Addr)
    (refcnts : ℕ → ℕ → UInt16) :
    releaseLog cfg warn heap nodes refcnts = releaseLog cfg warn' heap nodes refcnts ↔
      ∀ k a, nodes[k]? = some a → warn (countLeft cfg heap refcnts nodes k a) =
        warn' (countLeft cfg heap refcnts nodes k a) := by
  induction nodes generalizing refcnts with
  | nil => simp [releaseLog]
  | cons a nodes ih =>
    -- the first node, and the nodes behind it on the counts that it leaves
    have hsplit : (∀ k b, (a :: nodes)[k]? = some b →
        warn (countLeft cfg heap refcnts (a :: nodes) k b) =
          warn' (countLeft cfg heap refcnts (a :: nodes) k b)) ↔
        warn (countLeft cfg heap refcnts (a :: nodes) 0 a) =
          warn' (countLeft cfg heap refcnts (a :: nodes) 0 a) ∧
        ∀ k b, nodes[k]? = some b →
          warn (countLeft cfg heap (dropRefcnt cfg refcnts (heap a).releaseData) nodes k b) =
            warn' (countLeft cfg heap (dropRefcnt cfg refcnts (heap a).releaseData) nodes k b) := by
      constructor
      · intro h
        refine ⟨h 0 a rfl, fun k b hk => ?_⟩
        rw [← countLeft_succ]
        exact h (k + 1) b hk
      · intro h k b hk
        cases k with
        | zero =>
          obtain rfl := Option.some.inj hk
          exact h.1
        | succ k =>
          rw [countLeft_succ]
          exact h.2 k b hk
    rw [hsplit, ← ih, countLeft_zero]
    simp only [releaseLog]
    -- each round logs its release last, so the logs agree round by round
    split <;> split <;> simp_all

/-- The release ends, and warns exactly at the segments whose count it left at zero. -/
def WarnsAtZero (cfg : Config) (fuel : ℕ) (st : State) (m : Addr) (nodes : List Addr) : Prop :=
  ∃ st', zeroCopyTxCompletion cfg fuel st m = some st' ∧ st'.trace = st.trace ++
    releaseLog cfg (fun count => count = 0) st.heap nodes st.workingSetRefcnts

/-- **The warning is right** exactly when no count is left at another multiple of 256. -/
theorem warnsAtZero_iff {fuel : ℕ} {m : Addr} {nodes : List Addr}
    (hcounting : cfg.usingRefCounting = true) (hchain : st.heap.IsChain (some m) nodes)
    (hfuel : nodes.length ≤ fuel) :
    WarnsAtZero cfg fuel st m nodes ↔
      ∀ k a, nodes[k]? = some a → (countLeft cfg st.heap st.workingSetRefcnts nodes k a).toNat % 256 = 0 →
        countLeft cfg st.heap st.workingSetRefcnts nodes k a = 0 := by
  have hrelease : zeroCopyTxCompletion cfg fuel st m =
      some (nodes.foldl (fun s a => zeroCopyTxCompletionStep cfg a s) st) :=
    hchain.traverse_eq _ hfuel st
  -- the two tests differ at the other multiples of 256 only
  have htest : ∀ count : UInt16,
      (decide (count.toNat % 256 = 0) = decide (count = 0)) ↔ (count.toNat % 256 = 0 → count = 0) := by
    intro count
    have hzero : count = 0 → count.toNat % 256 = 0 := fun h => by rw [h]; rfl
    rw [decide_eq_decide]
    exact ⟨Iff.mp, fun h => ⟨h, hzero⟩⟩
  -- what was logged before is the same on both sides
  have hlogs : WarnsAtZero cfg fuel st m nodes ↔
      releaseLog cfg (fun count => count.toNat % 256 = 0) st.heap nodes st.workingSetRefcnts =
        releaseLog cfg (fun count => count = 0) st.heap nodes st.workingSetRefcnts := by
    rw [WarnsAtZero, hrelease]
    constructor
    · intro h
      obtain ⟨st', hst', htrace⟩ := h
      obtain rfl := Option.some.inj hst'
      rw [foldl_zeroCopyTxCompletionStep_trace hcounting] at htrace
      exact List.append_cancel_left htrace
    · intro heq
      refine ⟨_, rfl, ?_⟩
      rw [foldl_zeroCopyTxCompletionStep_trace hcounting, heq]
  rw [hlogs, releaseLog_eq_iff]
  exact forall_congr' fun k => forall_congr' fun a => forall_congr' fun _ => htest _

/-- **What is reported of a count**: the returned value is the new count exactly
for increments and for decrements to zero or to 2 ^ 15, and the warning of a
release is right exactly when no other multiple of 256 is left. -/
theorem refcnt_reports_iff {fuel : ℕ} {m : Addr} {nodes : List Addr} (index : UInt64)
    (change : Int16) (hcounting : cfg.usingRefCounting = true)
    (hchain : st.heap.IsChain (some m) nodes) (hfuel : nodes.length ≤ fuel) :
    (ReportsCount cfg st index change ↔
      0 < change ∨
        st.workingSetRefcnts (refcntCell cfg index).1 (refcntCell cfg index).2 + change.toUInt16 = 0 ∨
        st.workingSetRefcnts (refcntCell cfg index).1 (refcntCell cfg index).2 + change.toUInt16 =
          0x8000) ∧
    (WarnsAtZero cfg fuel st m nodes ↔
      ∀ k a, nodes[k]? = some a → (countLeft cfg st.heap st.workingSetRefcnts nodes k a).toNat % 256 = 0 →
        countLeft cfg st.heap st.workingSetRefcnts nodes k a = 0) :=
  ⟨reportsCount_iff cfg st index change, warnsAtZero_iff hcounting hchain hfuel⟩

/-- A server that counts references, and a chain of one mbuf for a segment with
the given count. -/
def countingServer : Config := { Config.default with usingRefCounting := true }

def countedState (count : UInt16) : State :=
  { State.zeroed 4 4 with workingSetRefcnts := fun _ _ => count }

theorem isChain_countedState (count : UInt16) : (countedState count).heap.IsChain (some 7) [7] :=
  .cons .nil

/-- With a count of two the increment and the release are reported correctly. -/
theorem refcnt_reports_two : ReportsCount countingServer (countedState 2) 0 1 ∧
    WarnsAtZero countingServer 1 (countedState 2) 7 [7] := by
  have hreports := @refcnt_reports_iff countingServer (countedState 2) 1 7 [7] 0 1 rfl
    (isChain_countedState 2) (le_refl 1)
  constructor
  · exact hreports.1.mpr (.inl (by decide))
  · apply hreports.2.mpr
    intro k a hk
    cases k with
    | zero =>
      obtain rfl := Option.some.inj hk
      decide
    | succ k => simp at hk

/-- A decrement from two returns 2 ^ 16 - 1, and the count that is left is one. -/
theorem refcnt_not_reported_two :
    ¬ ∀ (cfg : Config) (fuel : ℕ) (st : State) (index : UInt64) (change : Int16) (m : Addr)
      (nodes : List Addr), change ≠ 0 → cfg.usingRefCounting = true →
      st.heap.IsChain (some m) nodes → nodes.length ≤ fuel →
      ReportsCount cfg st index change ∧ WarnsAtZero cfg fuel st m nodes := by
  intro hclaim
  have hreports := hclaim countingServer 1 (countedState 2) 0 (-1) 7 [7] (by decide) rfl
    (isChain_countedState 2) (le_refl 1)
  exact absurd hreports.1.returned (by decide)

end Mlx5Netperf
