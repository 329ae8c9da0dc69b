import Mlx5Netperf.Server.PreparedBatch
import Mlx5Netperf.Server.RefcntReports

/-!
# Live References

The reference counts against the mbufs that `process_server_requests` made and
`zero_copy_tx_completion` has not released. Making an mbuf and releasing it
change the count of the same cell, because both split the id in the same way,
and the pool hands an mbuf out again only after its release.
-/

namespace Mlx5Netperf

open NullTerminated

/-! ## The live mbufs -/

namespace Event

@[simp] theorem live_created (tr : List Event) (m : Addr) :
    live (tr ++ [.created m]) = m :: live tr := by simp [live]

@[simp] theorem live_released (tr : List Event) (m : Addr) :
    live (tr ++ [.released m]) = (live tr).erase m := by simp [live]

@[simp] theorem live_posted (tr : List Event) (s : Send) :
    live (tr ++ [.posted s]) = live tr := by simp [live]

@[simp] theorem live_gathered (tr : List Event) (c : UInt16) (m : Addr) :
    live (tr ++ [.gathered c m]) = live tr := by simp [live]

@[simp] theorem live_freed (tr : List Event) (m : Addr) :
    live (tr ++ [.freed m]) = live tr := by simp [live]

@[simp] theorem live_refcntZero (tr : List Event) (index : UInt64) :
    live (tr ++ [.refcntZero index]) = live tr := by simp [live]

/-- Several mbufs are made one after the other. -/
theorem live_map_created (tr : List Event) (ms : List Addr) :
    (live (tr ++ ms.map .created)).Perm (ms ++ live tr) := by
  induction ms generalizing tr with
  | nil => simp
  | cons m ms ih =>
    have hrest := ih (tr ++ [.created m])
    -- `live` puts the newest mbuf in front
    rw [live_created, List.append_assoc, List.singleton_append] at hrest
    exact hrest.trans List.perm_middle

end Event

variable {cfg : Config} {st₀ st st' : State}

/-- The cell of the segment that the mbuf at `a` was made for. -/
def heldCell (cfg : Config) (heap : Heap) (a : Addr) : ℕ × ℕ := refcntCell cfg (heap a).releaseData

/-- Since `st₀` each count grew by the number of live mbufs that hold its cell,
and the pool lacks exactly the live mbufs. -/
structure CountsLive (cfg : Config) (st₀ st : State) : Prop where
  capacity : st.mbufMempool.capacity = st₀.mbufMempool.capacity
  allocated : st.mbufMempool.allocated =
    st₀.mbufMempool.allocated + (Event.live st.trace).length
  pool : (Event.live st.trace ++ st.mbufMempool.freeList).Perm st₀.mbufMempool.freeList
  counts : ∀ cell, st.workingSetRefcnts cell.1 cell.2 = st₀.workingSetRefcnts cell.1 cell.2 +
    UInt16.ofNat (((Event.live st.trace).map (heldCell cfg st.heap)).count cell)

namespace CountsLive

theorem init (htrace : st₀.trace = []) : CountsLive cfg st₀ st₀ := by
  constructor
  case capacity => rfl
  case allocated => simp [htrace, Event.live]
  case pool => simp [htrace, Event.live]
  case counts =>
    intro cell
    rw [htrace]
    exact (UInt16.add_zero _).symm

/-- Whatever leaves the pool, the counts and the live mbufs alone. -/
theorem congr (h : CountsLive cfg st₀ st) (hpool : st'.mbufMempool = st.mbufMempool)
    (hrefcnts : st'.workingSetRefcnts = st.workingSetRefcnts)
    (hlive : Event.live st'.trace = Event.live st.trace)
    (hheld : ∀ a ∈ Event.live st.trace, heldCell cfg st'.heap a = heldCell cfg st.heap a) :
    CountsLive cfg st₀ st' := by
  constructor
  case capacity => rw [hpool, h.capacity]
  case allocated => rw [hpool, hlive, h.allocated]
  case pool =>
    rw [hpool, hlive]
    exact h.pool
  case counts =>
    intro cell
    rw [hrefcnts, hlive, h.counts, List.map_congr_left hheld]

/-- The live mbufs and the free ones are all different. -/
theorem nodup (h : CountsLive cfg st₀ st) (hnodup : st₀.mbufMempool.freeList.Nodup) :
    (Event.live st.trace ++ st.mbufMempool.freeList).Nodup := h.pool.nodup_iff.mpr hnodup

theorem mem_pool (h : CountsLive cfg st₀ st) {a : Addr} (ha : a ∈ Event.live st.trace) :
    a ∈ st₀.mbufMempool.freeList := h.pool.mem_iff.mp (List.mem_append_left _ ha)

theorem not_free (h : CountsLive cfg st₀ st) (hnodup : st₀.mbufMempool.freeList.Nodup) {a : Addr}
    (ha : a ∈ Event.live st.trace) : a ∉ st.mbufMempool.freeList :=
  fun hfree => (List.nodup_append.mp (h.nodup hnodup)).2.2 a ha a hfree rfl

/-! ## Releasing -/

/-- While an mbuf is live the pool's counter is in range. -/
theorem allocated_pos (h : CountsLive cfg st₀ st) {a : Addr} (ha : a ∈ Event.live st.trace) :
    0 < st.mbufMempool.allocated ∧ st.mbufMempool.allocated ≤ st.mbufMempool.capacity := by
  have hlength := h.pool.length_eq
  have hpos := List.length_pos_of_mem ha
  have hallocated := h.allocated
  have hcapacity := h.capacity
  rw [List.length_append, Mempool.length_freeList, Mempool.length_freeList] at hlength
  -- the free list has `capacity - allocated` entries
  omega

/-- The trace of one round of the release. -/
theorem live_zeroCopyTxCompletionStep (cfg : Config) (a : Addr) (st : State) :
    Event.live (zeroCopyTxCompletionStep cfg a st).trace = (Event.live st.trace).erase a := by
  simp only [zeroCopyTxCompletionStep]
  split
  · split <;> simp [serverChangeRefcnt, Event.live]
  · simp

/-- **Releasing a live mbuf** takes its reference away. -/
theorem release (h : CountsLive cfg st₀ st) (hcounting : cfg.usingRefCounting = true)
    (hcapacity : st₀.mbufMempool.capacity < 2 ^ 64) {a : Addr} (ha : a ∈ Event.live st.trace) :
    CountsLive cfg st₀ (zeroCopyTxCompletionStep cfg a st) := by
  obtain ⟨hpos, hle⟩ := h.allocated_pos ha
  obtain ⟨hmbufs, -, -⟩ := zeroCopyTxCompletionStep_pools cfg a st
  obtain ⟨tail, hreleased⟩ := zeroCopyTxCompletionStep_released cfg a st
  have hperm := List.perm_cons_erase ha
  have hlive := live_zeroCopyTxCompletionStep cfg a st
  constructor
  case capacity => rw [hmbufs, mempoolFree_capacity, h.capacity]
  case allocated =>
    -- the subtraction of the pool does not wrap: something is allocated
    have hlength := hperm.length_eq
    have hallocated := h.allocated
    have hsub : (mempoolFree st.mbufMempool a).allocated = st.mbufMempool.allocated - 1 := by
      refine WordArith.sizeSub_of_le hpos ?_
      rw [h.capacity] at hle
      omega
    rw [List.length_cons] at hlength
    rw [hmbufs, hlive, hsub]
    omega
  case pool =>
    rw [hmbufs, hlive, freeList_mempoolFree a hpos hle (h.capacity ▸ hcapacity)]
    exact (List.perm_middle.trans (hperm.symm.append_right _)).trans h.pool
  case counts =>
    intro cell
    -- the mbuf holds the cell that the release takes one from
    have hrefcnts := zeroCopyTxCompletionStep_refcnts cfg a st
    rw [if_pos hcounting] at hrefcnts
    have hcount := (hperm.map (heldCell cfg st.heap)).count_eq cell
    rw [List.map_cons, ← List.singleton_append, List.count_append] at hcount
    rw [hrefcnts, dropRefcnt_apply, h.counts, hlive, hreleased.keeps.heap, hcount, UInt16.ofNat_add,
      heldCell]
    grind

/-- **Releasing a chain of live mbufs** takes all its references away. -/
theorem release_chain {nodes rest : List Addr} (h : CountsLive cfg st₀ st)
    (hcounting : cfg.usingRefCounting = true) (hcapacity : st₀.mbufMempool.capacity < 2 ^ 64)
    (hlive : (Event.live st.trace).Perm (nodes ++ rest)) :
    CountsLive cfg st₀ (nodes.foldl (fun s a => zeroCopyTxCompletionStep cfg a s) st) ∧
      (Event.live (nodes.foldl (fun s a => zeroCopyTxCompletionStep cfg a s) st).trace).Perm rest := by
  induction nodes generalizing st with
  | nil => exact ⟨h, hlive⟩
  | cons a nodes ih =>
    have ha : a ∈ Event.live st.trace := hlive.mem_iff.mpr (List.mem_cons_self ..)
    have hrest := hlive.erase a
    rw [List.cons_append, List.erase_cons_head, ← live_zeroCopyTxCompletionStep cfg a st] at hrest
    -- the rest of the chain is released from a state without the first mbuf
    exact ih (h.release hcounting hcapacity ha) hrest

end CountsLive

/-! ## Making -/

/-- An increment adds one to the count of its cell. -/
theorem bumpRefcnt_apply (cfg : Config) (refcnts : ℕ → ℕ → UInt16) (segment : UInt64)
    (cell : ℕ × ℕ) : bumpRefcnt cfg refcnts segment cell.1 cell.2 =
      refcnts cell.1 cell.2 + UInt16.ofNat ([refcntCell cfg segment].count cell) := by
  by_cases h : cell = refcntCell cfg segment
  · subst h
    rw [List.count_singleton_self]
    exact if_pos ⟨rfl, rfl⟩
  -- any other cell is as it was
  · have hcount : [refcntCell cfg segment].count cell = 0 :=
      List.count_eq_zero.mpr fun hmem => h (List.mem_singleton.mp hmem)
    rw [hcount, bumpRefcnt_of_ne h]
    exact (UInt16.add_zero _).symm

/-- Several increments. -/
theorem foldl_bumpRefcnt_apply (cfg : Config) (segments : List UInt64)
    (refcnts : ℕ → ℕ → UInt16) (cell : ℕ × ℕ) :
    segments.foldl (bumpRefcnt cfg) refcnts cell.1 cell.2 =
      refcnts cell.1 cell.2 + UInt16.ofNat ((segments.map (refcntCell cfg)).count cell) := by
  induction segments generalizing refcnts with
  | nil => exact (UInt16.add_zero _).symm
  | cons segment segments ih =>
    have hcount : ((segment :: segments).map (refcntCell cfg)).count cell =
        [refcntCell cfg segment].count cell + (segments.map (refcntCell cfg)).count cell := by
      rw [List.map_cons, ← List.singleton_append, List.count_append]
    rw [List.foldl_cons, ih, bumpRefcnt_apply, hcount, UInt16.ofNat_add, UInt16.add_assoc]

section Making

variable {pktIdx : ℕ} {requests : List Addr} {replies : List (Addr × List Addr)}

/-- The mbufs of a batch hold the segments that were requested. -/
theorem ZeroCopyBatch.map_releaseData (hcounting : cfg.usingRefCounting = true)
    (h : ZeroCopyBatch cfg pktIdx requests st replies st') :
    (replies.flatMap Prod.snd).map (fun a => (st'.heap a).releaseData) =
      requests.flatMap (requestedSegments cfg st) := by
  have hlists := h.lists
  clear h
  induction hlists with
  | nil => rfl
  | cons hlist _ ih =>
    have hholds : ∀ {nodes : List Addr} {segments : List UInt64},
        List.Forall₂ (fun a segment => HoldsSegment cfg segment (st'.heap a)) nodes segments →
          nodes.map (fun a => (st'.heap a).releaseData) = segments := by
      intro nodes segments hall
      induction hall with
      | nil => rfl
      | cons hfirst _ ihall => rw [List.map_cons, ihall, hfirst.releaseData hcounting]
    rw [List.flatMap_cons, List.map_append, ih, hholds hlist.holds, List.flatMap_cons]

/-- **Building a batch of replies** adds the references of its mbufs. -/
theorem CountsLive.build (h : CountsLive cfg st₀ st) (hcounting : cfg.usingRefCounting = true)
    (hnodup : st₀.mbufMempool.freeList.Nodup)
    (hbatch : ZeroCopyBatch cfg pktIdx requests st replies st') : CountsLive cfg st₀ st' := by
  have hlive := Event.live_map_created st.trace (replies.flatMap Prod.snd)
  rw [← hbatch.trace] at hlive
  -- the mbufs that were live before are none of the new ones
  have hold : ∀ a ∈ Event.live st.trace, heldCell cfg st'.heap a = heldCell cfg st.heap a := by
    intro a ha
    have hnew : a ∉ replies.flatMap Prod.snd := fun hmem => by
      refine h.not_free hnodup ha ?_
      rw [hbatch.pool]
      exact List.mem_append_left _ hmem
    rw [heldCell, heldCell, hbatch.frame a hnew]
  constructor
  case capacity => rw [hbatch.capacity, h.capacity]
  case allocated =>
    rw [hbatch.allocated, h.allocated, hlive.length_eq, List.length_append]
    omega
  case pool =>
    have hpool := h.pool
    rw [hbatch.pool, ← List.append_assoc] at hpool
    exact ((hlive.trans List.perm_append_comm).append_right _).trans hpool
  case counts =>
    intro cell
    -- the counts grow by the segments that were requested, which the new mbufs hold
    have hcells : (replies.flatMap Prod.snd).map (heldCell cfg st'.heap) =
        (requests.flatMap (requestedSegments cfg st)).map (refcntCell cfg) := by
      rw [← hbatch.map_releaseData hcounting, List.map_map]
      rfl
    have hcount := (hlive.map (heldCell cfg st'.heap)).count_eq cell
    rw [List.map_append, List.count_append, hcells, List.map_congr_left hold] at hcount
    rw [hbatch.refcnts, if_pos hcounting, foldl_bumpRefcnt_apply, h.counts, hcount,
      UInt16.ofNat_add]
    grind

end Making

end Mlx5Netperf
