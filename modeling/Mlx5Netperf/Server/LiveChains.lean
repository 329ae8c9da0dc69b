import Mlx5Netperf.Server.LiveReferences
import Mlx5Netperf.Server.ReleasedRequests

/-!
# The Chains of the Live Mbufs

Every live mbuf is in one chain that is posted, completed or still to be sent, and
is released with that chain. The send queue keeps this through completions, and so
does building and posting a batch.
-/

namespace Mlx5Netperf

open SendFifo

/-! ## What a chain releases -/

/-- `nodes` are the mbufs of `pool` that are released with the chain that starts
at `m`. A packet that is sent back has none. -/
inductive ReleasedWith (pool : List Addr) (heap : Heap) (m : Addr) : List Addr → Prop where
  | scatterList {nodes : List Addr} (hrelease : (heap m).release = some .zeroCopyTxCompletion)
      (hchain : heap.IsChain (some m) nodes) : ReleasedWith pool heap m nodes
  | packet (hrelease : (heap m).release = some .rxCompletion) (hchain : heap.IsChain (some m) [m])
      (hapart : m ∉ pool) : ReleasedWith pool heap m []

theorem Heap.SameAt.heldCell {cfg : Config} {heap heap' : Heap} {a : Addr}
    (h : heap.SameAt heap' a) : heldCell cfg heap' a = heldCell cfg heap a := by
  obtain ⟨n, hn⟩ := h
  rw [Mlx5Netperf.heldCell, hn, Mlx5Netperf.heldCell]

theorem ReleasedWith.congr {pool : List Addr} {heap heap' : Heap} {m : Addr} {nodes : List Addr}
    (h : ReleasedWith pool heap m nodes) (hself : heap.SameAt heap' m)
    (hsame : ∀ a ∈ nodes, heap.SameAt heap' a) : ReleasedWith pool heap' m nodes := by
  have hrelease : (heap' m).release = (heap m).release := by
    obtain ⟨n, hn⟩ := hself
    rw [hn]
  -- a changed `num_wqes` is behind neither the release nor the links of a chain
  cases h with
  | scatterList hzero hchain =>
    exact .scatterList (hrelease.trans hzero)
      (NullTerminated.IsChain.congr hchain fun a ha => (hsame a ha).next)
  | packet hrx hchain hapart =>
    refine .packet (hrelease.trans hrx) (NullTerminated.IsChain.congr hchain fun a ha => ?_) hapart
    rw [List.mem_singleton.mp ha]
    exact hself.next

/-- The counts are right, each live mbuf is released with one of the chains that
start at `heads`, and it was made for one of the segments below `bound`. -/
structure LiveInChains (cfg : Config) (bound : ℕ) (st₀ st : State) (heads : List Addr) : Prop where
  counts : CountsLive cfg st₀ st
  chains : ∃ owned, List.Forall₂ (ReleasedWith st₀.mbufMempool.freeList st.heap) heads owned ∧
    (Event.live st.trace).Perm owned.flatten
  ids : ∀ a ∈ Event.live st.trace, (st.heap a).releaseData.toNat < bound

namespace LiveInChains

variable {cfg : Config} {bound fuel reported : ℕ} {st₀ st st' : State} {heads : List Addr} {m : Addr}

theorem init (htrace : st₀.trace = []) : LiveInChains cfg bound st₀ st₀ [] := by
  have hlive : Event.live st₀.trace = [] := by rw [htrace]; rfl
  constructor
  case counts => exact .init htrace
  case chains => exact ⟨[], .nil, by simp [hlive]⟩
  case ids => simp [hlive]

/-- What a chain releases is live. -/
theorem exists_releasedWith (h : LiveInChains cfg bound st₀ st heads) (hm : m ∈ heads) :
    ∃ nodes, ReleasedWith st₀.mbufMempool.freeList st.heap m nodes ∧
      ∀ a ∈ nodes, a ∈ Event.live st.trace := by
  obtain ⟨owned, hall, hlive⟩ := h.chains
  obtain ⟨i, hi, rfl⟩ := List.mem_iff_getElem.mp hm
  have hlt : i < owned.length := hall.length_eq ▸ hi
  have hfirst := hall.get hi hlt
  refine ⟨_, hfirst, fun a ha => hlive.mem_iff.mpr ?_⟩
  exact List.mem_flatten.mpr ⟨_, List.get_mem .., ha⟩

/-- A live mbuf is in one of the chains. -/
theorem exists_head (h : LiveInChains cfg bound st₀ st heads) {a : Addr}
    (ha : a ∈ Event.live st.trace) :
    ∃ m ∈ heads, ∃ nodes, st.heap.IsChain (some m) nodes ∧ a ∈ nodes := by
  obtain ⟨owned, hall, hlive⟩ := h.chains
  obtain ⟨nodes, hnodes, hmem⟩ := List.mem_flatten.mp (hlive.mem_iff.mp ha)
  obtain ⟨i, hi, rfl⟩ := List.mem_iff_getElem.mp hnodes
  have hlt : i < heads.length := hall.length_eq ▸ hi
  have hwith := hall.get hlt hi
  rw [List.get_eq_getElem, List.get_eq_getElem] at hwith
  refine ⟨heads[i], List.getElem_mem _, owned[i], ?_, hmem⟩
  generalize owned[i] = nodes at hwith hmem
  -- only the chains of the pool release anything
  cases hwith with
  | scatterList _ hchain => exact hchain
  | packet _ _ _ => exact absurd hmem List.not_mem_nil

/-- Chains that are left alone release what they released. -/
theorem releasedWith_congr {pool : List Addr} {owned : List (List Addr)}
    (hall : List.Forall₂ (ReleasedWith pool st.heap) heads owned)
    (hheads : ∀ a ∈ heads, st.heap.SameAt st'.heap a)
    (howned : ∀ a ∈ owned.flatten, st.heap.SameAt st'.heap a) :
    List.Forall₂ (ReleasedWith pool st'.heap) heads owned := by
  refine List.forall₂_iff_zip.mpr ⟨hall.length_eq, fun {m nodes} hmem => ?_⟩
  obtain ⟨hm, hnodes⟩ := List.of_mem_zip hmem
  exact ((List.forall₂_iff_zip.mp hall).2 hmem).congr (hheads m hm)
    fun a ha => howned a (List.mem_flatten.mpr ⟨nodes, hnodes, ha⟩)

/-- **New live mbufs** `owned'` in new chains behind the others. -/
theorem extend (h : LiveInChains cfg bound st₀ st heads) {heads' : List Addr}
    {owned' : List (List Addr)} (hcounts : CountsLive cfg st₀ st')
    (hlive : (Event.live st'.trace).Perm (owned'.flatten ++ Event.live st.trace))
    (hheads : ∀ a ∈ heads, st.heap.SameAt st'.heap a)
    (hold : ∀ a ∈ Event.live st.trace, st.heap.SameAt st'.heap a)
    (hall' : List.Forall₂ (ReleasedWith st₀.mbufMempool.freeList st'.heap) heads' owned')
    (hids : ∀ a ∈ owned'.flatten, (st'.heap a).releaseData.toNat < bound) :
    LiveInChains cfg bound st₀ st' (heads ++ heads') := by
  obtain ⟨owned, hall, hperm⟩ := h.chains
  constructor
  case counts => exact hcounts
  case chains =>
    refine ⟨owned ++ owned', List.rel_append ?_ hall', ?_⟩
    · exact releasedWith_congr hall hheads fun a ha => hold a (hperm.mem_iff.mpr ha)
    · rw [List.flatten_append]
      exact (hlive.trans (hperm.append_left _)).trans List.perm_append_comm
  case ids =>
    intro a ha
    -- an old mbuf holds the segment it held before
    rcases List.mem_append.mp (hlive.mem_iff.mp ha) with hnew | hlived
    · exact hids a hnew
    · obtain ⟨n, hn⟩ := hold a hlived
      rw [hn]
      exact h.ids a hlived

/-- Whatever leaves the pool, the counts, the live mbufs and the chains alone. -/
theorem congr (h : LiveInChains cfg bound st₀ st heads) (hpool : st'.mbufMempool = st.mbufMempool)
    (hrefcnts : st'.workingSetRefcnts = st.workingSetRefcnts)
    (hlive : Event.live st'.trace = Event.live st.trace)
    (hheads : ∀ a ∈ heads, st.heap.SameAt st'.heap a)
    (hold : ∀ a ∈ Event.live st.trace, st.heap.SameAt st'.heap a) :
    LiveInChains cfg bound st₀ st' heads := by
  have hcounts := h.counts.congr hpool hrefcnts hlive fun a ha => (hold a ha).heldCell
  have hextended := h.extend hcounts (by simp [hlive]) hheads hold
    (.nil : List.Forall₂ (ReleasedWith st₀.mbufMempool.freeList st'.heap) [] []) (by simp)
  rwa [List.append_nil] at hextended

/-! ## Completions -/

/-- **Freeing a chain** releases its live mbufs and takes their references away. -/
theorem free (h : LiveInChains cfg bound st₀ st (m :: heads))
    (hcounting : cfg.usingRefCounting = true) (hcapacity : st₀.mbufMempool.capacity < 2 ^ 64)
    (hfree : mbufFree cfg fuel st (some m) = some st') : LiveInChains cfg bound st₀ st' heads := by
  obtain ⟨owned, hall, hperm⟩ := h.chains
  obtain ⟨nodes, rest, hfirst, hrest, rfl⟩ := List.forall₂_cons_left_iff.mp hall
  have hheap := mbufFree_heap hfree
  have hlogged : CountsLive cfg st₀ (st.log (.freed m)) :=
    h.counts.congr rfl rfl (by simp) fun _ _ => rfl
  have hlived : (Event.live (st.log (.freed m)).trace).Perm (nodes ++ rest.flatten) := by
    simpa using hperm
  -- what is left is released with the chains behind
  suffices hafter : CountsLive cfg st₀ st' ∧ (Event.live st'.trace).Perm rest.flatten by
    constructor
    case counts => exact hafter.1
    case chains => exact ⟨rest, hheap ▸ hrest, hafter.2⟩
    case ids =>
      intro a ha
      rw [hheap]
      refine h.ids a (hperm.mem_iff.mpr ?_)
      exact List.mem_append_right _ (hafter.2.mem_iff.mp ha)
  -- the release function of the first mbuf decides what `mbuf_free` does
  cases mbufFree_cases hfree with
  | zeroCopy hrelease hchain hfold _ _ _ =>
    cases hfirst with
    | scatterList _ hchain' =>
      -- every mbuf of the list goes through `zero_copy_tx_completion`
      rw [hfold, hchain.unique hchain']
      exact hlogged.release_chain hcounting hcapacity hlived
    | packet hrx _ _ => simp [hrx] at hrelease
  -- no chain of this server has `tx_completion`
  | tx hrelease _ _ _ _ =>
    cases hfirst with
    | scatterList hzero _ => simp [hzero] at hrelease
    | packet hrx _ _ => simp [hrx] at hrelease
  | rx hrelease hst' =>
    cases hfirst with
    | scatterList hzero _ => simp [hzero] at hrelease
    | packet _ _ _ =>
      -- the packet goes back to the receive buffers, and no live mbuf with it
      rw [hst']
      exact ⟨hlogged.congr rfl rfl rfl fun _ _ => rfl, hlived⟩

/-- **Completions** keep the live mbufs in the chains of the send queue and in
those still to be sent. -/
theorem keptByCompletions (bound reported : ℕ) (rest : List Addr)
    (hcounting : cfg.usingRefCounting = true) (hcapacity : st₀.mbufMempool.capacity < 2 ^ 64) :
    KeptByCompletions cfg fuel reported fun st q =>
      LiveInChains cfg bound st₀ st (q.pending ++ q.outstanding.map Send.mbuf ++ rest) where
  gather := by
    intro st p s sends pending _ h
    -- a gathered chain changes from outstanding to pending and keeps its place
    have hheads : pending ++ (s :: sends).map Send.mbuf ++ rest =
        pending ++ [s.mbuf] ++ sends.map Send.mbuf ++ rest := by simp
    rw [hheads] at h
    exact h.congr rfl rfl (by simp [State.gather]) (fun _ _ => .of_eq rfl) fun _ _ => .of_eq rfl
  free := fun _ h hfree => h.free hcounting hcapacity hfree
  txq := fun _ h => h.congr rfl rfl rfl (fun _ _ => .of_eq rfl) fun _ _ => .of_eq rfl

/-! ## Sending -/

variable {requestHeader : Option RequestHeader} {inlineLen : ℕ} {rest : List Addr}

/-- Posting a chain moves it behind the outstanding ones. -/
theorem post {q q' : SendFifo}
    (h : LiveInChains cfg bound st₀ st (q.outstanding.map Send.mbuf ++ m :: rest))
    (hposted : Posted fuel reported st q m requestHeader inlineLen st' q') :
    LiveInChains cfg bound st₀ st' (q'.outstanding.map Send.mbuf ++ rest) := by
  obtain ⟨stores, -, rfl⟩ := hposted.fill
  have hheads : q'.outstanding.map Send.mbuf ++ rest = q.outstanding.map Send.mbuf ++ m :: rest := by
    simp [hposted.queue]
  -- of all mbufs `num_wqes` of the first is written
  have hsame : ∀ a, st.heap.SameAt ({ st with mem := st.mem.stores stores }.push m
      (numWqes (numUnits inlineLen (st.heap m).nbSegs))).heap a :=
    fun a => Heap.sameButWqes_modify st.heap m _ a
  rw [hheads]
  exact h.congr rfl rfl (by simp [State.push]) (fun a _ => hsame a) fun a _ => hsame a

/-- **`mlx5_transmit_one`** keeps every live mbuf in a chain that is outstanding or
still to be sent. -/
theorem transmit {q : SendFifo} {ret : ℕ}
    (h : LiveInChains cfg bound st₀ st (q.outstanding.map Send.mbuf ++ m :: rest))
    (hcounting : cfg.usingRefCounting = true) (hcapacity : st₀.mbufMempool.capacity < 2 ^ 64)
    (hq : SendInv fuel reported st.txq st.heap st.trace q) (hpending : q.pending = [])
    (hlegal : LegalSend fuel st.heap q.outstanding m requestHeader inlineLen)
    (hcall : mlx5TransmitOne cfg fuel st m requestHeader inlineLen = some (ret, st')) :
    LiveInChains cfg bound st₀ st' ((Event.outstanding st'.trace).map Send.mbuf ++
      if ret = 1 then rest else m :: rest) := by
  -- the chains still to be sent do not depend on whether this one is refused
  have hkept := fun rest => @keptByCompletions cfg fuel st₀ bound reported rest hcounting hcapacity
  obtain ⟨ret', st'', q', hcall', hq', hpending', hcase⟩ := mlx5TransmitOne_spec cfg hq hpending hlegal
  obtain ⟨rfl, rfl⟩ := Prod.mk.inj (Option.some.inj (hcall.symm.trans hcall'))
  rw [hq'.run.outstanding_eq]
  rcases hcase with ⟨rfl, hcompletes⟩ | ⟨rfl, st₁, q₁, st₂, q₂, hbefore, hpending₁, hposted, hafter⟩
  · -- refused
    have hlive := hcompletes.kept (hkept (m :: rest)) (by rwa [hpending, List.nil_append])
    rwa [hpending', List.nil_append] at hlive
  · -- sent
    have hlive₁ := hbefore.kept (hkept (m :: rest)) (by rwa [hpending, List.nil_append])
    rw [hpending₁, List.nil_append] at hlive₁
    have hpending₂ : q₂.pending = [] := by rw [hposted.queue, hpending₁]
    have hlive := hafter.kept (hkept rest) (by
      rw [hpending₂, List.nil_append]
      exact hlive₁.post hposted)
    rwa [hpending', List.nil_append] at hlive

end LiveInChains

end Mlx5Netperf
