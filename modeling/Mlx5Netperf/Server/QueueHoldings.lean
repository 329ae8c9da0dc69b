import Mlx5Netperf.Server.Holdings

/-!
# Holdings Along the Send Queue

A chain keeps what it holds while it waits to be sent and while it is outstanding,
and gives it back when its completion is gathered. Completions, posting and
`mlx5_transmit_one` as a whole move holdings from one place to the next.
-/

namespace Mlx5Netperf

open SendFifo

/-- The chains in the queue and those that start at `heads`, still to be sent, hold
together what the pools lack. -/
def QueueHolds (cfg : Config) (I : Holding) (taken received : ℕ) (own heads : List Addr)
    (st : State) (q : SendFifo) : Prop :=
  ∃ pend out rest, List.Forall₂ (Holds cfg st.heap) q.pending pend ∧
    List.Forall₂ (Carries cfg st.heap) q.outstanding out ∧
    List.Forall₂ (Holds cfg st.heap) heads rest ∧ HeldBy I st taken received own (pend ++ out ++ rest)

namespace QueueHolds

variable {cfg : Config} {fuel reported ret : ℕ} {I : Holding} {st st' : State}
  {taken received : ℕ} {own heads : List Addr} {q q' : SendFifo} {m : Addr}
  {requestHeader : Option RequestHeader} {inlineLen : ℕ}

/-- **Completions** give back what the gathered chains hold. -/
theorem keptByCompletions (cfg : Config) (fuel reported : ℕ) (I : Holding) (taken received : ℕ)
    (own heads : List Addr) :
    KeptByCompletions cfg fuel reported (QueueHolds cfg I taken received own heads) where
  gather := by
    rintro st p s sends pending - ⟨pend, out, rest, hpend, hout, hrest, hheld⟩
    obtain ⟨x, out, hfirst, hlater, rfl⟩ := List.forall₂_cons_left_iff.mp hout
    -- a gathered chain changes from outstanding to pending with what it holds
    refine ⟨pend ++ [x], out, rest, List.rel_append hpend (.cons hfirst.holds .nil), hlater, hrest, ?_⟩
    refine hheld.congr rfl rfl rfl rfl (.refl _) ?_ fun _ _ hreceived => hreceived
    rw [List.append_assoc pend [x] out, List.singleton_append]
  free := by
    rintro st st' p outstanding m pending - ⟨pend, out, rest, hpend, hout, hrest, hheld⟩ hfree
    obtain ⟨x, pend, hfirst, hlater, rfl⟩ := List.forall₂_cons_left_iff.mp hpend
    have hheap := mbufFree_heap hfree
    refine ⟨pend, out, rest, by rwa [hheap], by rwa [hheap], by rwa [hheap], ?_⟩
    exact hheld.free hfirst hfree
  txq := by
    rintro st q v ⟨pend, out, rest, hpend, hout, hrest, hheld⟩
    refine ⟨pend, out, rest, hpend, hout, hrest, ?_⟩
    exact hheld.congr rfl rfl rfl rfl (.refl _) (.refl _) fun _ _ hreceived => hreceived

/-- The blocks that a chain takes are enough for four mbufs each. -/
theorem carries_sendWqes {x : Holding} {heap : Heap} {outstanding : List Send}
    (hlegal : LegalSend fuel heap outstanding m requestHeader inlineLen)
    (hholds : Holds cfg heap m x) :
    x.mbufs.length ≤ 4 * (sendWqes heap m inlineLen).toNat := by
  obtain ⟨nodes, hchain, hlength, -⟩ := hlegal.chain
  obtain rfl := hchain.unique hholds.chain
  have hwqes : (sendWqes heap m inlineLen).toNat =
      wqeBlocks inlineLen (heap m).nbSegs.toNat :=
    (numWqes_toNat hlegal.inlineLen_ok _ hlegal.range).2
  rw [List.length_append] at hlength
  rw [hwqes, wqeBlocks, ← hlength]
  omega

/-- **Posting** puts the next chain behind the outstanding ones. -/
theorem post (h : QueueHolds cfg I taken received own (m :: heads) st q)
    (hlegal : LegalSend fuel st.heap q.outstanding m requestHeader inlineLen)
    (hposted : Posted fuel reported st q m requestHeader inlineLen st' q') :
    QueueHolds cfg I taken received own heads st' q' := by
  obtain ⟨pend, out, rest, hpend, hout, hrest, hheld⟩ := h
  obtain ⟨x, rest, hfirst, hlater, rfl⟩ := List.forall₂_cons_left_iff.mp hrest
  obtain ⟨stores, -, rfl⟩ := hposted.fill
  -- of all mbufs `num_wqes` of the first is written
  have hsame : ∀ a, st.heap.SameAt ({ st with mem := st.mem.stores stores }.push m
      (numWqes (numUnits inlineLen (st.heap m).nbSegs))).heap a :=
    fun a => Heap.sameButWqes_modify st.heap m _ a
  have hnew : Carries cfg ({ st with mem := st.mem.stores stores }.push m
      (numWqes (numUnits inlineLen (st.heap m).nbSegs))).heap
        ⟨m, st.txq.sqHead, sendWqes st.heap m inlineLen⟩ x :=
    ⟨hfirst.congr fun a _ => hsame a, carries_sendWqes hlegal hfirst⟩
  rw [hposted.queue]
  refine ⟨pend, out ++ [x], rest, holds_congr hpend fun _ _ a _ => hsame a,
    List.rel_append (carries_congr hout fun _ _ a _ => hsame a) (.cons hnew .nil),
    holds_congr hlater fun _ _ a _ => hsame a, ?_⟩
  refine hheld.congr rfl rfl rfl rfl (.refl _) ?_ fun a _ hreceived => ?_
  · simp
  · exact hreceived.sameButWqes (Heap.sameButWqes_modify st.heap m _)

/-- **`mlx5_transmit_one`** keeps what the pools lack with the chains: a chain that
is sent is among the outstanding ones, one that is refused is still to be sent. -/
theorem transmit (h : QueueHolds cfg I taken received own (m :: heads) st q)
    (hq : SendInv fuel reported st.txq st.heap st.trace q) (hpending : q.pending = [])
    (hlegal : LegalSend fuel st.heap q.outstanding m requestHeader inlineLen)
    (hcall : mlx5TransmitOne cfg fuel st m requestHeader inlineLen = some (ret, st')) :
    ∃ q', SendInv fuel reported st'.txq st'.heap st'.trace q' ∧ q'.pending = [] ∧
      QueueHolds cfg I taken received own (if ret = 1 then heads else m :: heads) st' q' := by
  have hkept := fun heads => keptByCompletions cfg fuel reported I taken received own heads
  obtain ⟨ret', st'', q', hcall', hq', hpending', hcase⟩ := mlx5TransmitOne_spec cfg hq hpending hlegal
  obtain ⟨rfl, rfl⟩ := Prod.mk.inj (Option.some.inj (hcall.symm.trans hcall'))
  refine ⟨q', hq', hpending', ?_⟩
  rcases hcase with ⟨rfl, hcompletes⟩ | ⟨rfl, st₁, q₁, st₂, q₂, hbefore, hpending₁, hposted, hafter⟩
  · -- refused
    exact hcompletes.kept (hkept (m :: heads)) h
  · -- sent, between two rounds of completions
    have hlegal₁ : LegalSend fuel st₁.heap q₁.outstanding m requestHeader inlineLen := by
      rw [hbefore.same.heap]
      exact hlegal.mono (.refl _) fun s hs => .inl (hbefore.sub s hs)
    have hheld := hbefore.kept (hkept (m :: heads)) h
    exact hafter.kept (hkept heads) (hheld.post hlegal₁ hposted)

end QueueHolds

/-! ## Between two calls -/

/-- What the queue and the chains that start at `heads` hold when no completed chain
waits for its release. -/
def ChainsHold (cfg : Config) (I : Holding) (taken received : ℕ) (own heads : List Addr)
    (st : State) : Prop :=
  ∃ out rest, List.Forall₂ (Carries cfg st.heap) (Event.outstanding st.trace) out ∧
    List.Forall₂ (Holds cfg st.heap) heads rest ∧ HeldBy I st taken received own (out ++ rest)

/-- The items of the pools are different ones, and no mbuf is a receive buffer. -/
structure Holding.Distinct (I : Holding) : Prop where
  mbufs : I.mbufs.Nodup
  buffers : I.buffers.Nodup
  packets : I.packets.Nodup
  apart : ∀ a ∈ I.mbufs, a ∉ I.packets

section Between

variable {cfg : Config} {fuel reported : ℕ} {I x : Holding} {st st' : State} {taken received : ℕ}
  {own own' heads heads' : List Addr} {q : SendFifo} {a : Addr} {hs : List Holding}

theorem queueHolds_iff (hq : SendInv fuel reported st.txq st.heap st.trace q)
    (hpending : q.pending = []) : QueueHolds cfg I taken received own heads st q ↔
      ChainsHold cfg I taken received own heads st := by
  rw [ChainsHold, hq.run.outstanding_eq]
  constructor
  · rintro ⟨pend, out, rest, hpend, hout, hrest, hheld⟩
    rw [hpending, List.forall₂_nil_left_iff] at hpend
    obtain rfl := hpend
    exact ⟨out, rest, hout, hrest, hheld⟩
  · rintro ⟨out, rest, hout, hrest, hheld⟩
    exact ⟨[], out, rest, by rw [hpending]; exact .nil, hout, hrest, hheld⟩

/-- What a chain holds is neither free nor with the program. -/
theorem HeldBy.apart (h : HeldBy I st taken received own hs) (hI : I.Distinct) (hx : x ∈ hs)
    (ha : a ∈ x.mbufs ++ x.packets) : a ∉ st.mbufMempool.freeList ∧ a ∉ own ∧
      a ∉ st.rxBufMempool.freeList := by
  obtain ⟨ring, counters, hinv⟩ := h.packets
  have hitems : ∀ b, b ∈ own ∨ b ∈ st.rxBufMempool.freeList → b ∈ I.packets := by
    intro b hb
    refine hinv.conserved.mem_iff.mp ?_
    simp only [List.mem_append]
    tauto
  have hnodup := hinv.conserved.nodup_iff.mpr hI.packets
  rcases List.mem_append.mp ha with hmbuf | hpacket
  · -- an mbuf is none of the receive buffers
    have hout : a ∈ hs.flatMap Holding.mbufs := List.mem_flatMap.mpr ⟨x, hx, hmbuf⟩
    have hnot := hI.apart a (h.mbufs.mem_items hout)
    exact ⟨h.mbufs.not_free hI.mbufs hout, fun hb => hnot (hitems a (.inl hb)),
      fun hb => hnot (hitems a (.inr hb))⟩
  · have hout : a ∈ hs.flatMap Holding.packets := List.mem_flatMap.mpr ⟨x, hx, hpacket⟩
    have hpackets : a ∈ I.packets := by
      refine hinv.conserved.mem_iff.mp ?_
      simp only [List.mem_append]
      tauto
    rw [List.nodup_append] at hnodup
    obtain ⟨-, hhands, hdisjoint⟩ := hnodup
    refine ⟨fun hfree => hI.apart a (h.mbufs.free_mem_items hfree) hpackets, fun hown => ?_,
      fun hfree => ?_⟩
    · exact (List.nodup_append.mp hhands).2.2 a hown a hout rfl
    · exact hdisjoint a (List.mem_append_left _ hfree) a (List.mem_append_right _ hout) rfl

/-- Each outstanding chain is one of the holdings. -/
theorem ChainsHold.exists_heldBy (h : ChainsHold cfg I taken received own heads st) :
    ∃ hs, HeldBy I st taken received own hs ∧ ∀ s ∈ Event.outstanding st.trace, ∀ nodes,
      st.heap.IsChain (some s.mbuf) nodes → ∃ x ∈ hs, nodes = x.mbufs ++ x.packets := by
  obtain ⟨out, rest, hcarries, -, hheld⟩ := h
  refine ⟨out ++ rest, hheld, fun s hs nodes hchain => ?_⟩
  obtain ⟨i, hi, rfl⟩ := List.mem_iff_getElem.mp hs
  have hlt : i < out.length := hcarries.length_eq ▸ hi
  have hholds := (hcarries.get hi hlt).holds
  rw [List.get_eq_getElem, List.get_eq_getElem] at hholds
  exact ⟨out[i], List.mem_append_left _ (List.getElem_mem hlt), hchain.unique hholds.chain⟩

/-- Whatever leaves the send queue and what the chains hold alone is the rest of the
program for the send ring. -/
theorem ChainsHold.appStep (h : ChainsHold cfg I taken received own heads st)
    (htxq : st'.txq = st.txq) (htrace : st'.trace = st.trace)
    (hsame : ∀ hs, HeldBy I st taken received own hs →
      ∀ x ∈ hs, ∀ a ∈ x.mbufs ++ x.packets, st'.heap a = st.heap a) : SendRun.AppStep st st' := by
  obtain ⟨hs, hheld, hchains⟩ := h.exists_heldBy
  refine ⟨htxq, ⟨[], by rw [htrace, List.append_nil], by simp⟩, fun s hs' nodes hchain a ha => ?_⟩
  obtain ⟨x, hx, rfl⟩ := hchains s hs' nodes hchain
  exact hsame hs hheld x hx a ha

/-- Whatever leaves the outstanding sends and what the chains hold alone. -/
theorem ChainsHold.congr (h : ChainsHold cfg I taken received own heads st)
    {taken' received' : ℕ} (hout : Event.outstanding st'.trace = Event.outstanding st.trace)
    (hheld : ∀ hs, HeldBy I st taken received own hs →
      HeldBy I st' taken' received' own' hs ∧
        ∀ x ∈ hs, ∀ a ∈ x.mbufs ++ x.packets, st'.heap a = st.heap a) :
    ChainsHold cfg I taken' received' own' heads st' := by
  obtain ⟨out, rest, hcarries, hholds, hboth⟩ := h
  obtain ⟨hboth', hsame⟩ := hheld _ hboth
  refine ⟨out, rest, ?_, ?_, hboth'⟩
  · rw [hout]
    exact carries_congr hcarries fun x hx a ha => .of_eq (hsame x (List.mem_append_left _ hx) a ha)
  · exact holds_congr hholds fun x hx a ha => .of_eq (hsame x (List.mem_append_right _ hx) a ha)

/-- The packets of the program in another order. -/
theorem ChainsHold.perm (h : ChainsHold cfg I taken received own heads st) (hown : own.Perm own') :
    ChainsHold cfg I taken received own' heads st :=
  h.congr rfl fun _ hheld => ⟨hheld.perm hown (.refl _), fun _ _ _ _ => rfl⟩

/-- **New chains** behind the outstanding ones. -/
theorem ChainsHold.extend (h : ChainsHold cfg I taken received own [] st) {new : List Holding}
    (hout : Event.outstanding st'.trace = Event.outstanding st.trace)
    (hheld : ∀ hs, HeldBy I st taken received own hs →
      HeldBy I st' taken received own' (hs ++ new) ∧
        ∀ x ∈ hs, ∀ a ∈ x.mbufs ++ x.packets, st'.heap a = st.heap a)
    (hnew : List.Forall₂ (Holds cfg st'.heap) heads' new) :
    ChainsHold cfg I taken received own' heads' st' := by
  obtain ⟨out, rest, hcarries, hholds, hboth⟩ := h
  rw [List.forall₂_nil_left_iff] at hholds
  subst hholds
  rw [List.append_nil] at hboth
  obtain ⟨hboth', hsame⟩ := hheld _ hboth
  refine ⟨out, new, ?_, hnew, hboth'⟩
  rw [hout]
  exact carries_congr hcarries fun x hx a ha => .of_eq (hsame x hx a ha)

end Between

end Mlx5Netperf
