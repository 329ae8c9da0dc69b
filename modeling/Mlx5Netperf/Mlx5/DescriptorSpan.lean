import Mlx5Netperf.Mlx5.PostedDescriptor
import Mlx5Netperf.Mlx5.InlineHeader

/-!
# Where a Send Stores

Every byte that `mlx5_transmit_one` stores lies on the send ring, or in the 26 bytes
in front of it that a header inlined from the last block spills into.
-/

namespace Mlx5Netperf

open ByteMemory WordArith

/-- The bytes in front of the ring that an inlined header may spill into. -/
def inlineSpill : ℕ := 26

section Ring

variable {v : Mlx5Txq} {base n inlineLen : ℕ} {s : Store}

/-- The control and the Ethernet segment lie in the block of the descriptor. -/
theorem RingAt.segStores_within (h : RingAt v base n) (hsmall : 64 * n < 2 ^ 32) {units : Int32}
    (hs : s ∈ ctrlSegStores v (Mlx5Netperf.getSegment v v.currentIdx) units ++
      ethSegStores (Mlx5Netperf.getSegment v v.currentIdx + sizeofCtrlSeg) inlineLen) :
    s.Within base (64 * n) := by
  have hslot := h.slot_lt
  have hblock : s.Within (base + 64 * v.slot) 48 := by
    simp only [h.getSegment_eq hsmall, ctrlSegStores, ethSegStores, sizeofCtrlSeg, sizeofEthSeg,
      List.mem_append, List.mem_cons, List.not_mem_nil, or_false] at hs
    rcases hs with (rfl | rfl | rfl | rfl | rfl) | (rfl | rfl | rfl) <;>
      constructor <;> simp <;> omega
  obtain ⟨hlo, hhi⟩ := hblock
  exact ⟨by omega, by omega⟩

/-- The inlined header lies on the ring or in front of it. -/
theorem RingAt.inlineStores_within (h : RingAt v base n) (hsmall : 64 * n < 2 ^ 32)
    (hfront : inlineSpill ≤ base) {header : RequestHeader} (hs : s ∈ inlineStores v header) :
    s.Within (base - inlineSpill) (64 * n + inlineSpill) := by
  have hslot := h.slot_lt
  have hbound := h.bound
  have hspill : sizeAdd base (2 ^ 64 - 26) = base - inlineSpill := by
    unfold sizeAdd inlineSpill at *
    omega
  unfold inlineSpill at *
  rcases Nat.eq_or_lt_of_le (Nat.succ_le_of_lt hslot) with hlast | hinside
  · rw [h.inlineStores_last hsmall hlast, hspill] at hs
    simp only [List.mem_cons, List.not_mem_nil, or_false] at hs
    rcases hs with rfl | rfl | rfl | rfl | rfl <;> constructor <;> simp <;> omega
  · rw [h.inlineStores_inside hsmall hinside] at hs
    obtain ⟨hlo, hhi⟩ := bounds_of_mem_consecutive hs
    rw [header.flatten_wirePieces, header.length_wireBytes] at hhi
    exact ⟨by omega, by omega⟩

/-- The data segments lie on the ring. -/
theorem RingAt.dpsegListStores_within (h : RingAt v base n) (hsmall : 64 * n < 2 ^ 32)
    (hil : InlineLenOk inlineLen) {heap : Heap} {nodes : List Addr}
    (hs : s ∈ dpsegListStores v heap nodes (Mlx5Netperf.dpsegStart v inlineLen)) :
    s.Within base (64 * n) := by
  have hpos := h.pos
  rw [h.dpsegListStores_start hsmall hil] at hs
  obtain ⟨i, -, hlo, hhi⟩ := unit_of_mem_unitStores hs
  have hunit := Nat.mod_lt (4 * v.slot + hdrUnits inlineLen + i) (show 0 < 4 * n by omega)
  unfold unitAddr at hlo hhi
  exact ⟨by omega, by omega⟩

/-- **The stores of a descriptor.** -/
theorem RingAt.descriptorStores_within (h : RingAt v base n) (hsmall : 64 * n < 2 ^ 32)
    (hfront : inlineSpill ≤ base) (hil : InlineLenOk inlineLen) {heap : Heap} {nodes : List Addr}
    {requestHeader : Option RequestHeader} {units : Int32}
    (hs : s ∈ descriptorStores v heap nodes requestHeader inlineLen units) :
    s.Within (base - inlineSpill) (64 * n + inlineSpill) := by
  have hring : s.Within base (64 * n) → s.Within (base - inlineSpill) (64 * n + inlineSpill) :=
    fun ⟨hlo, hhi⟩ => ⟨by omega, by omega⟩
  rcases List.mem_append.mp hs with hfrontPart | hdpsegs
  · rcases List.mem_append.mp hfrontPart with hsegs | hheader
    · exact hring (h.segStores_within hsmall hsegs)
    · unfold headerStores at hheader
      split at hheader
      · cases requestHeader with
        | none => simp at hheader
        | some header => exact h.inlineStores_within hsmall hfront hheader
      · simp at hheader
  · exact hring (h.dpsegListStores_within hsmall hil hdpsegs)

end Ring

section Transmit

variable {cfg : Config} {fuel reported ret base n : ℕ} {st st' : State} {q : SendFifo} {m : Addr}
  {requestHeader : Option RequestHeader} {inlineLen : ℕ}

/-- The ring stays where it is when only its counters and completions change. -/
theorem RingAt.congr {v v' : Mlx5Txq} (h : RingAt v base n) (hsq : v'.sq = v.sq)
    (hstride : v'.txSqLogStride = v.txSqLogStride) : RingAt v' base n :=
  ⟨hsq ▸ h.buf, hsq ▸ h.wqeCnt, h.pow, hsq ▸ h.stride, hstride ▸ h.logStride, h.bound⟩

/-- **A call of `mlx5_transmit_one`** stores on the ring and in front of it only. -/
theorem mlx5TransmitOne_agreeOn (h : SendInv fuel reported st.txq st.heap st.trace q)
    (hpending : q.pending = [])
    (hlegal : LegalSend fuel st.heap q.outstanding m requestHeader inlineLen)
    (hring : RingAt st.txq base n) (hfront : inlineSpill ≤ base)
    (hcall : mlx5TransmitOne cfg fuel st m requestHeader inlineLen = some (ret, st')) :
    RingAt st'.txq base n ∧ ∀ a k, RangesApart (base - inlineSpill) (64 * n + inlineSpill) a k →
      AgreeOn st.mem st'.mem a k := by
  have hsmall : 64 * n < 2 ^ 32 := by
    have hle := h.wqeCnt_le
    rw [hring.wqeCnt] at hle
    omega
  obtain ⟨ret', st'', q', hcall', -, -, hcase⟩ := mlx5TransmitOne_spec cfg h hpending hlegal
  obtain ⟨rfl, rfl⟩ := Prod.mk.inj (Option.some.inj (hcall.symm.trans hcall'))
  rcases hcase with ⟨-, hcompletes⟩ | ⟨-, st₁, q₁, st₂, q₂, hbefore, -, hposted, hafter⟩
  · have hsame := hcompletes.same
    refine ⟨hring.congr hsame.sq hsame.txSqLogStride, fun a k _ => ?_⟩
    rw [hsame.mem]
    exact .refl _ _ _
  · have hring₁ := hring.congr hbefore.same.sq hbefore.same.txSqLogStride
    obtain ⟨stores, hstores, hst₂⟩ := hposted.fill
    obtain ⟨nodes, hchain, -, hlen⟩ := hlegal.chain
    rw [← hbefore.same.heap] at hchain
    rw [segmentStores_eq _ hchain hlen hlegal.header] at hstores
    obtain rfl := Option.some.inj hstores
    refine ⟨?_, fun a k hapart => ?_⟩
    · refine hring₁.congr ?_ ?_
      · rw [hafter.same.sq, hst₂]
        rfl
      · rw [hafter.same.txSqLogStride, hst₂]
        rfl
    · rw [hafter.same.mem, hst₂, ← hbefore.same.mem]
      exact .stores (fun s hs => hring₁.descriptorStores_within hsmall hfront hlegal.inlineLen_ok hs)
        hapart

end Transmit

end Mlx5Netperf
