import Mlx5Netperf.Lib.ByteMemory
import Mlx5Netperf.Lib.NullTerminated

/-!
# Packet Buffers

`struct mbuf` of `inc/base/mbuf.h`. The structures live in a heap of their own,
addressed like the byte memory that their `data` pointers lead into: the
program never reads an mbuf's bytes as packet data.
-/

namespace Mlx5Netperf

/-- A pointer value. -/
abbrev Addr := UInt64

/-- The functions that are stored in `mbuf.release`. -/
inductive ReleaseFn where
  | zeroCopyTxCompletion
  | txCompletion
  | rxCompletion
  deriving DecidableEq, Repr

/-- `struct mbuf` -/
structure Mbuf where
  next : Option Addr
  head : Addr
  data : Addr
  headLen : UInt32
  len : UInt32
  nbSegs : UInt32
  pktLen : UInt32
  rssHash : UInt32
  releaseData : UInt64
  release : Option ReleaseFn
  numWqes : UInt64
  lkey : UInt32
  deriving DecidableEq, Repr

/-- The mbuf structures in memory. -/
abbrev Heap := Addr → Mbuf

/-- The nodes of the scatter list that starts at `p`. -/
abbrev Heap.IsChain (heap : Heap) (p : Option Addr) (nodes : List Addr) : Prop :=
  NullTerminated.IsChain (fun a => (heap a).next) p nodes

/-- `*m = f(*m)` -/
def Heap.modify (heap : Heap) (m : Addr) (f : Mbuf → Mbuf) : Heap :=
  Function.update heap m (f (heap m))

@[simp] theorem Heap.modify_self (heap : Heap) (m : Addr) (f : Mbuf → Mbuf) :
    heap.modify m f m = f (heap m) := by
  simp [Heap.modify]

theorem Heap.modify_of_ne {heap : Heap} {m a : Addr} (f : Mbuf → Mbuf) (h : a ≠ m) :
    heap.modify m f a = heap a := by
  simp [Heap.modify, h]

/-- Two changes of one mbuf are one change. -/
theorem Heap.modify_modify (heap : Heap) (m : Addr) (f g : Mbuf → Mbuf) :
    (heap.modify m f).modify m g = heap.modify m (g ∘ f) := by
  funext a
  by_cases h : a = m
  · simp [h]
  · simp [Heap.modify_of_ne _ h]

/-- A property that a change keeps holds after it of every mbuf it held of before. -/
theorem Heap.modify_keeps {P : Mbuf → Prop} {heap : Heap} {f : Mbuf → Mbuf} {a : Addr}
    (hf : ∀ b, P b → P (f b)) (h : P (heap a)) (m : Addr) : P (heap.modify m f a) := by
  by_cases ham : a = m
  · rw [ham, Heap.modify_self]
    exact hf _ (ham ▸ h)
  · rwa [Heap.modify_of_ne _ ham]

/-- Only `num_wqes` may differ at `a`. -/
def Heap.SameAt (heap heap' : Heap) (a : Addr) : Prop :=
  ∃ n, heap' a = { heap a with numWqes := n }

theorem Heap.SameAt.of_eq {heap heap' : Heap} {a : Addr} (h : heap' a = heap a) :
    heap.SameAt heap' a := ⟨(heap a).numWqes, h⟩

theorem Heap.SameAt.next {heap heap' : Heap} {a : Addr} (h : heap.SameAt heap' a) :
    (heap' a).next = (heap a).next := by
  obtain ⟨n, hn⟩ := h
  rw [hn]

theorem Heap.SameAt.trans {heap heap' heap'' : Heap} {a : Addr} (h : heap.SameAt heap' a)
    (h' : heap'.SameAt heap'' a) : heap.SameAt heap'' a := by
  obtain ⟨n, hn⟩ := h
  obtain ⟨n', hn'⟩ := h'
  exact ⟨n', by rw [hn', hn]⟩

/-- The heaps differ in the `num_wqes` fields at most. -/
def Heap.SameButWqes (heap heap' : Heap) : Prop :=
  ∀ a, ∃ n, heap' a = { heap a with numWqes := n }

theorem Heap.SameButWqes.refl (heap : Heap) : heap.SameButWqes heap := fun _ => ⟨_, rfl⟩

/-- Writing `num_wqes` of one mbuf. -/
theorem Heap.sameButWqes_modify (heap : Heap) (m : Addr) (n : UInt64) :
    heap.SameButWqes (heap.modify m fun b => { b with numWqes := n }) := by
  intro a
  by_cases h : a = m
  · exact ⟨n, by rw [h, Heap.modify_self]⟩
  · exact ⟨_, Heap.modify_of_ne _ h⟩

/-- Scatter lists do not depend on `num_wqes`. -/
theorem Heap.SameButWqes.isChain {heap heap' : Heap} (h : heap.SameButWqes heap')
    {p : Option Addr} {nodes : List Addr} (hchain : heap.IsChain p nodes) :
    heap'.IsChain p nodes := by
  refine hchain.congr fun a _ => ?_
  obtain ⟨n, hn⟩ := h a
  rw [hn]

/-- `mbuf_init` -/
def mbufInit (m : Mbuf) (head : Addr) (headLen reserveLen : UInt32) : Mbuf :=
  { m with head := head, headLen := headLen, data := head + reserveLen.toUInt64, len := 0 }

/-- `mbuf_data` -/
def mbufData (m : Mbuf) : Addr := m.data

/-- `mbuf_length` -/
def mbufLength (m : Mbuf) : UInt32 := m.len

/-- `mbuf_copy`: copy the `source` bytes to offset `off` and lengthen the data. -/
def mbufCopy (mem : ByteMemory) (m : Mbuf) (source : List UInt8) (off : ℕ) : ByteMemory × Mbuf :=
  (mem.store ⟨m.data.toNat + off, source⟩, { m with len := m.len + UInt32.ofNat source.length })

end Mlx5Netperf
