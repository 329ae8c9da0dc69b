import Mlx5Netperf.Lib.ByteMoves
import Mlx5Netperf.Lib.WordArith
import Mlx5Netperf.Base.Mbuf
import Mathlib.Tactic.IntervalCases

/-!
# The Copy Behind `mbuf_copy`

`rte_memcpy_func` of `inc/base/rte_memcpy.h`: a copy by register moves, whose
choice depends on the number of bytes. The function is the list of its moves.
They never leave the two regions, and leave what one plain copy leaves.
-/

namespace Mlx5Netperf

open ByteMemory

/-! ## The moves -/

/-- `rte_mov16` -/
def rteMov16 (dst src : ℕ) : List Move := [⟨dst, src, 16⟩]

/-- `rte_mov32`: both registers are loaded before the first is stored. -/
def rteMov32 (dst src : ℕ) : List Move := [⟨dst, src, 32⟩]

/-- `rte_mov64`: four registers. -/
def rteMov64 (dst src : ℕ) : List Move := [⟨dst, src, 64⟩]

/-- `rte_mov128`: eight registers. -/
def rteMov128 (dst src : ℕ) : List Move := [⟨dst, src, 128⟩]

/-- `rte_mov256`: the second half is loaded after the first one is stored. -/
def rteMov256 (dst src : ℕ) : List Move :=
  rteMov128 dst src ++ rteMov128 (dst + 128) (src + 128)

/-- The pointers `dst` and `src` on the way, and the moves made so far. -/
structure CopyCursor where
  dst : ℕ
  src : ℕ
  moves : List Move

/-- Move `k` bytes and step both pointers behind them. -/
def CopyCursor.step (c : CopyCursor) (mov : ℕ → ℕ → List Move) (k : ℕ) : CopyCursor where
  dst := c.dst + k
  src := c.src + k
  moves := c.moves ++ mov c.dst c.src

/-- A move of one scalar of `k` bytes. -/
def scalarMove (k dst src : ℕ) : List Move := [⟨dst, src, k⟩]

/-- The branch for fewer than 16 bytes: a scalar for each bit of `n`. -/
def copyScalars (dst src n : ℕ) : List Move :=
  let c : CopyCursor := ⟨dst, src, []⟩
  let c := if n &&& 0x01 ≠ 0 then c.step (scalarMove 1) 1 else c
  let c := if n &&& 0x02 ≠ 0 then c.step (scalarMove 2) 2 else c
  let c := if n &&& 0x04 ≠ 0 then c.step (scalarMove 4) 4 else c
  -- the last scalar leaves the pointers where they are
  if n &&& 0x08 ≠ 0 then c.moves ++ scalarMove 8 c.dst c.src else c.moves

/-- `for ( ; n >= 256; n -= 256)` -/
def copyBlocks256 (c : CopyCursor) (n : ℕ) : CopyCursor × ℕ :=
  if 256 ≤ n then copyBlocks256 (c.step rteMov256 256) (n - 256) else (c, n)
termination_by n

/-- `switch (3 - (n >> shift))`: each case falls through to the next one. -/
def copyChunks (mov : ℕ → ℕ → List Move) (size shift : ℕ) : CopyCursor × ℕ → CopyCursor × ℕ
  | (c, n) =>
    let chunk : CopyCursor × ℕ → CopyCursor × ℕ := fun (c, n) => (c.step mov size, n - size)
    match WordArith.sizeSub 3 (n >>> shift) with
    | 0 => chunk (chunk (chunk (c, n)))
    | 1 => chunk (chunk (c, n))
    | 2 => chunk (c, n)
    | _ => (c, n)

/-- `rte_memcpy_func` -/
def rteMemcpyFunc (dst src n : ℕ) : List Move :=
  if n < 16 then copyScalars dst src n
  else if n ≤ 32 then rteMov16 dst src ++ rteMov16 (dst + n - 16) (src + n - 16)
  else if n ≤ 64 then rteMov32 dst src ++ rteMov32 (dst + n - 32) (src + n - 32)
  else if n ≤ 128 then rteMov64 dst src ++ rteMov64 (dst + n - 64) (src + n - 64)
  else
    let (c, n) := copyBlocks256 ⟨dst, src, []⟩ n
    let (c, n) := copyChunks rteMov64 64 6 (c, n)
    let (c, n) := copyChunks rteMov16 16 4 (c, n)
    if n ≠ 0 then c.moves ++ rteMov16 (c.dst + n - 16) (c.src + n - 16) else c.moves

example : rteMemcpyFunc 1000 0 70 = [⟨1000, 0, 64⟩, ⟨1006, 6, 64⟩] := by decide

/-! ## What has been copied -/

/-- The first `k` bytes are copied, and the pointers stand behind them. -/
structure CopyCursor.Copied (c : CopyCursor) (dst src k : ℕ) : Prop where
  dst_eq : c.dst = dst + k
  src_eq : c.src = src + k
  sweeps : Sweeps c.moves dst src k

section Copied

variable {c : CopyCursor} {dst src k n : ℕ}

theorem CopyCursor.copied_start (dst src : ℕ) : CopyCursor.Copied ⟨dst, src, []⟩ dst src 0 :=
  ⟨rfl, rfl, Sweeps.nil dst src⟩

theorem CopyCursor.Copied.step (h : c.Copied dst src k) {mov : ℕ → ℕ → List Move} {size : ℕ}
    (hmov : ∀ dst src, Sweeps (mov dst src) dst src size) :
    (c.step mov size).Copied dst src (k + size) where
  dst_eq := by simp [CopyCursor.step, h.dst_eq, Nat.add_assoc]
  src_eq := by simp [CopyCursor.step, h.src_eq, Nat.add_assoc]
  sweeps := h.sweeps.append (by simpa only [h.dst_eq, h.src_eq] using hmov c.dst c.src)

theorem sweeps_scalarMove (size dst src : ℕ) : Sweeps (scalarMove size dst src) dst src size :=
  Sweeps.single dst src size

theorem sweeps_rteMov16 (dst src : ℕ) : Sweeps (rteMov16 dst src) dst src 16 :=
  Sweeps.single dst src 16

theorem sweeps_rteMov64 (dst src : ℕ) : Sweeps (rteMov64 dst src) dst src 64 :=
  Sweeps.single dst src 64

theorem sweeps_rteMov256 (dst src : ℕ) : Sweeps (rteMov256 dst src) dst src 256 :=
  (Sweeps.single dst src 128).append (Sweeps.single (dst + 128) (src + 128) 128)

/-- The loop leaves fewer than 256 bytes. -/
theorem copied_copyBlocks256 (h : c.Copied dst src k) :
    ∃ k', (copyBlocks256 c n).1.Copied dst src k' ∧ k' + (copyBlocks256 c n).2 = k + n ∧
      k ≤ k' ∧ (copyBlocks256 c n).2 < 256 := by
  induction c, n using copyBlocks256.induct generalizing k with
  | case1 c n hn ih =>
    obtain ⟨k', hcopied, hsum, hle, hlt⟩ := ih (h.step sweeps_rteMov256)
    rw [copyBlocks256, if_pos hn]
    exact ⟨k', hcopied, by omega, by omega, hlt⟩
  | case2 c n hn =>
    rw [copyBlocks256, if_neg hn]
    exact ⟨k, h, rfl, Nat.le_refl k, by simp only; omega⟩

/-- A switch over chunks leaves less than one chunk of what it can handle. -/
theorem copied_copyChunks (h : c.Copied dst src k) {mov : ℕ → ℕ → List Move} {size shift : ℕ}
    (hmov : ∀ dst src, Sweeps (mov dst src) dst src size) (hsize : size = 2 ^ shift)
    (hn : n < 4 * size) :
    ∃ k', (copyChunks mov size shift (c, n)).1.Copied dst src k' ∧
      k' + (copyChunks mov size shift (c, n)).2 = k + n ∧ k ≤ k' ∧
      (copyChunks mov size shift (c, n)).2 < size := by
  have hpos : 0 < size := hsize ▸ Nat.two_pow_pos shift
  have hchunks : n / size < 4 := Nat.div_lt_of_lt_mul (by omega)
  have hdiv := Nat.div_add_mod n size
  have hmod := Nat.mod_lt n hpos
  have hswitch : WordArith.sizeSub 3 (n >>> shift) = 3 - n / size := by
    rw [Nat.shiftRight_eq_div_pow, ← hsize]
    exact WordArith.sizeSub_of_le (by omega) (by omega)
  have hone := h.step hmov
  have htwo := hone.step hmov
  have hthree := htwo.step hmov
  simp only [copyChunks, hswitch]
  generalize hq : n / size = q at *
  interval_cases q
  · exact ⟨k, h, rfl, Nat.le_refl k, by show n < size; omega⟩
  · exact ⟨k + size, hone, by simp only; omega, by omega, by simp only; omega⟩
  · exact ⟨_, htwo, by simp only; omega, by omega, by simp only; omega⟩
  · exact ⟨_, hthree, by simp only; omega, by omega, by simp only; omega⟩

/-- A scalar that is moved when a bit of `n` says so. -/
theorem CopyCursor.Copied.step_if (h : c.Copied dst src k) (b : Prop) [Decidable b] (size : ℕ) :
    (if b then c.step (scalarMove size) size else c).Copied dst src
      (k + if b then size else 0) := by
  by_cases hb : b
  · simpa only [if_pos hb] using h.step fun dst src => sweeps_scalarMove size dst src
  · simpa only [if_neg hb, Nat.add_zero] using h

/-- The bits of a number below 16 make it up. -/
theorem sum_bits : ∀ n < 16, (((0 + if n &&& 0x01 ≠ 0 then 1 else 0) +
    if n &&& 0x02 ≠ 0 then 2 else 0) + if n &&& 0x04 ≠ 0 then 4 else 0) +
    (if n &&& 0x08 ≠ 0 then 8 else 0) = n := by
  decide

theorem sweeps_copyScalars (dst src : ℕ) (hn : n < 16) :
    Sweeps (copyScalars dst src n) dst src n := by
  have hlow := (((CopyCursor.copied_start dst src).step_if (n &&& 0x01 ≠ 0) 1).step_if
    (n &&& 0x02 ≠ 0) 2).step_if (n &&& 0x04 ≠ 0) 4
  have hall := (hlow.step_if (n &&& 0x08 ≠ 0) 8).sweeps
  rw [sum_bits n hn] at hall
  have hmoves : ∀ c : CopyCursor, (if n &&& 0x08 ≠ 0 then c.step (scalarMove 8) 8 else c).moves =
      if n &&& 0x08 ≠ 0 then c.moves ++ scalarMove 8 c.dst c.src else c.moves := fun c => by
    split <;> rfl
  rwa [hmoves] at hall

end Copied

/-! ## The copy -/

section Copy

variable {dst src n : ℕ}

/-- **The moves of `rte_memcpy_func`** stay within the two regions and leave no byte out,
whatever the length. -/
theorem sweeps_rteMemcpyFunc (dst src n : ℕ) : Sweeps (rteMemcpyFunc dst src n) dst src n := by
  unfold rteMemcpyFunc
  split
  · next hsmall => exact sweeps_copyScalars dst src hsmall
  split
  · next hlo hhi => exact (Sweeps.single dst src 16).tail (by omega) (by omega) (by omega)
  split
  · next hlo hhi => exact (Sweeps.single dst src 32).tail (by omega) (by omega) (by omega)
  split
  · next hlo hhi => exact (Sweeps.single dst src 64).tail (by omega) (by omega) (by omega)
  -- more than 128 bytes: what each stage leaves is small enough for the next one
  obtain ⟨k₁, hcopied₁, hsum₁, -, hlt₁⟩ :=
    @copied_copyBlocks256 ⟨dst, src, []⟩ dst src 0 n (CopyCursor.copied_start dst src)
  obtain ⟨k₂, hcopied₂, hsum₂, hle₂, hlt₂⟩ :=
    copied_copyChunks hcopied₁ sweeps_rteMov64 (show 64 = 2 ^ 6 from rfl) hlt₁
  obtain ⟨k₃, hcopied₃, hsum₃, hle₃, hlt₃⟩ :=
    copied_copyChunks hcopied₂ sweeps_rteMov16 (show 16 = 2 ^ 4 from rfl) hlt₂
  simp only
  set c₃ := (copyChunks rteMov16 16 4 (copyChunks rteMov64 64 6
    (copyBlocks256 ⟨dst, src, []⟩ n))).1
  set n₃ := (copyChunks rteMov16 16 4 (copyChunks rteMov64 64 6
    (copyBlocks256 ⟨dst, src, []⟩ n))).2
  have htotal : k₃ + n₃ = n := by omega
  split
  · -- the last bytes, together with some before them
    have htail := @Sweeps.tail _ _ _ _ hcopied₃.sweeps 16 n (by omega) (by omega) (by omega)
    have hdst : c₃.dst + n₃ - 16 = dst + n - 16 := by rw [hcopied₃.dst_eq]; omega
    have hsrc : c₃.src + n₃ - 16 = src + n - 16 := by rw [hcopied₃.src_eq]; omega
    rw [hdst, hsrc]
    exact htail
  · next hnone =>
    have hall : k₃ = n := by omega
    exact hall ▸ hcopied₃.sweeps

/-- **`rte_memcpy_func` is a plain copy** of regions that do not overlap. -/
theorem moves_rteMemcpyFunc (hapart : RangesApart dst n src n) (m : ByteMemory) :
    m.moves (rteMemcpyFunc dst src n) = m.store ⟨dst, m.read src n⟩ :=
  (sweeps_rteMemcpyFunc dst src n).moves_eq_store hapart m

/-- **`rte_memcpy` stays in bounds and copies**: for every length, no move loads outside
the source or stores outside the destination, and when the two do not overlap the memory
is that of one plain copy. -/
theorem rteMemcpyFunc_copies (dst src n : ℕ) :
    (∀ mv ∈ rteMemcpyFunc dst src n, dst ≤ mv.dst ∧ mv.dst + mv.len ≤ dst + n ∧
      src ≤ mv.src ∧ mv.src + mv.len ≤ src + n) ∧
    (RangesApart dst n src n → ∀ m : ByteMemory,
      m.moves (rteMemcpyFunc dst src n) = m.store ⟨dst, m.read src n⟩) := by
  refine ⟨fun mv hmv => ?_, moves_rteMemcpyFunc⟩
  obtain ⟨o, hdst, hsrc, hle⟩ := (sweeps_rteMemcpyFunc dst src n).pieces mv hmv
  exact ⟨by omega, by omega, by omega, by omega⟩

theorem rteMemcpyFunc_copies_mtu : ∀ m : ByteMemory,
    m.moves (rteMemcpyFunc 4096 0 1500) = m.store ⟨4096, m.read 0 1500⟩ :=
  (rteMemcpyFunc_copies 4096 0 1500).2 (.inr (by decide))

end Copy

/-! ## `mbuf_copy` -/

/-- `mbuf_copy` with the moves of the copy it calls: `len` bytes from `source` to offset
`off`. -/
def mbufCopyMoves (mem : ByteMemory) (m : Mbuf) (source len off : ℕ) : ByteMemory × Mbuf :=
  (mem.moves (rteMemcpyFunc (m.data.toNat + off) source len),
    { m with len := m.len + UInt32.ofNat len })

/-- The moves do what `mbufCopy` says they do. -/
theorem mbufCopyMoves_eq {m : Mbuf} {source len off : ℕ}
    (hapart : RangesApart (m.data.toNat + off) len source len) (mem : ByteMemory) :
    mbufCopyMoves mem m source len off = mbufCopy mem m (mem.read source len) off := by
  simp only [mbufCopyMoves, mbufCopy, moves_rteMemcpyFunc hapart, length_read]

end Mlx5Netperf
