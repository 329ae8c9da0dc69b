import Mlx5Netperf.Lib.ByteMemory

/-!
# Moves of Bytes

A copy that is split into moves. A move loads a piece of the source and stores
it at the same offset of the destination; moves may overlap each other. When
the pieces cover the region, and source and destination are apart, the moves
leave what one store of the whole region leaves.
-/

namespace ByteMemory

/-- `len` bytes are loaded from `src`, then all of them are stored at `dst`. -/
structure Move where
  dst : ℕ
  src : ℕ
  len : ℕ
  deriving DecidableEq, Repr

/-- The store that a move makes. -/
def Move.toStore (mv : Move) (m : ByteMemory) : Store := ⟨mv.dst, m.read mv.src mv.len⟩

/-- Perform moves in order. -/
def moves (m : ByteMemory) (mvs : List Move) : ByteMemory :=
  mvs.foldl (fun m mv => m.store (mv.toStore m)) m

@[simp] theorem moves_nil (m : ByteMemory) : m.moves [] = m := rfl

@[simp] theorem moves_cons (m : ByteMemory) (mv : Move) (mvs : List Move) :
    m.moves (mv :: mvs) = (m.store (mv.toStore m)).moves mvs := rfl

/-- The move copies a piece of the `n` bytes from `src` on to its place behind `dst`. -/
def Move.PieceOf (mv : Move) (dst src n : ℕ) : Prop :=
  ∃ o, mv.dst = dst + o ∧ mv.src = src + o ∧ o + mv.len ≤ n

/-- The address `x` is stored to. -/
def Move.Hits (mv : Move) (x : ℕ) : Prop := mv.dst ≤ x ∧ x < mv.dst + mv.len

instance (mv : Move) (x : ℕ) : Decidable (mv.Hits x) := inferInstanceAs (Decidable (_ ∧ _))

/-- The moves copy pieces of the `n` bytes from `src` on, and leave none out. -/
structure Sweeps (mvs : List Move) (dst src n : ℕ) : Prop where
  pieces : ∀ mv ∈ mvs, mv.PieceOf dst src n
  covers : ∀ i < n, ∃ mv ∈ mvs, mv.Hits (dst + i)

/-! ## How sweeps compose -/

namespace Sweeps

variable {mvs mvs' : List Move} {dst src n k : ℕ}

theorem nil (dst src : ℕ) : Sweeps [] dst src 0 where
  pieces := by simp
  covers := by simp

/-- One move of everything. -/
theorem single (dst src n : ℕ) : Sweeps [⟨dst, src, n⟩] dst src n where
  pieces := by
    intro mv hmv
    obtain rfl := List.mem_singleton.mp hmv
    exact ⟨0, rfl, rfl, by simp⟩
  covers := fun i hi => ⟨_, List.mem_singleton_self _, by simp, by simpa using hi⟩

/-- A sweep and one of what lies behind it. -/
theorem append (h : Sweeps mvs dst src n) (h' : Sweeps mvs' (dst + n) (src + n) k) :
    Sweeps (mvs ++ mvs') dst src (n + k) where
  pieces := by
    intro mv hmv
    rcases List.mem_append.mp hmv with hfront | hbehind
    · obtain ⟨o, hdst, hsrc, hle⟩ := h.pieces mv hfront
      exact ⟨o, hdst, hsrc, by omega⟩
    · obtain ⟨o, hdst, hsrc, hle⟩ := h'.pieces mv hbehind
      exact ⟨n + o, by omega, by omega, by omega⟩
  covers := by
    intro i hi
    by_cases hfront : i < n
    · obtain ⟨mv, hmv, hhit⟩ := h.covers i hfront
      exact ⟨mv, List.mem_append_left _ hmv, hhit⟩
    · obtain ⟨mv, hmv, hhit⟩ := h'.covers (i - n) (by omega)
      rw [show dst + n + (i - n) = dst + i by omega] at hhit
      exact ⟨mv, List.mem_append_right _ hmv, hhit⟩

/-- **An overlapping tail**: the last `t` bytes in one move, which may go over
bytes that were copied before. -/
theorem tail (h : Sweeps mvs dst src n) {t total : ℕ} (hn : n ≤ total) (htail : total ≤ n + t)
    (ht : t ≤ total) :
    Sweeps (mvs ++ [⟨dst + total - t, src + total - t, t⟩]) dst src total where
  pieces := by
    intro mv hmv
    rcases List.mem_append.mp hmv with hfront | hlast
    · obtain ⟨o, hdst, hsrc, hle⟩ := h.pieces mv hfront
      exact ⟨o, hdst, hsrc, hle.trans hn⟩
    · obtain rfl := List.mem_singleton.mp hlast
      exact ⟨total - t, by simp only; omega, by simp only; omega, by simp only; omega⟩
  covers := by
    intro i hi
    by_cases hfront : i < n
    · obtain ⟨mv, hmv, hhit⟩ := h.covers i hfront
      exact ⟨mv, List.mem_append_left _ hmv, hhit⟩
    · refine ⟨_, List.mem_append_right _ (List.mem_singleton_self _), ?_, ?_⟩
      · simp only
        omega
      · simp only
        omega

end Sweeps

/-! ## What moves leave -/

section Moves

variable {mvs : List Move} {m m₀ : ByteMemory} {dst src n : ℕ}

/-- One move, on a memory that still holds the source: the bytes it hits are the source's. -/
theorem store_toStore_apply {mv : Move} (hpiece : mv.PieceOf dst src n)
    (hagree : AgreeOn m₀ m src n) (x : ℕ) :
    m.store (mv.toStore m) x = if mv.Hits x then m₀ (src + (x - dst)) else m x := by
  obtain ⟨o, hdst, hsrc, hle⟩ := hpiece
  split
  · next hhit =>
    obtain ⟨hlo, hhi⟩ := hhit
    have hread : (mv.toStore m).bytes[x - mv.dst]? = some (m (mv.src + (x - mv.dst))) := by
      simp only [Move.toStore, read, List.getElem?_map, Option.map_eq_some_iff]
      exact ⟨x - mv.dst, List.getElem?_range (by omega), rfl⟩
    simp only [store, Move.toStore, if_pos hlo, List.getD_eq_getElem?_getD] at hread ⊢
    rw [hread, Option.getD_some, hagree _ (by omega) (by omega)]
    congr 1
    omega
  · next hmiss =>
    exact store_of_not_touches fun htouch =>
      hmiss ⟨htouch.1, by simpa [Move.toStore] using htouch.2⟩

/-- A move whose destination is apart from the source leaves the source alone. -/
theorem AgreeOn.store_toStore {mv : Move} (hagree : AgreeOn m₀ m src n)
    (hpiece : mv.PieceOf dst src n) (hapart : RangesApart dst n src n) :
    AgreeOn m₀ (m.store (mv.toStore m)) src n := by
  obtain ⟨o, hdst, -, hle⟩ := hpiece
  intro x hlo hhi
  rw [store_of_not_touches, hagree x hlo hhi]
  rintro ⟨hfrom, hto⟩
  simp only [Move.toStore, length_read] at hfrom hto
  rcases hapart with hbefore | hafter <;> omega

/-- What moves of pieces leave at each address. -/
theorem moves_apply (hpieces : ∀ mv ∈ mvs, mv.PieceOf dst src n)
    (hapart : RangesApart dst n src n) (hagree : AgreeOn m₀ m src n) (x : ℕ) :
    m.moves mvs x = if ∃ mv ∈ mvs, mv.Hits x then m₀ (src + (x - dst)) else m x := by
  induction mvs generalizing m with
  | nil => simp
  | cons mv mvs ih =>
    have hpiece := hpieces mv (List.mem_cons_self ..)
    rw [moves_cons, ih (fun mv' hmv' => hpieces mv' (List.mem_cons_of_mem _ hmv'))
      (hagree.store_toStore hpiece hapart), store_toStore_apply hpiece hagree]
    by_cases hlater : ∃ mv' ∈ mvs, mv'.Hits x
    · rw [if_pos hlater, if_pos (by simpa using .inr hlater)]
    · simp only [if_neg hlater, List.exists_mem_cons_iff, or_iff_left hlater]

/-- **Moves that sweep a region** whose two ends are apart leave what one store of
the whole region leaves. -/
theorem Sweeps.moves_eq_store (h : Sweeps mvs dst src n) (hapart : RangesApart dst n src n)
    (m : ByteMemory) : m.moves mvs = m.store ⟨dst, m.read src n⟩ := by
  funext x
  rw [moves_apply h.pieces hapart (fun _ _ _ => rfl) x]
  have hwhole := @store_toStore_apply m m dst src n ⟨dst, src, n⟩
    ⟨0, rfl, rfl, by simp⟩ (fun _ _ _ => rfl) x
  refine Eq.trans ?_ hwhole.symm
  -- the moves hit exactly the bytes of the destination
  have hhits : (∃ mv ∈ mvs, mv.Hits x) ↔ (⟨dst, src, n⟩ : Move).Hits x := by
    constructor
    · rintro ⟨mv, hmv, hlo, hhi⟩
      obtain ⟨o, hdst, -, hle⟩ := h.pieces mv hmv
      exact ⟨by simp only; omega, by simp only; omega⟩
    · rintro ⟨hlo, hhi⟩
      simp only at hlo hhi
      obtain ⟨mv, hmv, hhit⟩ := h.covers (x - dst) (by omega)
      exact ⟨mv, hmv, by rwa [Nat.add_sub_cancel' hlo] at hhit⟩
  simp only [hhits]

end Moves

end ByteMemory
