import Mathlib.Data.Set.Lattice
import Mathlib.Order.CompletePartialOrder
import Mathlib.Data.List.Pairwise
import Mathlib.Data.List.Nodup
import Mathlib.Data.List.Perm.Subperm
import Mathlib.Data.Nat.ModEq

/-!
# Reservations on a Circular Ring

A line of positions `0, 1, 2, …` is laid around a ring of `n` slots. A
reservation takes some consecutive positions; reservations made one after the
other lie next to each other on the line. As long as they cover at most `n`
positions together, no two of them share a slot.
-/

namespace CircularRing

/-- The slots that `k` positions from `p` on take on a ring of `n` slots. -/
def slots (n p k : ℕ) : Set ℕ := { x | ∃ i < k, x = (p + i) % n }

/-- Start and length of consecutive reservations of the given lengths. -/
def spans : ℕ → List ℕ → List (ℕ × ℕ)
  | _, [] => []
  | p, k :: ks => (p, k) :: spans (p + k) ks

@[simp] theorem spans_nil (p : ℕ) : spans p [] = [] := rfl

@[simp] theorem spans_cons (p k : ℕ) (ks : List ℕ) :
    spans p (k :: ks) = (p, k) :: spans (p + k) ks := rfl

/-- Two positions less than one lap apart take different slots. -/
theorem mod_ne_of_lt {n a b : ℕ} (hab : a < b) (hlap : b < a + n) : a % n ≠ b % n := by
  intro heq
  -- the distance would be a multiple of the lap
  have hdvd : n ∣ b - a := (Nat.modEq_iff_dvd' hab.le).mp heq
  have hle : n ≤ b - a := Nat.le_of_dvd (by omega) hdvd
  omega

/-- Intervals of positions inside one lap, one after the other, share no slot. -/
theorem slots_disjoint {n p k q l : ℕ} (hpq : p + k ≤ q) (hlap : q + l ≤ p + n) :
    Disjoint (slots n p k) (slots n q l) := by
  rw [Set.disjoint_left]
  rintro x ⟨i, hi, rfl⟩ ⟨j, hj, heq⟩
  exact mod_ne_of_lt (by omega : p + i < q + j) (by omega) heq

/-- Only the first position modulo the ring size matters. -/
theorem slots_congr {n p q k : ℕ} (h : p % n = q % n) : slots n p k = slots n q k := by
  ext x
  simp only [slots, Set.mem_ofPred_eq]
  constructor
  · rintro ⟨i, hi, rfl⟩
    exact ⟨i, hi, Nat.ModEq.add_right i h⟩
  · rintro ⟨i, hi, rfl⟩
    exact ⟨i, hi, Nat.ModEq.add_right i h.symm⟩

/-- Every later reservation starts at or after `p` and ends before the total. -/
theorem mem_spans {p : ℕ} {ks : List ℕ} {s : ℕ × ℕ} (hs : s ∈ spans p ks) :
    p ≤ s.1 ∧ s.1 + s.2 ≤ p + ks.sum := by
  induction ks generalizing p with
  | nil => simp at hs
  | cons k ks ih =>
    rw [List.sum_cons]
    rcases List.mem_cons.mp hs with rfl | htail
    · exact ⟨le_rfl, by omega⟩
    · have hmem := ih htail
      omega

/-- **Reservations that fit the ring share no slot.** -/
theorem spans_pairwise_disjoint {n p : ℕ} {ks : List ℕ} (hfit : ks.sum ≤ n) :
    (spans p ks).Pairwise (fun a b => Disjoint (slots n a.1 a.2) (slots n b.1 b.2)) := by
  induction ks generalizing p with
  | nil => exact List.Pairwise.nil
  | cons k ks ih =>
    rw [List.sum_cons] at hfit
    refine List.Pairwise.cons ?_ (ih (by omega))
    intro b hb
    -- the later spans start behind the first, and all end within a lap of it
    have hmem := mem_spans hb
    exact slots_disjoint hmem.1 (by omega)

/-- A lap from any position on passes every slot once. -/
theorem lap_perm_range (n p : ℕ) :
    ((List.range n).map fun i => (p + i) % n).Perm (List.range n) := by
  have hnodup : ((List.range n).map fun i => (p + i) % n).Nodup := by
    refine List.Nodup.map_on ?_ List.nodup_range
    intro i hi j hj heq
    rw [List.mem_range] at hi hj
    -- two positions of a lap with the same slot are one
    rcases Nat.lt_trichotomy i j with hlt | rfl | hgt
    · exact absurd heq (mod_ne_of_lt (by omega) (by omega))
    · rfl
    · exact absurd heq.symm (mod_ne_of_lt (by omega) (by omega))
  have hsubset : ((List.range n).map fun i => (p + i) % n) ⊆ List.range n := by
    intro s hs
    obtain ⟨i, hi, rfl⟩ := List.mem_map.mp hs
    rw [List.mem_range] at hi ⊢
    exact Nat.mod_lt _ (by omega)
  -- distinct, inside and as many
  exact (List.subperm_of_subset hnodup hsubset).perm_of_length_le (by simp)

end CircularRing
