import Mathlib.Data.ZMod.IntUnitsPower
import Mathlib.GroupTheory.Perm.Cycle.Basic
import Mathlib.GroupTheory.Perm.Fin

/-!
# Walks Along a Permutation

A table over `0, ..., n - 1` that agrees with a permutation of `Fin n` is walked
along by following its entries. The walk from the first position visits every
position once exactly when the permutation is a single cycle. A table that is
built by exchanging entries agrees with a product of transpositions.
-/

namespace CyclicWalk

open Equiv (Perm swap)

/-- The table holds the values of the permutation. -/
def Agrees {n : ℕ} (table : ℕ → ℕ) (p : Perm (Fin n)) : Prop := ∀ x : Fin n, table x = p x

/-- From `0` the walk visits each of the `n` positions exactly once and is back
at `0` afterwards. -/
def VisitsAll (n : ℕ) (table : ℕ → ℕ) : Prop :=
  (∀ y < n, ∃! k, k < n ∧ table^[k] 0 = y) ∧ table^[n] 0 = 0

/-! ## Walking -/

section Walk

variable {n : ℕ} {table : ℕ → ℕ} {p : Perm (Fin n)}

/-- Walking along the table is iterating the permutation. -/
theorem Agrees.iterate (h : Agrees table p) (k : ℕ) (x : Fin n) : table^[k] x = (p ^ k) x := by
  induction k with
  | zero => simp
  | succ k ih =>
    rw [Function.iterate_succ_apply', ih, pow_succ', Perm.mul_apply]
    exact h _

/-- **One cycle**: the walk visits everything once exactly when the permutation
is transitive. -/
theorem Agrees.visitsAll_iff [NeZero n] (h : Agrees table p) :
    VisitsAll n table ↔ p.IsCycleOn Set.univ := by
  have hwalk : ∀ k, table^[k] 0 = (p ^ k) (0 : Fin n) := fun k => by simpa using h.iterate k 0
  constructor
  · rintro ⟨hvisit, -⟩
    -- whatever is visited is on the cycle of the first position
    have hreach : ∀ y, p.SameCycle 0 y := by
      intro y
      obtain ⟨k, ⟨-, hk⟩, -⟩ := hvisit y y.isLt
      rw [hwalk] at hk
      exact ⟨k, by simpa using Fin.ext hk⟩
    refine ⟨?bij, ?same⟩
    case bij => exact Set.bijOn_univ.mpr p.bijective
    case same => exact fun x _ y _ => (hreach x).symm.trans (hreach y)
  · intro hcycle
    have huniv : p.IsCycleOn ((Finset.univ : Finset (Fin n)) : Set (Fin n)) := by
      simpa using hcycle
    refine ⟨?visit, ?back⟩
    case visit =>
      intro y hy
      obtain ⟨k, hk, hpow⟩ := huniv.exists_pow_eq (Finset.mem_univ 0) (Finset.mem_univ ⟨y, hy⟩)
      rw [Finset.card_fin] at hk
      refine ⟨k, ⟨hk, by rw [hwalk, hpow]⟩, ?_⟩
      -- two visits within one lap are the same visit
      rintro k' ⟨hk', hvisit⟩
      rw [hwalk] at hvisit
      have hsame : (p ^ k') 0 = (p ^ k) 0 := by rw [hpow]; exact Fin.ext hvisit
      have hmod := (huniv.pow_apply_eq_pow_apply (Finset.mem_univ 0)).mp hsame
      rw [Finset.card_fin] at hmod
      exact Nat.ModEq.eq_of_lt_of_lt hmod hk' hk
    case back =>
      have hlap := huniv.pow_card_apply (Finset.mem_univ 0)
      rw [Finset.card_fin] at hlap
      rw [hwalk, hlap]
      rfl

/-- The cycle `0, 1, ..., n - 1` visits everything. -/
theorem isCycleOn_finRotate (n : ℕ) : (finRotate n).IsCycleOn Set.univ := by
  -- a rotation of at most one position moves nothing
  rcases n with _ | _ | n
  · exact Perm.isCycleOn_of_subsingleton _ _
  · have : Subsingleton (Fin (0 + 1)) := inferInstanceAs (Subsingleton (Fin 1))
    exact Perm.isCycleOn_of_subsingleton _ _
  · have hsupport : {x | finRotate (n + 2) x ≠ x} = Set.univ := by
      ext x
      simp
    simpa [hsupport] using (isCycle_finRotate (n := n)).isCycleOn

/-- The sign of a permutation that visits everything. -/
theorem sign_of_isCycleOn [NeZero n] (h : p.IsCycleOn Set.univ) :
    Perm.sign p = (-1) ^ (n - 1) := by
  -- no position, one position, or a proper cycle
  rcases n with _ | _ | n
  · exact absurd rfl (NeZero.ne 0)
  · have : Subsingleton (Fin (0 + 1)) := inferInstanceAs (Subsingleton (Fin 1))
    have hone : p = 1 := Equiv.ext fun x => Subsingleton.elim _ _
    simp [hone]
  · have hfixed : ∀ x, p x ≠ x := fun x =>
      h.apply_ne Set.nontrivial_univ (Set.mem_univ x)
    have hcycle : p.IsCycle :=
      Perm.isCycle_iff_exists_isCycleOn.mpr ⟨Set.univ, Set.nontrivial_univ, h, by simp⟩
    have hsupport : p.support = Finset.univ := by
      ext x
      simpa using hfixed x
    rw [hcycle.sign, hsupport, Finset.card_fin]
    simp [pow_succ]

end Walk

/-! ## Exchanging entries -/

/-- Exchange two entries of a table. -/
def exchange (table : ℕ → ℕ) (i j : ℕ) : ℕ → ℕ :=
  Function.update (Function.update table i (table j)) j (table i)

/-- An exchange is a transposition in front. -/
theorem Agrees.exchange {n : ℕ} {table : ℕ → ℕ} {p : Perm (Fin n)} (h : Agrees table p)
    (i j : Fin n) : Agrees (exchange table i j) (p * swap i j) := by
  intro x
  rw [Perm.mul_apply]
  -- the second write wins when both go to one entry
  by_cases hj : x = j
  · simp [CyclicWalk.exchange, hj, h i]
  · by_cases hi : x = i
    · have hne : (i : ℕ) ≠ j := fun heq => hj (hi.trans (Fin.ext heq))
      simp [CyclicWalk.exchange, hi, hne, h j]
    · have hjval : (x : ℕ) ≠ j := fun heq => hj (Fin.ext heq)
      have hival : (x : ℕ) ≠ i := fun heq => hi (Fin.ext heq)
      simp [CyclicWalk.exchange, hjval, hival, Equiv.swap_apply_of_ne_of_ne hi hj, h x]

/-- **A sequence of exchanges** is a product of transpositions. -/
theorem Agrees.foldl_exchange {n : ℕ} {table : ℕ → ℕ} {p : Perm (Fin n)} (h : Agrees table p)
    (target : Fin n → Fin n) (is : List (Fin n)) :
    Agrees (is.foldl (fun table (i : Fin n) => CyclicWalk.exchange table i (target i)) table)
      (p * (is.map fun i => swap i (target i)).prod) := by
  induction is generalizing table p with
  | nil => simpa using h
  | cons i is ih => simpa [mul_assoc] using ih (h.exchange i (target i))

/-- The sign of a product of transpositions counts those that exchange something. -/
theorem sign_prod_swap {n : ℕ} (target : Fin n → Fin n) (is : List (Fin n)) :
    Perm.sign (is.map fun i => swap i (target i)).prod =
      (-1) ^ is.countP (fun i => target i ≠ i) := by
  induction is with
  | nil => simp
  | cons i is ih =>
    rw [List.map_cons, List.prod_cons, Perm.sign_mul, ih]
    by_cases hi : target i = i
    · simp [hi]
    · rw [Perm.sign_swap (Ne.symm hi), List.countP_cons_of_pos (by simpa using hi), pow_succ']

end CyclicWalk
