import Mathlib.Tactic.IntervalCases
import Mlx5Netperf.Lib.CyclicWalk
import Mlx5Netperf.State

/-!
# The Pointer Chase

`initialize_pointer_chasing_at_client` of `requests.c`: the numbers of the
regions are shuffled, and a table is filled from the shuffled list. Entry `j` of
the table is the shuffled number at `j + 1`, so following the table composes the
shuffle with the rotation by one; it does not follow the shuffled list.
-/

namespace Mlx5Netperf

open CyclicWalk
open Equiv (Perm swap)

/-- One round of the shuffle. -/
def shuffleRound (len : ℕ) (rand indices : ℕ → ℕ) (i : ℕ) : ℕ → ℕ :=
  let j := i + rand i % (len - i)
  if i ≠ j then
    let tmp := indices i
    let indices := Function.update indices i (indices j)
    Function.update indices j tmp
  else indices

/-- `indices` after the shuffle; `rand i` is what `rand()` returns in round `i`. -/
def shuffleIndices (len : ℕ) (rand : ℕ → ℕ) : ℕ → ℕ :=
  (List.range (len - 1)).foldl (shuffleRound len rand) id

/-- The table that is linked from `indices`, in memory that held `pointers` before. -/
def linkPointers (len : ℕ) (indices pointers : ℕ → ℕ) : ℕ → ℕ :=
  let pointers := (List.range' 1 (len - 1)).foldl
    (fun pointers i => Function.update pointers (i - 1) (indices i)) pointers
  Function.update pointers (len - 1) (indices 0)

/-- `initialize_pointer_chasing_at_client`; `malloc` says what its calls return, one after
the other. `none` is a division by zero, or a store outside a block. -/
def initializePointerChasingAtClient (arraySize segmentSize : UInt64) (rand : ℕ → ℕ)
    (malloc : ℕ → Option (ℕ → ℕ)) : Option (Except Int32 (ℕ → ℕ)) :=
  if segmentSize = 0 then none
  else if arraySize % segmentSize ≠ 0 then some (.error (-einval))
  else
    let len := arraySize / segmentSize
    match malloc 0 with
    | none => some (.error (-enomem))
    | some _ =>
      -- `len - 1` wraps around for no region, and the size of the blocks for too many
      if len = 0 ∨ (8 * len).toNat < 8 * len.toNat then none
      else match malloc 1 with
        | none => some (.error (-enomem))
        | some memory =>
          some (.ok (linkPointers len.toNat (shuffleIndices len.toNat rand) memory))

/-- `get_next_ptr` -/
def getNextPtr (pointers : ℕ → ℕ) (idx : ℕ) : ℕ := pointers idx

/-! ## The table as a permutation -/

/-- The position that round `i` of the shuffle exchanges with `i`. -/
def swapTarget {len : ℕ} (rand : ℕ → ℕ) (i : Fin len) : Fin len :=
  ⟨i + rand i % (len - i), by
    have hlt := Nat.mod_lt (rand i) (Nat.sub_pos_of_lt i.isLt)
    omega⟩

/-- The exchanges of the shuffle, one after the other. -/
def shufflePerm (len : ℕ) (rand : ℕ → ℕ) : Perm (Fin len) :=
  ((List.finRange len).map fun i => swap i (swapTarget rand i)).prod

/-- The exchanges of the shuffle behind the rotation by one. -/
def chasePerm (len : ℕ) (rand : ℕ → ℕ) : Perm (Fin len) := shufflePerm len rand * finRotate len

section Table

variable {len : ℕ} {rand : ℕ → ℕ}

/-- A round exchanges two entries. -/
theorem shuffleRound_eq (indices : ℕ → ℕ) (i : Fin len) :
    shuffleRound len rand indices i = exchange indices i (swapTarget rand i) := by
  -- a round that picks its own position exchanges it with itself
  by_cases h : (i : ℕ) = i + rand i % (len - i)
  · have htarget : (swapTarget rand i : ℕ) = i := h.symm
    simp [shuffleRound, exchange, ← h, htarget]
  · rw [shuffleRound]
    exact if_pos h

/-- **What the shuffle computes.** -/
theorem agrees_shuffleIndices (n : ℕ) (rand : ℕ → ℕ) :
    Agrees (shuffleIndices (n + 1) rand) (shufflePerm (n + 1) rand) := by
  -- the last position has nothing to be exchanged with, and the loop leaves it out
  have hlast : swapTarget rand (Fin.last n) = Fin.last n := by
    apply Fin.ext
    simp [swapTarget, Nat.mod_one]
  have hperm : shufflePerm (n + 1) rand =
      1 * (((List.finRange n).map Fin.castSucc).map fun i => swap i (swapTarget rand i)).prod := by
    have hself : swap (Fin.last n) (Fin.last n) = 1 := Equiv.swap_self _
    rw [shufflePerm, List.finRange_succ_last]
    simp only [List.map_append, List.map_cons, List.map_nil, List.prod_append, List.prod_singleton,
      hlast, hself, mul_one, one_mul]
  -- positions instead of numbers
  have hloop : shuffleIndices (n + 1) rand = ((List.finRange n).map Fin.castSucc).foldl
      (fun table (i : Fin (n + 1)) => exchange table i (swapTarget rand i)) id := by
    have hrange : List.range n = (List.finRange n).map fun i : Fin n => (i : ℕ) := by simp
    rw [shuffleIndices, Nat.add_sub_cancel, hrange, List.foldl_map, List.foldl_map]
    exact List.foldl_ext _ _ _ fun table i _ => shuffleRound_eq table (Fin.castSucc i)
  rw [hperm, hloop]
  exact Agrees.foldl_exchange (fun x => by simp) _ _

/-- The loop that links the table fills its first entries. -/
theorem foldl_link (indices pointers : ℕ → ℕ) (n x : ℕ) :
    (List.range' 1 n).foldl (fun pointers i => Function.update pointers (i - 1) (indices i))
      pointers x = if x < n then indices (x + 1) else pointers x := by
  induction n with
  | zero => simp
  | succ n ih =>
    rw [List.range'_1_concat, List.foldl_append]
    -- the last round writes entry `n`, the others lie before it
    by_cases hx : x = n
    · simp [hx, Nat.add_comm]
    · have hlt : x < n + 1 ↔ x < n := by omega
      simp [hx, ih, hlt]

/-- **What the table holds.** -/
theorem agrees_linkPointers {n : ℕ} {indices : ℕ → ℕ} {p : Perm (Fin (n + 1))}
    (h : Agrees indices p) (pointers : ℕ → ℕ) :
    Agrees (linkPointers (n + 1) indices pointers) (p * finRotate (n + 1)) := by
  intro x
  rw [Perm.mul_apply, ← h]
  -- the last entry is written behind the loop
  by_cases hx : x = Fin.last n
  · rw [hx, finRotate_last]
    simp [linkPointers]
  · have hlt : (x : ℕ) < n := Fin.val_lt_last hx
    rw [coe_finRotate_of_ne_last hx]
    simp [linkPointers, foldl_link, hlt, hlt.ne]

/-- **Following the table** composes the exchanges of the shuffle with a rotation. -/
theorem agrees_chasePerm (hlen : 0 < len) (rand memory : ℕ → ℕ) :
    Agrees (linkPointers len (shuffleIndices len rand) memory) (chasePerm len rand) := by
  obtain ⟨n, rfl⟩ : ∃ n, len = n + 1 := ⟨len - 1, by omega⟩
  exact agrees_linkPointers (agrees_shuffleIndices n rand) memory

end Table

/-! ## Which shuffles give a single cycle -/

/-- A working set that is a positive multiple of the segment size has a region. -/
theorem numRegions_pos {arraySize segmentSize : UInt64} (hpos : 0 < arraySize.toNat)
    (hmul : arraySize % segmentSize = 0) :
    segmentSize ≠ 0 ∧ 0 < (arraySize / segmentSize).toNat := by
  have hmod : arraySize.toNat % segmentSize.toNat = 0 := by
    rw [← UInt64.toNat_mod, hmul]
    rfl
  have hdiv := Nat.div_add_mod arraySize.toNat segmentSize.toNat
  rw [hmod, Nat.add_zero] at hdiv
  constructor
  · rintro rfl
    rw [UInt64.toNat_zero, Nat.zero_mul] at hdiv
    omega
  · rw [UInt64.toNat_div]
    exact Nat.pos_of_ne_zero fun hzero => by simp [hzero] at hdiv; omega

/-- The size of the blocks is computed exactly for fewer than `2 ^ 61` regions. -/
theorem blockSize_wraps_iff (len : UInt64) :
    (8 * len).toNat < 8 * len.toNat ↔ ¬ len.toNat < 2 ^ 61 := by
  have hlt := len.toNat_lt
  rw [UInt64.toNat_mul]
  show 8 * len.toNat % 2 ^ 64 < 8 * len.toNat ↔ _
  omega

/-- How the function ends for a working set of whole segments, as far as `malloc` lets it. -/
theorem initializePointerChasingAtClient_eq {arraySize segmentSize : UInt64}
    (hpos : 0 < arraySize.toNat) (hmul : arraySize % segmentSize = 0) (rand : ℕ → ℕ)
    (malloc : ℕ → Option (ℕ → ℕ)) :
    initializePointerChasingAtClient arraySize segmentSize rand malloc =
      if malloc 0 = none then some (.error (-enomem))
      else if ¬ (arraySize / segmentSize).toNat < 2 ^ 61 then none
      else (malloc 1).elim (some (.error (-enomem))) fun memory =>
        some (.ok (linkPointers (arraySize / segmentSize).toNat
          (shuffleIndices (arraySize / segmentSize).toNat rand) memory)) := by
  obtain ⟨hsize, hlen⟩ := numRegions_pos hpos hmul
  have hsome : ¬ arraySize / segmentSize = 0 := fun hzero => by simp [hzero] at hlen
  unfold initializePointerChasingAtClient
  rw [if_neg hsize, if_neg (not_not.mpr hmul)]
  cases malloc 0 with
  | none => rfl
  | some _ =>
    simp only [hsome, false_or, blockSize_wraps_iff, reduceCtorEq, if_false]
    split
    · rfl
    · cases malloc 1 <;> rfl

/-- What `initialize_pointer_chasing_at_client` should do: stay inside its memory, and a
table that it returns is one cycle through all regions. -/
def CoversRegions (len : ℕ) : Option (Except Int32 (ℕ → ℕ)) → Prop
  | none => False
  | some (.error _) => True
  | some (.ok pointers) => VisitsAll len (getNextPtr pointers)

/-- **The chase covers the working set** exactly when the blocks that are allocated have
the size of the table, and the exchanges of the shuffle, behind the rotation by one, make
one cycle of all regions. -/
theorem chase_covers_iff {arraySize segmentSize : UInt64} (hpos : 0 < arraySize.toNat)
    (hmul : arraySize % segmentSize = 0) (rand : ℕ → ℕ) (malloc : ℕ → Option (ℕ → ℕ)) :
    CoversRegions (arraySize / segmentSize).toNat
        (initializePointerChasingAtClient arraySize segmentSize rand malloc) ↔
      (malloc 0 ≠ none → (arraySize / segmentSize).toNat < 2 ^ 61 ∧ (malloc 1 ≠ none →
        (chasePerm (arraySize / segmentSize).toNat rand).IsCycleOn Set.univ)) := by
  obtain ⟨-, hlen⟩ := numRegions_pos hpos hmul
  have : NeZero (arraySize / segmentSize).toNat := ⟨hlen.ne'⟩
  have hcovers : ∀ memory, VisitsAll (arraySize / segmentSize).toNat (getNextPtr (linkPointers
      (arraySize / segmentSize).toNat (shuffleIndices (arraySize / segmentSize).toNat rand) memory)) ↔
        (chasePerm (arraySize / segmentSize).toNat rand).IsCycleOn Set.univ :=
    fun memory => (agrees_chasePerm hlen rand memory).visitsAll_iff
  rw [initializePointerChasingAtClient_eq hpos hmul]
  generalize (arraySize / segmentSize).toNat = len at hcovers ⊢
  -- the calls of `malloc` and the size of the blocks, in the order of the code
  by_cases hfirst : malloc 0 = none
  · simp [hfirst, CoversRegions]
  by_cases hsize : len < 2 ^ 61
  · rw [if_neg hfirst, if_neg (not_not.mpr hsize)]
    cases malloc 1 with
    | none => simpa [CoversRegions] using fun _ => hsize
    | some memory =>
      simp only [Option.elim_some, CoversRegions, hfirst, hsize, ne_eq, not_false_eq_true,
        reduceCtorEq, true_and, forall_const]
      exact hcovers memory
  · rw [if_neg hfirst, if_pos hsize]
    simp only [CoversRegions, hfirst, hsize, ne_eq, not_false_eq_true, false_and, imp_false,
      not_true_eq_false]

/-- A shuffle that exchanges nothing leaves the regions in order. -/
theorem chase_covers_of_no_exchange {len : ℕ} {rand : ℕ → ℕ}
    (h : ∀ i : Fin len, rand i % (len - i) = 0) : (chasePerm len rand).IsCycleOn Set.univ := by
  have htarget : ∀ i : Fin len, swapTarget rand i = i := fun i => Fin.ext (by simp [swapTarget, h i])
  have hperm : shufflePerm len rand = 1 := by
    refine List.prod_eq_one fun p hp => ?_
    obtain ⟨i, -, rfl⟩ := List.mem_map.mp hp
    rw [htarget]
    exact Equiv.swap_self i
  rw [chasePerm, hperm, one_mul]
  exact isCycleOn_finRotate len

/-- An odd number of exchanges never gives a single cycle. -/
theorem chase_broken_of_odd_exchanges {len : ℕ} (hlen : 0 < len) {rand : ℕ → ℕ}
    (hodd : Odd ((List.finRange len).countP fun i : Fin len => rand i % (len - i) ≠ 0)) :
    ¬ (chasePerm len rand).IsCycleOn Set.univ := by
  intro hcycle
  have : NeZero len := ⟨hlen.ne'⟩
  have hcount : (List.finRange len).countP (fun i => swapTarget rand i ≠ i) =
      (List.finRange len).countP fun i : Fin len => rand i % (len - i) ≠ 0 := by
    refine List.countP_congr fun i _ => ?_
    simp [swapTarget, Fin.ext_iff]
  -- a cycle of `len` has sign `(-1) ^ (len - 1)`, the rotation has it too
  have hsign := sign_of_isCycleOn hcycle
  rw [chasePerm, Perm.sign_mul, shufflePerm, sign_prod_swap, hcount, sign_finRotate,
    hodd.neg_one_pow] at hsign
  have hunit : ((-1 : ℤˣ) ^ (len - 1)) = 1 ∨ ((-1 : ℤˣ) ^ (len - 1)) = -1 := Int.units_eq_one_or _
  rcases hunit with hone | hminus
  · exact absurd (hone ▸ hsign) (by decide)
  · exact absurd (hminus ▸ hsign) (by decide)

/-- Sixteen regions that `rand()` does not exchange: the chase goes through all of them. -/
theorem chase_covers_iff_sixteen : CoversRegions (16384 / 1024 : UInt64).toNat
    (initializePointerChasingAtClient 16384 1024 (fun _ => 0) fun _ => some fun _ => 0) := by
  apply (chase_covers_iff (by decide) (by decide) _ _).mpr
  exact fun _ => ⟨by decide, fun _ => chase_covers_of_no_exchange fun i => Nat.zero_mod _⟩

/-- Of two regions that are exchanged the chase visits the first one only. -/
theorem chase_broken_two_regions :
    ¬ ∀ (arraySize segmentSize : UInt64) (rand : ℕ → ℕ) (malloc : ℕ → Option (ℕ → ℕ)),
      0 < arraySize.toNat → arraySize % segmentSize = 0 →
      CoversRegions (arraySize / segmentSize).toNat
        (initializePointerChasingAtClient arraySize segmentSize rand malloc) := by
  intro hclaim
  have hcovers := hclaim 2048 1024 (fun _ => 1) (fun _ => some fun _ => 0) (by decide) (by decide)
  have htable : initializePointerChasingAtClient 2048 1024 (fun _ => 1) (fun _ => some fun _ => 0) =
      some (.ok (linkPointers 2 (shuffleIndices 2 fun _ => 1) fun _ => 0)) := rfl
  rw [htable] at hcovers
  obtain ⟨hvisit, -⟩ := hcovers
  obtain ⟨k, ⟨hk, hone⟩, -⟩ := hvisit 1 (by decide)
  have hlt : k < 2 := hk
  -- region 0 points to itself
  interval_cases k
  · exact absurd hone (by decide)
  · exact absurd hone (by decide)

end Mlx5Netperf
