import Mathlib.Algebra.Order.Group.Nat
import Mathlib.Data.List.Flatten
import Mathlib.Data.Nat.Basic

/-!
# Items Laid Out on Pages

A region of `n` pages is cut into items of one length. Each page is filled from
its start, and what is left at its end is too short for another item, so that no
item straddles two pages.
-/

namespace PageGrid

/-- The offsets of the items, page by page. -/
def offsets (page len n : ℕ) : List ℕ :=
  (List.range n).flatMap fun i => (List.range (page / len)).map fun j => page * i + len * j

variable {page len n : ℕ}

theorem mem_offsets {o : ℕ} :
    o ∈ offsets page len n ↔ ∃ i < n, ∃ j < page / len, page * i + len * j = o := by
  simp [offsets]

/-- As many on every page. -/
theorem length_offsets (page len n : ℕ) : (offsets page len n).length = page / len * n := by
  simp [offsets, List.length_flatMap, List.map_const', Nat.mul_comm]

/-- An item ends before its page does. -/
theorem end_le_page {j : ℕ} (hj : j < page / len) : len * j + len ≤ page :=
  calc len * j + len = len * (j + 1) := rfl
    _ ≤ len * (page / len) := Nat.mul_le_mul_left _ hj
    _ ≤ page := Nat.mul_div_le ..

/-- **No item straddles two pages.** -/
theorem page_of_mem {o : ℕ} (h : o ∈ offsets page len n) :
    ∃ i < n, page * i ≤ o ∧ o + len ≤ page * (i + 1) := by
  obtain ⟨i, hi, j, hj, rfl⟩ := mem_offsets.mp h
  refine ⟨i, hi, Nat.le_add_right .., ?_⟩
  have hend := end_le_page hj
  rw [Nat.mul_succ]
  omega

/-- Every item ends inside the region. -/
theorem end_le_region {o : ℕ} (h : o ∈ offsets page len n) : o + len ≤ page * n := by
  obtain ⟨i, hi, -, hend⟩ := page_of_mem h
  exact hend.trans (Nat.mul_le_mul_left _ hi)

/-- **The items lie one behind the other.** -/
theorem pairwise_offsets (page len n : ℕ) :
    (offsets page len n).Pairwise fun a b => a + len ≤ b := by
  rw [offsets, List.pairwise_flatMap]
  constructor
  case left =>
    -- on one page
    intro i _
    rw [List.pairwise_map]
    refine List.pairwise_lt_range.imp fun {j j'} hlt => ?_
    have hle : len * (j + 1) ≤ len * j' := Nat.mul_le_mul_left _ hlt
    rw [Nat.mul_succ] at hle
    omega
  case right =>
    -- on a page and a later one
    refine List.pairwise_lt_range.imp fun {i i'} hlt a ha b hb => ?_
    obtain ⟨j, hj, rfl⟩ := List.mem_map.mp ha
    obtain ⟨j', -, rfl⟩ := List.mem_map.mp hb
    have hend := end_le_page (List.mem_range.mp hj)
    have hle : page * (i + 1) ≤ page * i' := Nat.mul_le_mul_left _ hlt
    rw [Nat.mul_succ] at hle
    omega

/-- Where the pages start at multiples of their size, all bytes of an item have the
same page number. -/
theorem div_eq_of_mem {base o x : ℕ} (hbase : page ∣ base) (h : o ∈ offsets page len n)
    (hle : base + o ≤ x) (hlt : x < base + o + len) : x / page = (base + o) / page := by
  obtain ⟨i, -, hstart, hend⟩ := page_of_mem h
  obtain ⟨b, rfl⟩ := hbase
  -- what lies between the start and the end of page `b + i` of the address space
  have hpage : ∀ y, page * b + o ≤ y → y < page * b + o + len → y / page = b + i := by
    intro y hle hlt
    have hlow : (b + i) * page = page * b + page * i := by
      rw [Nat.mul_comm, Nat.mul_add]
    have hhigh : (b + i + 1) * page = page * b + page * (i + 1) := by
      rw [Nat.mul_comm, Nat.add_assoc, Nat.mul_add]
    exact Nat.div_eq_of_lt_le (by omega) (by omega)
  rw [hpage x hle hlt, hpage _ le_rfl (by omega)]

end PageGrid
