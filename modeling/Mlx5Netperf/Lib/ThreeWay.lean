import Mathlib.Data.List.Sort
import Mathlib.Tactic.Linarith

/-!
# Three-Way Comparators

A sorting function that is given a comparator returns an ordered permutation
whenever the comparator is consistent on the elements. It puts them into the
order of their keys, whatever function it is, exactly when the comparator tells
which of two elements has the smaller key.
-/

namespace ThreeWay

variable {α : Type*}

/-- Negative for "before", zero for "equal", positive for "after". -/
abbrev Comparator (α : Type*) := α → α → ℤ

/-- The comparator orders the elements of a list. -/
structure Consistent (cmp : Comparator α) (l : List α) : Prop where
  antisymm : ∀ a ∈ l, ∀ b ∈ l, (cmp a b < 0 ↔ 0 < cmp b a)
  trans : ∀ a ∈ l, ∀ b ∈ l, ∀ c ∈ l, cmp a b ≤ 0 → cmp b c ≤ 0 → cmp a c ≤ 0

/-- A function that sorts every list on which its comparator is consistent. -/
def SortsConsistent (sort : Comparator α → List α → List α) : Prop :=
  ∀ cmp l, Consistent cmp l → (sort cmp l).Perm l ∧ (sort cmp l).Pairwise fun a b => cmp a b ≤ 0

section Key

variable (key : α → ℕ)

/-- The keys ascend. -/
def Ascending (l : List α) : Prop := l.Pairwise fun a b => key a ≤ key b

/-- The comparator tells the smaller of two keys. -/
def Faithful (cmp : Comparator α) (l : List α) : Prop :=
  ∀ a ∈ l, ∀ b ∈ l, key a < key b → cmp a b < 0 ∧ 0 < cmp b a

/-- The elements in ascending order of their keys. -/
def sortByKey (l : List α) : List α := l.mergeSort fun a b => key a ≤ key b

variable {key} {cmp : Comparator α} {l : List α}

theorem perm_sortByKey (l : List α) : (sortByKey key l).Perm l := List.mergeSort_perm ..

theorem ascending_sortByKey (l : List α) : Ascending key (sortByKey key l) := by
  have hsorted := @List.pairwise_mergeSort _ (fun a b => decide (key a ≤ key b))
    (fun a b c hab hbc => decide_eq_true ((of_decide_eq_true hab).trans (of_decide_eq_true hbc)))
    (fun a b => by simpa using Nat.le_total (key a) (key b)) l
  exact hsorted.imp of_decide_eq_true

/-- The ascending order of a list is unique. -/
theorem Ascending.eq_sortByKey (hkey : Function.Injective key) {l' : List α} (h : Ascending key l')
    (hperm : l'.Perm l) : l' = sortByKey key l := by
  apply List.Perm.eq_of_pairwise ?_ h (ascending_sortByKey l) (hperm.trans (perm_sortByKey l).symm)
  intro a b _ _ hab hba
  exact hkey (Nat.le_antisymm hab hba)

/-- A faithful comparator is consistent. -/
theorem Faithful.consistent (h : Faithful key cmp l) (hkey : Function.Injective key)
    (hrefl : ∀ a, cmp a a = 0) : Consistent cmp l := by
  -- the sign of the comparator is that of the difference of the keys
  have hneg : ∀ a ∈ l, ∀ b ∈ l, (cmp a b < 0 ↔ key a < key b) := by
    intro a ha b hb
    rcases Nat.lt_trichotomy (key a) (key b) with hlt | heq | hgt
    · exact iff_of_true (h a ha b hb hlt).1 hlt
    · obtain rfl := hkey heq
      simp [hrefl]
    · exact iff_of_false (not_lt.mpr (h b hb a ha hgt).2.le) (not_lt.mpr hgt.le)
  have hpos : ∀ a ∈ l, ∀ b ∈ l, (0 < cmp a b ↔ key b < key a) := by
    intro a ha b hb
    rcases Nat.lt_trichotomy (key a) (key b) with hlt | heq | hgt
    · exact iff_of_false (not_lt.mpr (h a ha b hb hlt).1.le) (not_lt.mpr hlt.le)
    · obtain rfl := hkey heq
      simp [hrefl]
    · exact iff_of_true (h b hb a ha hgt).2 hgt
  constructor
  case antisymm => exact fun a ha b hb => (hneg a ha b hb).trans (hpos b hb a ha).symm
  case trans =>
    intro a ha b hb c hc hab hbc
    rw [← not_lt, hpos _ ha _ hb] at hab
    rw [← not_lt, hpos _ hb _ hc] at hbc
    rw [← not_lt, hpos _ ha _ hc]
    omega

/-- **With a faithful comparator** every sorting function returns the ascending order. -/
theorem Faithful.sort_eq (h : Faithful key cmp l) (hkey : Function.Injective key)
    (hrefl : ∀ a, cmp a a = 0) {sort : Comparator α → List α → List α}
    (hsort : SortsConsistent sort) : sort cmp l = sortByKey key l := by
  obtain ⟨hperm, hsorted⟩ := hsort cmp l (h.consistent hkey hrefl)
  apply Ascending.eq_sortByKey hkey ?_ hperm
  apply hsorted.imp_of_mem
  intro a b ha hb hle
  -- two elements in the wrong order would be "after" each other
  by_contra hgt
  have hafter := (h b (hperm.mem_iff.mp hb) a (hperm.mem_iff.mp ha) (not_le.mp hgt)).2
  exact absurd hle (not_le.mpr hafter)

/-! ## A contrary sorting function -/

/-- Before, or equal and with the greater key: the order that breaks ties the wrong way. -/
def ContraryLe (key : α → ℕ) (cmp : Comparator α) (a b : α) : Prop :=
  cmp a b < 0 ∨ cmp a b = 0 ∧ key b ≤ key a

instance (key : α → ℕ) (cmp : Comparator α) (a b : α) : Decidable (ContraryLe key cmp a b) :=
  inferInstanceAs (Decidable (_ ∨ _))

theorem Consistent.contraryLe_total (h : Consistent cmp l) {a b : α} (ha : a ∈ l) (hb : b ∈ l) :
    ContraryLe key cmp a b ∨ ContraryLe key cmp b a := by
  have hab := h.antisymm a ha b hb
  have hba := h.antisymm b hb a ha
  unfold ContraryLe
  omega

theorem Consistent.contraryLe_trans (h : Consistent cmp l) {a b c : α} (ha : a ∈ l) (hb : b ∈ l)
    (hc : c ∈ l) (hab : ContraryLe key cmp a b) (hbc : ContraryLe key cmp b c) :
    ContraryLe key cmp a c := by
  have hac := h.trans a ha b hb c hc
  -- were the outer two equal, so would be all three
  have hba := h.trans b hb c hc a ha
  have hcb := h.trans c hc a ha b hb
  have hsab := h.antisymm a ha b hb
  have hsbc := h.antisymm b hb c hc
  have hsac := h.antisymm a ha c hc
  have hsca := h.antisymm c hc a ha
  unfold ContraryLe at *
  omega

open Classical in
/-- A sorting function that puts equal elements into descending order, and
everything when the comparator is not consistent. -/
noncomputable def contrarySort (key : α → ℕ) (cmp : Comparator α) (l : List α) : List α :=
  if Consistent cmp l then
    (l.attach.mergeSort fun a b => ContraryLe key cmp a.1 b.1).map Subtype.val
  else (sortByKey key l).reverse

theorem Consistent.contrarySort (h : Consistent cmp l) :
    (contrarySort key cmp l).Perm l ∧ (contrarySort key cmp l).Pairwise (ContraryLe key cmp) := by
  have hsort : ThreeWay.contrarySort key cmp l =
      (l.attach.mergeSort fun a b => ContraryLe key cmp a.1 b.1).map Subtype.val := if_pos h
  rw [hsort]
  constructor
  -- `attach` lets the merge sort see that the elements are of the list
  · have hperm := (List.mergeSort_perm l.attach fun a b => ContraryLe key cmp a.1 b.1).map
      Subtype.val
    rwa [List.attach_map_subtype_val] at hperm
  · have hsorted := @List.pairwise_mergeSort { x // x ∈ l }
      (fun a b => decide (ContraryLe key cmp a.1 b.1))
      (fun a b c hab hbc => decide_eq_true
        (h.contraryLe_trans a.2 b.2 c.2 (of_decide_eq_true hab) (of_decide_eq_true hbc)))
      (fun a b => by simpa using h.contraryLe_total a.2 b.2) l.attach
    exact List.pairwise_map.mpr (hsorted.imp of_decide_eq_true)

theorem sortsConsistent_contrarySort (key : α → ℕ) : SortsConsistent (contrarySort key) := by
  intro cmp l h
  obtain ⟨hperm, hsorted⟩ := @Consistent.contrarySort _ key _ _ h
  refine ⟨hperm, hsorted.imp ?_⟩
  rintro a b (hbefore | ⟨hequal, -⟩)
  · exact hbefore.le
  · exact hequal.le

/-- Of two elements with different keys, the smaller comes first in an ascending list. -/
theorem Ascending.pairwise_of_lt {R : α → α → Prop} {l' : List α} (h : Ascending key l')
    (hR : l'.Pairwise R) {a b : α} (ha : a ∈ l') (hb : b ∈ l') (hlt : key a < key b) : R a b := by
  induction l' with
  | nil => exact absurd ha List.not_mem_nil
  | cons x l' ih =>
    obtain ⟨hfirst, hrest⟩ := List.pairwise_cons.mp h
    obtain ⟨hRfirst, hRrest⟩ := List.pairwise_cons.mp hR
    rcases List.mem_cons.mp ha with rfl | ha'
    · rcases List.mem_cons.mp hb with rfl | hb'
      · exact absurd hlt (lt_irrefl _)
      · exact hRfirst b hb'
    · rcases List.mem_cons.mp hb with rfl | hb'
      · exact absurd (hfirst a ha') (not_le.mpr hlt)
      · exact ih hrest hRrest ha' hb'

/-- **When sorting yields ascending keys**, whatever the sorting function: exactly
when the comparator is faithful. -/
theorem ascending_iff_faithful (hkey : Function.Injective key) (hrefl : ∀ a, cmp a a = 0) :
    (∀ sort, SortsConsistent sort → Ascending key (sort cmp l)) ↔ Faithful key cmp l := by
  constructor
  · intro h a ha b hb hlt
    have hascending := h _ (sortsConsistent_contrarySort key)
    by_cases hcons : Consistent cmp l
    case pos =>
      obtain ⟨hperm, hsorted⟩ := @Consistent.contrarySort _ key _ _ hcons
      have hle := hascending.pairwise_of_lt hsorted (hperm.mem_iff.mpr ha) (hperm.mem_iff.mpr hb) hlt
      have hbefore : cmp a b < 0 := by
        -- a tie would have been broken the other way
        rcases hle with hbefore | ⟨-, hge⟩
        · exact hbefore
        · exact absurd hge (not_le.mpr hlt)
      exact ⟨hbefore, (hcons.antisymm a ha b hb).mp hbefore⟩
    case neg =>
      -- the reversed list ascends only if no two keys differ
      have hreverse : contrarySort key cmp l = (sortByKey key l).reverse := if_neg hcons
      rw [hreverse] at hascending
      have hdescending : (sortByKey key l).reverse.Pairwise fun a b => key b ≤ key a :=
        List.pairwise_reverse.mpr (ascending_sortByKey l)
      have hmem : ∀ x ∈ l, x ∈ (sortByKey key l).reverse := fun x hx =>
        List.mem_reverse.mpr ((perm_sortByKey l).mem_iff.mpr hx)
      exact absurd (hascending.pairwise_of_lt hdescending (hmem a ha) (hmem b hb) hlt)
        (not_le.mpr hlt)
  · intro h sort hsort
    rw [h.sort_eq hkey hrefl hsort]
    exact ascending_sortByKey l

end Key

end ThreeWay
