import Mathlib.Data.List.Basic
import Mathlib.Data.List.Chain

/-!
# Null-Terminated Lists

Chains of nodes linked by a `next` pointer and closed by the null pointer, and
the loop `while (p != NULL) { body; p = p->next; }` over them. The loop is
bounded by fuel; a chain of `n` nodes needs fuel `n`, and the loop is then a
left fold over the nodes.
-/

namespace NullTerminated

variable {α σ : Type*}

/-- Following `next` from `p` meets exactly the nodes `as` and then the null pointer. -/
inductive IsChain (next : α → Option α) : Option α → List α → Prop where
  /-- The null pointer is the empty chain. -/
  | nil : IsChain next none []
  /-- A node followed by the chain its `next` points to. -/
  | cons {a : α} {as : List α} : IsChain next (next a) as → IsChain next (some a) (a :: as)

/-- The loop over a chain; `none` when the fuel runs out before the null pointer. -/
def traverse (next : α → Option α) (body : α → σ → σ) : ℕ → Option α → σ → Option σ
  | _, none, s => some s
  | 0, some _, _ => none
  | fuel + 1, some a, s => traverse next body fuel (next a) (body a s)

@[simp] theorem traverse_none (next : α → Option α) (body : α → σ → σ) (fuel : ℕ) (s : σ) :
    traverse next body fuel none s = some s := by
  cases fuel <;> rfl

/-- **Enough fuel**: the loop over a chain is the fold over its nodes. -/
theorem IsChain.traverse_eq {next : α → Option α} {p : Option α} {as : List α}
    (h : IsChain next p as) (body : α → σ → σ) {fuel : ℕ} (hfuel : as.length ≤ fuel) (s : σ) :
    traverse next body fuel p s = some (as.foldl (fun s a => body a s) s) := by
  -- along the chain, a unit of fuel for each node
  induction h generalizing fuel s with
  | nil => simp
  | @cons a as _ ih =>
    cases fuel with
    | zero => simp at hfuel
    | succ fuel => exact ih (by simpa using hfuel) (body a s)

/-- A loop that ended ran over a chain. -/
theorem exists_chain_of_traverse {next : α → Option α} {body : α → σ → σ} {fuel : ℕ}
    {p : Option α} {s t : σ} (h : traverse next body fuel p s = some t) :
    ∃ as, IsChain next p as ∧ as.length ≤ fuel ∧ t = as.foldl (fun s a => body a s) s := by
  -- the rounds that were made spell the chain
  induction fuel generalizing p s with
  | zero =>
    cases p with
    | none => exact ⟨[], .nil, Nat.le_refl _, by simpa using h.symm⟩
    | some a => simp [traverse] at h
  | succ fuel ih =>
    cases p with
    | none => exact ⟨[], .nil, by simp, by simpa using h.symm⟩
    | some a =>
      obtain ⟨as, hchain, hlen, ht⟩ := ih h
      exact ⟨a :: as, .cons hchain, by simpa using hlen, ht⟩

/-- The nodes of a chain are determined by where it starts. -/
theorem IsChain.unique {next : α → Option α} {p : Option α} {as bs : List α}
    (ha : IsChain next p as) (hb : IsChain next p bs) : as = bs := by
  induction ha generalizing bs with
  | nil => cases hb; rfl
  | cons _ ih =>
    cases hb with
    | cons htail => rw [ih htail]

/-- A node that points nowhere is a chain of its own. -/
theorem isChain_singleton {next : α → Option α} {a : α} (h : next a = none) :
    IsChain next (some a) [a] := by
  refine .cons ?_
  rw [h]
  exact .nil

/-- The node of a chain of one points nowhere. -/
theorem IsChain.of_singleton {next : α → Option α} {a b : α} (h : IsChain next (some a) [b]) :
    next a = none ∧ b = a := by
  cases h with
  | cons htail =>
    generalize next a = p at htail
    cases htail
    exact ⟨rfl, rfl⟩

/-- From each of its nodes on, a chain is a chain. -/
theorem IsChain.of_append {next : α → Option α} {p : Option α} {xs ys : List α} {a : α}
    (h : IsChain next p (xs ++ a :: ys)) : IsChain next (some a) (a :: ys) := by
  induction xs generalizing p with
  | nil =>
    cases h with
    | cons htail => exact .cons htail
  | cons x xs ih =>
    cases h with
    | cons htail => exact ih htail

/-- A chain that ends meets no node twice. -/
theorem IsChain.nodup {next : α → Option α} {p : Option α} {as : List α} (h : IsChain next p as) :
    as.Nodup := by
  induction h with
  | nil => exact .nil
  | @cons a as htail ih =>
    refine List.nodup_cons.mpr ⟨fun hmem => ?_, ih⟩
    -- met again, the node would be followed by itself and everything behind it
    obtain ⟨xs, ys, rfl⟩ := List.append_of_mem hmem
    have hsame := (IsChain.cons htail).unique htail.of_append
    have hlength := congrArg List.length hsame
    simp only [List.length_cons, List.length_append] at hlength
    omega

/-- A chain only depends on the `next` pointers of its own nodes. -/
theorem IsChain.congr {next next' : α → Option α} {p : Option α} {as : List α}
    (h : IsChain next p as) (heq : ∀ a ∈ as, next' a = next a) : IsChain next' p as := by
  induction h with
  | nil => exact .nil
  | @cons a as _ ih =>
    refine .cons ?_
    rw [heq a (List.mem_cons_self ..)]
    exact ih fun b hb => heq b (List.mem_cons_of_mem _ hb)

/-! ## Chains under construction -/

/-- Every node of the list points to the one behind it; the last may point anywhere. -/
def Linked (next : α → Option α) (as : List α) : Prop := as.IsChain fun a b => next a = some b

theorem linked_nil (next : α → Option α) : Linked next [] := .nil

/-- Only the nodes in front of the last one need their pointers. -/
theorem Linked.congr {next next' : α → Option α} {as : List α} (h : Linked next as)
    (heq : ∀ a ∈ as.dropLast, next' a = next a) : Linked next' as := by
  induction as with
  | nil => exact .nil
  | cons a as ih =>
    cases as with
    | nil => exact .singleton a
    | cons b as =>
      obtain ⟨hab, htail⟩ := List.isChain_cons_cons.mp h
      refine List.isChain_cons_cons.mpr ⟨?_, ih htail fun c hc => heq c ?_⟩
      · rw [heq a (by simp), hab]
      · rw [List.dropLast_cons_cons]
        exact List.mem_cons_of_mem _ hc

/-- Linking a node behind the last one. -/
theorem Linked.snoc {next : α → Option α} {as : List α} {b : α} (h : Linked next as)
    (hlast : ∀ a ∈ as.getLast?, next a = some b) : Linked next (as ++ [b]) := by
  refine List.isChain_append.mpr ⟨h, .singleton b, fun a ha c hc => ?_⟩
  obtain rfl : b = c := by simpa using hc
  exact hlast a ha

/-- **Closing the chain**: when the last node points nowhere, the nodes are a chain. -/
theorem Linked.isChain {next : α → Option α} {as : List α} (h : Linked next as)
    (hlast : ∀ a ∈ as.getLast?, next a = none) : IsChain next as.head? as := by
  induction as with
  | nil => exact .nil
  | cons a as ih =>
    cases as with
    | nil =>
      refine .cons ?_
      rw [hlast a (by simp)]
      exact .nil
    | cons b as =>
      obtain ⟨hab, htail⟩ := List.isChain_cons_cons.mp h
      refine .cons ?_
      rw [hab]
      exact ih htail fun c hc => hlast c (by simpa using hc)

end NullTerminated
