import Mathlib.Data.List.Nodup
import Mathlib.Data.List.Perm.Basic
import Mathlib.Logic.Relation

/-!
# Transition Systems

A system is a predicate on initial states and a step relation. The invariant
rule and the projection of one system onto another, each proved once.

Custody of items is the system that the pools of a program are instances of: a
fixed stock of items, each of which is at any time either free or out. Taking an
item hands out a free one, giving one back frees an item that is out. Whatever the
order of these steps, the two lists are a permutation of the stock.
-/

namespace Transition

variable {σ τ : Type*}

/-- The states a system can reach. -/
inductive Reachable (init : σ → Prop) (step : σ → σ → Prop) : σ → Prop where
  | init {s : σ} : init s → Reachable init step s
  | step {s t : σ} : Reachable init step s → step s t → Reachable init step t

variable {init : σ → Prop} {step : σ → σ → Prop} {init' : τ → Prop} {step' : τ → τ → Prop}

/-- **Invariant rule**: what holds initially and is kept by every step always holds. -/
theorem Reachable.invariant {P : σ → Prop} (hinit : ∀ s, init s → P s)
    (hstep : ∀ s t, P s → step s t → P t) {s : σ} (h : Reachable init step s) : P s := by
  induction h with
  | init hs => exact hinit _ hs
  | step _ hst ih => exact hstep _ _ ih hst

/-- Any number of further steps stays reachable. -/
theorem Reachable.steps {s t : σ} (h : Reachable init step s)
    (hsteps : Relation.ReflTransGen step s t) : Reachable init step t := by
  induction hsteps with
  | refl => exact h
  | tail _ hstep ih => exact ih.step hstep

/-- What is reachable by fewer steps is reachable by more. -/
theorem Reachable.mono {step₂ : σ → σ → Prop} (hstep : ∀ s t, step s t → step₂ s t) {s : σ}
    (h : Reachable init step s) : Reachable init step₂ s := by
  induction h with
  | init hs => exact .init hs
  | step _ hst ih => exact ih.step (hstep _ _ hst)

/-- What is reachable from a reachable state is reachable. -/
theorem Reachable.from_reachable {s t : σ} (h : Reachable init step s)
    (ht : Reachable (fun u => u = s) step t) : Reachable init step t := by
  induction ht with
  | init heq => exact heq ▸ h
  | step _ hstep ih => exact ih.step hstep

/-- **Projection**: when every step of one system, from a state with an invariant,
is a sequence of steps of another, seen through `f`, what the first reaches the
second reaches too. -/
theorem Reachable.project {f : σ → τ} {P : σ → Prop} (hP : ∀ s, Reachable init step s → P s)
    (hinit : ∀ s, init s → init' (f s))
    (hstep : ∀ s t, P s → step s t → Relation.ReflTransGen step' (f s) (f t)) {s : σ}
    (h : Reachable init step s) : Reachable init' step' (f s) := by
  induction h with
  | init hs => exact .init (hinit _ hs)
  | step hs hst ih => exact ih.steps (hstep _ _ (hP _ hs) hst)

end Transition

namespace Custody

variable {α : Type*}

/-- Who has the items: the free ones, the next one to be taken first, and those out. -/
structure Holding (α : Type*) where
  free : List α
  out : List α

/-- Everything in stock is free, or out. -/
def Holding.Has (h : Holding α) (stock : List α) : Prop := (h.free ++ h.out).Perm stock

/-! ## What custody says -/

namespace Holding.Has

variable {stock : List α} {h : Holding α}

theorem mem (hhas : h.Has stock) {a : α} : a ∈ stock ↔ a ∈ h.free ∨ a ∈ h.out := by
  rw [← hhas.mem_iff, List.mem_append]

/-- Without duplicates in stock, an item is at one place only. -/
theorem xor (hhas : h.Has stock) (hnodup : stock.Nodup) {a : α} (ha : a ∈ stock) :
    Xor (a ∈ h.free) (a ∈ h.out) := by
  have hdisjoint := (List.nodup_append'.mp (hhas.nodup_iff.mpr hnodup)).2.2
  rcases hhas.mem.mp ha with hfree | hout
  · exact .inl ⟨hfree, fun hout => hdisjoint hfree hout⟩
  · exact .inr ⟨hout, fun hfree => hdisjoint hfree hout⟩

/-- Nothing is free exactly when all is out. -/
theorem free_eq_nil_iff (hhas : h.Has stock) (hnodup : stock.Nodup) :
    h.free = [] ↔ ∀ a ∈ stock, a ∈ h.out := by
  constructor
  · intro hnil a ha
    exact (hhas.mem.mp ha).resolve_left (by simp [hnil])
  · intro hall
    rw [List.eq_nil_iff_forall_not_mem]
    intro a hfree
    -- it would be at both places
    have ha : a ∈ stock := hhas.mem.mpr (.inl hfree)
    rcases hhas.xor hnodup ha with honly | honly
    · exact honly.2 (hall a ha)
    · exact honly.2 hfree

end Holding.Has

/-! ## Taking and giving back -/

section

variable [DecidableEq α]

inductive Step : Holding α → Holding α → Prop where
  /-- Take the first free item. -/
  | take (item : α) (free out : List α) : Step ⟨item :: free, out⟩ ⟨free, item :: out⟩
  /-- Give an item back. -/
  | give (item : α) (free out : List α) : item ∈ out →
      Step ⟨free, out⟩ ⟨item :: free, out.erase item⟩

variable {stock : List α}

/-- A step moves one item and loses none. -/
theorem Holding.Has.step {h h' : Holding α} (hhas : h.Has stock) (hstep : Step h h') :
    h'.Has stock := by
  cases hstep with
  | take item free out => exact List.perm_middle.trans hhas
  | give item free out hmem =>
    -- the item was somewhere among those out
    have hfront : (free ++ out).Perm (free ++ (item :: out.erase item)) :=
      (List.perm_cons_erase hmem).append_left free
    exact (List.perm_middle.symm.trans hfront.symm).trans hhas

/-- **From a full stock on, every item stays free or out.** -/
theorem has_of_reachable {h : Holding α}
    (hreach : Transition.Reachable (fun s => s = ⟨stock, []⟩) Step h) : h.Has stock := by
  apply hreach.invariant
  · rintro s rfl
    simp [Holding.Has]
  · intro s t hs hst
    exact hs.step hst

end

end Custody
