import Mlx5Netperf.Lib.CircularRing

/-!
# Rings Read by Laps

A producer puts the entries number `0, 1, 2, …` into a ring of `n` slots, entry
`k` into slot `k % n`. A consumer walks behind it and has nothing to go by but
the entries themselves: `valid k e` is its guess, from a mark in `e`, that `e` is
the entry number `k`.

`Marked` says what the marks have to tell apart: an entry from the one a lap
earlier in its slot, and the first lap from what the slots held initially. A
producer that never runs more than a lap ahead is then read without loss.
-/

namespace LapRing

variable {ε : Type*} {n : ℕ} {initial ring : ℕ → ε} {written : List ε} {valid : ℕ → ε → Prop}

/-- The ring after `written` went into it: the entries of the last lap are in
their slots, and a slot not reached yet is as it was. -/
structure Holds (n : ℕ) (initial ring : ℕ → ε) (written : List ε) : Prop where
  kept : ∀ k e, written[k]? = some e → written.length ≤ k + n → ring (k % n) = e
  untouched : ∀ s < n, written.length ≤ s → ring s = initial s

/-- The marks of the entries are those of their own numbers and of no number a
lap later; what the slots held first has no mark of the first lap. -/
structure Marked (n : ℕ) (valid : ℕ → ε → Prop) (initial : ℕ → ε) (written : List ε) : Prop where
  own : ∀ k e, written[k]? = some e → valid k e
  stale : ∀ k e, written[k]? = some e → ¬ valid (k + n) e
  unwritten : ∀ s < n, ¬ valid s (initial s)

/-- What a consumer at `head` reads: entries up to its budget, until one is not valid. -/
def scan (n : ℕ) (valid : ℕ → ε → Prop) [∀ k e, Decidable (valid k e)] (ring : ℕ → ε) :
    ℕ → ℕ → List ε
  | 0, _ => []
  | budget + 1, head =>
    if valid head (ring (head % n)) then ring (head % n) :: scan n valid ring budget (head + 1)
    else []

/-! ## Writing -/

/-- An entry of a list that grew by one is an old one or the new one. -/
theorem getElem?_concat_cases {xs : List ε} {x e : ε} {k : ℕ} (h : (xs ++ [x])[k]? = some e) :
    (k < xs.length ∧ xs[k]? = some e) ∨ (k = xs.length ∧ e = x) := by
  rcases Nat.lt_or_ge k xs.length with hlt | hge
  · rw [List.getElem?_append_left hlt] at h
    exact .inl ⟨hlt, h⟩
  · have hlen := (List.getElem?_eq_some_iff.mp h).1
    rw [List.length_append, List.length_singleton] at hlen
    obtain rfl : k = xs.length := by omega
    rw [List.getElem?_concat_length] at h
    exact .inr ⟨rfl, (Option.some.inj h).symm⟩

theorem Holds.nil : Holds n initial initial [] := ⟨by simp, fun _ _ _ => rfl⟩

/-- **One entry more** overwrites the entry a lap earlier and no other. -/
theorem Holds.write (h : Holds n initial ring written) (e : ε) :
    Holds n initial (Function.update ring (written.length % n) e) (written ++ [e]) := by
  constructor
  case kept =>
    intro k e' hk hlap
    rw [List.length_append, List.length_singleton] at hlap
    rcases getElem?_concat_cases hk with ⟨hlt, hold⟩ | ⟨rfl, rfl⟩
    · -- an older entry, less than a lap behind: another slot
      rw [Function.update_of_ne (CircularRing.mod_ne_of_lt hlt (by omega))]
      exact h.kept k e' hold (by omega)
    · exact Function.update_self ..
  case untouched =>
    intro s hs hlen
    rw [List.length_append, List.length_singleton] at hlen
    -- a slot not reached yet is not the one that is written
    have hne : s ≠ written.length % n := by
      rw [Nat.mod_eq_of_lt (by omega)]
      omega
    rw [Function.update_of_ne hne]
    exact h.untouched s hs (by omega)

theorem Marked.nil (h : ∀ s < n, ¬ valid s (initial s)) : Marked n valid initial [] :=
  ⟨by simp, by simp, h⟩

/-- An entry with the mark of its own number keeps the marks. -/
theorem Marked.write (h : Marked n valid initial written) {e : ε} (hown : valid written.length e)
    (hstale : ¬ valid (written.length + n) e) : Marked n valid initial (written ++ [e]) := by
  constructor
  case own =>
    intro k e' hk
    rcases getElem?_concat_cases hk with ⟨-, hold⟩ | ⟨rfl, rfl⟩
    · exact h.own k e' hold
    · exact hown
  case stale =>
    intro k e' hk
    rcases getElem?_concat_cases hk with ⟨-, hold⟩ | ⟨rfl, rfl⟩
    · exact h.stale k e' hold
    · exact hstale
  case unwritten => exact h.unwritten

/-! ## Reading -/

/-- At an entry that was not written yet the consumer stops. -/
theorem not_valid_at_end (hholds : Holds n initial ring written)
    (hmarked : Marked n valid initial written) (hn : 0 < n) :
    ¬ valid written.length (ring (written.length % n)) := by
  rcases Nat.lt_or_ge written.length n with hfirst | hlater
  · rw [Nat.mod_eq_of_lt hfirst, hholds.untouched _ hfirst le_rfl]
    exact hmarked.unwritten _ hfirst
  · -- the slot still holds the entry of the lap before
    obtain ⟨k, hk⟩ : ∃ k, written.length = k + n := ⟨written.length - n, by omega⟩
    obtain ⟨e, he⟩ : ∃ e, written[k]? = some e := ⟨written[k], List.getElem?_eq_getElem (by omega)⟩
    have hring : ring (written.length % n) = e := by
      rw [hk, Nat.add_mod_right]
      exact hholds.kept k e he hk.le
    rw [hring, hk]
    exact hmarked.stale k e he

variable [∀ k e, Decidable (valid k e)]

/-- **The consumer reads what was written**, from where it stands, in order, and
stops at its budget or at the first entry not written yet. -/
theorem scan_eq (hholds : Holds n initial ring written) (hmarked : Marked n valid initial written)
    (hn : 0 < n) {budget read : ℕ} (hread : read ≤ written.length)
    (hlap : written.length ≤ read + n) :
    scan n valid ring budget read = (written.drop read).take budget := by
  induction budget generalizing read with
  | zero => simp [scan]
  | succ budget ih =>
    rcases Nat.lt_or_ge read written.length with hmore | hend
    · obtain ⟨e, he⟩ : ∃ e, written[read]? = some e :=
        ⟨written[read], List.getElem?_eq_getElem hmore⟩
      -- the entry is of the last lap, so still in its slot
      have hring : ring (read % n) = e := hholds.kept read e he hlap
      have hdrop : written.drop read = e :: written.drop (read + 1) := by
        rw [List.drop_eq_getElem_cons hmore]
        exact congrArg (· :: _) (List.getElem?_eq_some_iff.mp he).2
      rw [scan, hring, if_pos (hmarked.own read e he), ih hmore (by omega), hdrop,
        List.take_succ_cons]
    · obtain rfl : read = written.length := by omega
      rw [scan, if_neg (not_valid_at_end hholds hmarked hn), List.drop_length, List.take_nil]

end LapRing
