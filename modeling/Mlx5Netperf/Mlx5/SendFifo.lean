import Mlx5Netperf.Completion
import Mlx5Netperf.Lib.CircularRing

/-!
# The Send Queue, Abstractly

What a send queue is for: chains are posted one after the other on a line of
ring positions, they complete in the order they were posted, and a completed
chain is released. `SendFifo.Step` is that machine, driven by the events of the
trace; `SendFifo.Run` says that a trace is one of its runs.

Nothing here looks at counters, masks or the `buffers` array. The driver is
shown to follow the machine in `Mlx5Netperf.Mlx5.SendRing`.
-/

namespace Mlx5Netperf

/-- The ring positions that the sends take together. -/
def Send.total (ss : List Send) : ℕ := (ss.map (·.numWqes.toNat)).sum

@[simp] theorem Send.total_nil : Send.total [] = 0 := rfl

@[simp] theorem Send.total_cons (s : Send) (ss : List Send) :
    Send.total (s :: ss) = s.numWqes.toNat + Send.total ss := rfl

@[simp] theorem Send.total_append (ss ts : List Send) :
    Send.total (ss ++ ts) = Send.total ss + Send.total ts := by
  simp [Send.total]

/-- The ring slots that a send occupies on a ring of `n` blocks. -/
def Send.slots (n : ℕ) (s : Send) : Set ℕ := CircularRing.slots n s.sqHead.toNat s.numWqes.toNat

/-- The low 16 bits of the head, as the device reports a completion. -/
def Send.wqeCounter (s : Send) : UInt16 := s.sqHead.toUInt16

/-- The sends lie on the line one after the other, the first at position `p`. -/
def Send.Positions : ℕ → List Send → Prop
  | _, [] => True
  | p, s :: ss => s.sqHead = UInt32.ofNat p ∧ Positions (p + s.numWqes.toNat) ss

theorem Send.positions_append {p : ℕ} {ss ts : List Send} :
    Send.Positions p (ss ++ ts) ↔
      Send.Positions p ss ∧ Send.Positions (p + Send.total ss) ts := by
  induction ss generalizing p with
  | nil => simp [Send.Positions]
  | cons s ss ih => simp [Send.Positions, ih, Nat.add_assoc, and_assoc]

/-- Where a send lies on the line. -/
theorem Send.Positions.exists_of_mem {p : ℕ} {ss : List Send} (h : Send.Positions p ss) {s : Send}
    (hs : s ∈ ss) : ∃ pos, s.sqHead = UInt32.ofNat pos ∧ p ≤ pos ∧
      pos + s.numWqes.toNat ≤ p + Send.total ss := by
  induction ss generalizing p with
  | nil => simp at hs
  | cons t ss ih =>
    rcases List.mem_cons.mp hs with rfl | htail
    · exact ⟨p, h.1, le_rfl, by simp⟩
    · obtain ⟨pos, hpos, hlo, hhi⟩ := ih h.2 htail
      refine ⟨pos, hpos, by omega, ?_⟩
      rw [Send.total_cons]
      omega

/-! ## The machine -/

/-- The state of a send queue. -/
structure SendFifo where
  /-- the position of the oldest outstanding send -/
  start : ℕ
  /-- posted and not yet completed, oldest first -/
  outstanding : List Send
  /-- completed and not yet released, oldest first -/
  pending : List Addr

namespace SendFifo

/-- An empty queue at the start of the line. -/
def init : SendFifo := ⟨0, [], []⟩

/-- The position after the newest send. -/
def stop (q : SendFifo) : ℕ := q.start + Send.total q.outstanding

/-- What a queue of `n` blocks may do. -/
inductive Step (n : ℕ) : SendFifo → Event → SendFifo → Prop where
  /-- Post a chain behind the others, where there is room for it, with every
  completed chain released. -/
  | posted {q : SendFifo} {s : Send} (hpending : q.pending = [])
      (hhead : s.sqHead = UInt32.ofNat q.stop) (hpos : 0 < s.numWqes.toNat)
      (hroom : Send.total q.outstanding + s.numWqes.toNat ≤ n)
      (hfresh : s.mbuf ∉ q.outstanding.map Send.mbuf) :
      Step n q (.posted s) { q with outstanding := q.outstanding ++ [s] }
  /-- The oldest send completes. -/
  | gathered {p : ℕ} {s : Send} {rest : List Send} {pending : List Addr} :
      Step n ⟨p, s :: rest, pending⟩ (.gathered s.wqeCounter s.mbuf)
        ⟨p + s.numWqes.toNat, rest, pending ++ [s.mbuf]⟩
  /-- The oldest completed chain is released. -/
  | freed {p : ℕ} {outstanding : List Send} {m : Addr} {pending : List Addr} :
      Step n ⟨p, outstanding, m :: pending⟩ (.freed m) ⟨p, outstanding, pending⟩
  /-- Anything else leaves the queue alone. -/
  | quiet {q : SendFifo} {e : Event} (h : e.IsQuiet) : Step n q e q

/-- The trace drives an empty queue into this one. -/
inductive Run (n : ℕ) : List Event → SendFifo → Prop where
  | nil : Run n [] init
  | snoc {tr : List Event} {q q' : SendFifo} {e : Event} :
      Run n tr q → Step n q e q' → Run n (tr ++ [e]) q'

/-! ## What holds along every run -/

/-- The shape of a queue: its sends lie side by side within one lap of the
ring, and no chain is in it twice. -/
structure WellFormed (n : ℕ) (q : SendFifo) : Prop where
  positions : Send.Positions q.start q.outstanding
  fit : Send.total q.outstanding ≤ n
  pos : ∀ s ∈ q.outstanding, 0 < s.numWqes.toNat
  nodup : (q.pending ++ q.outstanding.map Send.mbuf).Nodup

theorem Step.wellFormed {n : ℕ} {q q' : SendFifo} {e : Event} (hstep : Step n q e q')
    (hq : q.WellFormed n) : q'.WellFormed n := by
  cases hstep with
  | @posted q s hpending hhead hpos hroom hfresh =>
    refine ⟨?_, ?_, ?_, ?_⟩
    · exact Send.positions_append.mpr ⟨hq.positions, hhead, trivial⟩
    · simpa using hroom
    · intro t ht
      rcases List.mem_append.mp ht with hold | hnew
      · exact hq.pos t hold
      · rw [List.mem_singleton.mp hnew]
        exact hpos
    · have hnodup := hq.nodup
      simp only [hpending, List.nil_append, List.map_append, List.map_cons, List.map_nil] at hnodup ⊢
      -- the new chain is none of the outstanding ones
      refine List.nodup_append.mpr ⟨hnodup, by simp, ?_⟩
      rintro a ha b hb rfl
      exact hfresh (List.mem_singleton.mp hb ▸ ha)
  | gathered =>
    -- the completed chain changes from outstanding to pending
    obtain ⟨hpositions, hfit, hpos, hnodup⟩ := hq
    refine ⟨hpositions.2, ?_, fun t ht => hpos t (List.mem_cons_of_mem _ ht), ?_⟩
    · simp only [Send.total_cons] at hfit
      simp only
      omega
    · simpa using hnodup
  | freed => exact ⟨hq.positions, hq.fit, hq.pos, (List.nodup_cons.mp hq.nodup).2⟩
  | quiet => exact hq

/-- **Every reachable queue is well formed.** -/
theorem Run.wellFormed {n : ℕ} {tr : List Event} {q : SendFifo} (h : Run n tr q) :
    q.WellFormed n := by
  induction h with
  | nil => exact ⟨trivial, by simp [init], by simp [init], by simp [init]⟩
  | snoc _ hstep ih => exact hstep.wellFormed ih

/-- **First in, first out**: the trace splits the sends into those completed, in
order, and those outstanding; the completed ones are released in order too. -/
theorem Run.split {n : ℕ} {tr : List Event} {q : SendFifo} (h : Run n tr q) :
    ∃ done : List Send, Event.posts tr = done ++ q.outstanding ∧
      Event.gathers tr = done.map (fun s => (s.wqeCounter, s.mbuf)) ∧
      Event.frees tr ++ q.pending = done.map Send.mbuf := by
  induction h with
  | nil => exact ⟨[], rfl, rfl, rfl⟩
  | @snoc tr q q' e _ hstep ih =>
    obtain ⟨done, hposts, hgathers, hfrees⟩ := ih
    cases hstep with
    | posted => exact ⟨done, by simp [hposts], by simp [hgathers], by simpa using hfrees⟩
    -- a completion moves the oldest send over to the completed ones
    | @gathered p s rest pending =>
      refine ⟨done ++ [s], ?_, ?_, ?_⟩
      · simp [hposts]
      · simp [hgathers]
      · simp [← hfrees]
    | freed => exact ⟨done, by simp [hposts], by simp [hgathers], by simpa using hfrees⟩
    | quiet hquiet =>
      refine ⟨done, ?_, ?_, ?_⟩
      · simp [hposts, Event.posts_of_isQuiet hquiet]
      · simp [hgathers, Event.gathers_of_isQuiet hquiet]
      · simpa [Event.frees_of_isQuiet hquiet] using hfrees

/-- Quiet events change nothing. -/
theorem Run.append_quiet {n : ℕ} {tr tail : List Event} {q : SendFifo} (h : Run n tr q)
    (hquiet : ∀ e ∈ tail, e.IsQuiet) : Run n (tr ++ tail) q := by
  induction tail generalizing tr with
  | nil => simpa using h
  | cons e tail ih =>
    have hstep := h.snoc (.quiet (hquiet e (List.mem_cons_self ..)))
    simpa using ih hstep fun e' he' => hquiet e' (List.mem_cons_of_mem _ he')

/-- The outstanding sends are those posted and not gathered. -/
theorem Run.length_outstanding {n : ℕ} {tr : List Event} {q : SendFifo} (h : Run n tr q) :
    (Event.gathers tr).length + q.outstanding.length = (Event.posts tr).length := by
  obtain ⟨done, hposts, hgathers, -⟩ := h.split
  simp [hposts, hgathers]

/-- Every moment of a run was itself the end of a run. -/
theorem Run.of_prefix {n : ℕ} {tr tr' : List Event} {q : SendFifo} (h : Run n tr q)
    (hpre : tr' <+: tr) : ∃ q', Run n tr' q' := by
  induction h with
  | nil => exact ⟨init, List.prefix_nil.mp hpre ▸ .nil⟩
  | snoc hrun hstep ih =>
    rcases List.prefix_concat_iff.mp hpre with rfl | hshort
    · exact ⟨_, hrun.snoc hstep⟩
    · exact ih hshort

/-- A chain that is released was waiting for it. -/
theorem Run.pending_of_freed {n : ℕ} {tr : List Event} {m : Addr} {q : SendFifo}
    (h : Run n (tr ++ [.freed m]) q) : ∃ q₀, Run n tr q₀ ∧ m ∈ q₀.pending := by
  generalize htr : tr ++ [.freed m] = tr' at h
  cases h with
  | nil => simp at htr
  | snoc hrun hstep =>
    obtain ⟨rfl, rfl⟩ := List.append_singleton_inj.mp htr
    cases hstep with
    | freed => exact ⟨_, hrun, List.mem_cons_self ..⟩
    | quiet hquiet => exact hquiet.elim

/-! ## Ring slots -/

/-- Sends side by side within one lap of the ring share no slot. -/
theorem pairwise_disjoint_slots {n p : ℕ} {ss : List Send} (hn : n ∣ 2 ^ 32)
    (hpositions : Send.Positions p ss) (hfit : Send.total ss ≤ n) :
    ss.Pairwise (fun a b => Disjoint (a.slots n) (b.slots n)) := by
  -- each send starts where the one before it ended
  have hslots : ∀ {p : ℕ} {ss : List Send}, Send.Positions p ss →
      ss.map (Send.slots n) =
        (CircularRing.spans p (ss.map (·.numWqes.toNat))).map
          fun a => CircularRing.slots n a.1 a.2 := by
    intro p ss
    induction ss generalizing p with
    | nil => simp
    | cons s ss ih =>
      rintro ⟨hhead, htail⟩
      have hs : s.slots n = CircularRing.slots n p s.numWqes.toNat :=
        CircularRing.slots_congr (by rw [hhead, WordArith.toNat_ofNat_mod hn])
      simp [ih htail, hs]
  have hdisjoint := CircularRing.spans_pairwise_disjoint (p := p) hfit
  rw [← List.pairwise_map, ← hslots hpositions, List.pairwise_map] at hdisjoint
  exact hdisjoint

end SendFifo

end Mlx5Netperf
