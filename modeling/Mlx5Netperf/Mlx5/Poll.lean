import Mlx5Netperf.Mlx5.GatherRx

/-!
# Polling a Completion Queue

`mlx5_gather_completions` and `mlx5_gather_rx` walk their queues in the same way.
A `Poller` is what they differ in; its loop is said once to take exactly the
entries that `Cq.poll` finds, which depends on the queue alone.
-/

namespace Mlx5Netperf

/-- The opcode of an entry, whoever owns it. -/
def Mlx5Cqe64.opcode (cqe : Mlx5Cqe64) : UInt8 := (cqe.opOwn &&& 0xf0) >>> 4

/-- Mixing the invalid opcode in leaves the invalid opcode. -/
theorem invalid_or_opcode (cqe : Mlx5Cqe64) : mlx5CqeInvalid ||| cqe.opcode = mlx5CqeInvalid := by
  have hbytes : ∀ byte : Fin 256, mlx5CqeInvalid ||| ((UInt8.ofFin byte &&& 0xf0) >>> 4) =
      mlx5CqeInvalid := by decide +kernel
  exact hbytes cqe.opOwn.toFin

/-- A status is the invalid opcode or the entry's own. -/
theorem cqeStatus_cases (cqe : Mlx5Cqe64) (cqeCnt head : UInt32) :
    cqeStatus cqe cqeCnt head = mlx5CqeInvalid ∨ cqeStatus cqe cqeCnt head = cqe.opcode := by
  -- the ownership test mixes the invalid opcode in, or nothing
  have hmix : ∀ (c : Prop) [Decidable c],
      (if c then mlx5CqeInvalid else 0) ||| cqe.opcode = mlx5CqeInvalid ∨
        (if c then mlx5CqeInvalid else 0) ||| cqe.opcode = cqe.opcode := by
    intro c _
    by_cases hc : c
    · exact .inl (by rw [if_pos hc, invalid_or_opcode])
    · exact .inr (by rw [if_neg hc, UInt8.zero_or])
  exact hmix _

/-- The entries from `head` on, up to the budget or to one the device owns. -/
def Cq.poll (cq : Cq) : ℕ → UInt32 → List Mlx5Cqe64
  | 0, _ => []
  | budget + 1, head =>
    if cq.status head = mlx5CqeInvalid then [] else cq.at head :: cq.poll budget (head + 1)

/-- The entries at the heads `head, head + 1, …` -/
def Cq.entriesAt (cq : Cq) : UInt32 → ℕ → List Mlx5Cqe64
  | _, 0 => []
  | head, n + 1 => cq.at head :: cq.entriesAt (head + 1) n

/-- A poll reads the entries at consecutive heads. -/
theorem Cq.entriesAt_poll (cq : Cq) (budget : ℕ) (head : UInt32) :
    cq.entriesAt head (cq.poll budget head).length = cq.poll budget head := by
  induction budget generalizing head with
  | zero => rfl
  | succ budget ih =>
    rw [Cq.poll]
    split
    case isTrue => rfl
    case isFalse => rw [List.length_cons, Cq.entriesAt, ih]

/-- Polling the entries that the device reported finds them, as far as the budget goes. -/
theorem Cq.Reports.map_poll {cq : Cq} {opcode : UInt8} {head : UInt32} {counters : List UInt16}
    (hopcode : opcode ≠ mlx5CqeInvalid) (h : cq.Reports opcode head counters) (budget : ℕ) :
    (cq.poll budget head).map (fun cqe => be16toh cqe.wqeCounter) = counters.take budget := by
  induction budget generalizing head counters with
  | zero => rfl
  | succ budget ih =>
    cases counters with
    -- the device owns the entry behind the reports
    | nil => simp [Cq.poll, show cq.status head = mlx5CqeInvalid from h]
    | cons counter counters =>
      obtain ⟨hstatus, -, hcounter, hrest⟩ := h
      rw [Cq.poll, if_neg (by rwa [hstatus]), List.map_cons, ih hrest, hcounter,
        List.take_succ_cons]

/-- Each of them has the opcode reported and is not compressed. -/
theorem Cq.Reports.of_mem_poll {cq : Cq} {opcode : UInt8} {head : UInt32} {counters : List UInt16}
    (hopcode : opcode ≠ mlx5CqeInvalid) (h : cq.Reports opcode head counters) {budget : ℕ} :
    ∀ cqe ∈ cq.poll budget head, cqe.opcode = opcode ∧ mlx5GetCqeFormat cqe ≠ 3 := by
  induction budget generalizing head counters with
  | zero => simp [Cq.poll]
  | succ budget ih =>
    cases counters with
    | nil => simp [Cq.poll, show cq.status head = mlx5CqeInvalid from h]
    | cons counter counters =>
      obtain ⟨hstatus, hformat, -, hrest⟩ := h
      intro cqe hcqe
      rw [Cq.poll, if_neg (by rwa [hstatus])] at hcqe
      rcases List.mem_cons.mp hcqe with rfl | htail
      · refine ⟨?_, hformat⟩
        -- a status that is not invalid is the opcode of the entry
        rcases cqeStatus_cases (cq.at head) cq.cqeCnt head with hinvalid | hown
        · exact absurd (hstatus.symm.trans hinvalid) hopcode
        · exact hown.symm.trans hstatus
      · exact ih hrest cqe htail

/-- Later reports are found from a later head. -/
theorem Cq.Reports.drop {cq : Cq} {opcode : UInt8} {head : UInt32} {counters : List UInt16}
    (h : cq.Reports opcode head counters) {n : ℕ} (hn : n ≤ counters.length) :
    cq.Reports opcode (head + UInt32.ofNat n) (counters.drop n) := by
  induction n generalizing head counters with
  | zero => simpa using h
  | succ n ih =>
    cases counters with
    | nil => simp at hn
    | cons counter counters =>
      have hnext : head + UInt32.ofNat (n + 1) = head + 1 + UInt32.ofNat n := by
        rw [UInt32.ofNat_add]
        grind
      rw [hnext, List.drop_succ_cons]
      exact ih h.2.2.2 (Nat.succ_le_succ_iff.mp hn)

/-! ## Pollers -/

/-- An entry that a polling loop accepts, and the buffer it stands for. -/
structure Takes (opcode : UInt8) (buffers : ℕ → Option Addr) (wqeCnt : UInt32) (cqe : Mlx5Cqe64)
    (m : Addr) : Prop where
  opcode : cqe.opcode = opcode
  format : mlx5GetCqeFormat cqe ≠ 3
  buffer : buffers (wqeIdx (be16toh cqe.wqeCounter) wqeCnt).toNat = some m

/-- A loop over a completion queue: where it looks, and what it does with an entry. -/
structure Poller where
  cq : State → Cq
  head : State → UInt32
  buffers : State → ℕ → Option Addr
  wqeCnt : State → UInt32
  opcode : UInt8
  take : State → Mlx5Cqe64 → Addr → State
  opcode_ne : opcode ≠ mlx5CqeInvalid
  take_cq : ∀ st cqe m, cq (take st cqe m) = cq st
  take_head : ∀ st cqe m, head (take st cqe m) = head st + 1
  take_buffers : ∀ st cqe m, buffers (take st cqe m) = buffers st
  take_wqeCnt : ∀ st cqe m, wqeCnt (take st cqe m) = wqeCnt st

namespace Poller

variable (p : Poller)

/-- The loop; `none` is a panic or a null buffer. -/
def loop : ℕ → State → Option (List Addr × State)
  | 0, st => some ([], st)
  | budget + 1, st =>
    let cqe := (p.cq st).at (p.head st)
    let opcode := (p.cq st).status (p.head st)
    if opcode = mlx5CqeInvalid then some ([], st)
    else if opcode ≠ p.opcode then none
    else if mlx5GetCqeFormat cqe = 3 then none
    else
      match p.buffers st (wqeIdx (be16toh cqe.wqeCounter) (p.wqeCnt st)).toNat with
      | none => none
      | some m => (loop budget (p.take st cqe m)).map fun (ms, st) => (m :: ms, st)

/-- The entries that a call with this budget finds. -/
def entries (budget : ℕ) (st : State) : List Mlx5Cqe64 := (p.cq st).poll budget (p.head st)

/-- All of the entries taken, one after the other. -/
def takeAll (st : State) (cqes : List Mlx5Cqe64) (ms : List Addr) : State :=
  (cqes.zip ms).foldl (fun st packet => p.take st packet.1 packet.2) st

/-- What makes the loop accept an entry. -/
abbrev Accepts (st : State) : Mlx5Cqe64 → Addr → Prop :=
  Takes p.opcode (p.buffers st) (p.wqeCnt st)

variable {p} {budget : ℕ} {st st' : State} {ms : List Addr}

@[simp] theorem takeAll_nil (st : State) (ms : List Addr) : p.takeAll st [] ms = st := rfl

@[simp] theorem takeAll_cons (st : State) (cqe : Mlx5Cqe64) (cqes : List Mlx5Cqe64) (m : Addr)
    (ms : List Addr) :
    p.takeAll st (cqe :: cqes) (m :: ms) = p.takeAll (p.take st cqe m) cqes ms := rfl

/-- **What a polling loop does**: it takes the entries it finds, each with the
buffer of the slot it names, if it accepts them all. -/
theorem loop_eq_some_iff :
    p.loop budget st = some (ms, st') ↔
      List.Forall₂ (p.Accepts st) (p.entries budget st) ms ∧
        st' = p.takeAll st (p.entries budget st) ms := by
  induction budget generalizing st st' ms with
  | zero =>
    simp only [loop, entries, Cq.poll, Option.some.injEq, Prod.mk.injEq, List.forall₂_nil_left_iff,
      takeAll_nil]
    exact and_congr eq_comm eq_comm
  | succ budget ih =>
    have hstatus := cqeStatus_cases ((p.cq st).at (p.head st)) (p.cq st).cqeCnt (p.head st)
    simp only [loop, entries, Cq.poll]
    split
    case isTrue hinvalid =>
      -- the device owns the entry
      simp only [Option.some.injEq, Prod.mk.injEq, List.forall₂_nil_left_iff, takeAll_nil]
      exact and_congr eq_comm eq_comm
    case isFalse hvalid =>
      have hopcode : (p.cq st).status (p.head st) = ((p.cq st).at (p.head st)).opcode :=
        hstatus.resolve_left hvalid
      have haccept : ∀ m, p.Accepts st ((p.cq st).at (p.head st)) m →
          (p.cq st).status (p.head st) = p.opcode := fun m h => hopcode.trans h.opcode
      rw [List.forall₂_cons_left_iff]
      constructor
      case mp =>
        intro h
        -- the three tests of a round, each of which may end the loop in a panic
        split at h
        case isTrue => simp at h
        case isFalse hreq =>
          split at h
          case isTrue => simp at h
          case isFalse hformat =>
            split at h
            case h_1 => simp at h
            case h_2 m hbuffer =>
              obtain ⟨⟨ms', st''⟩, hloop, heq⟩ := Option.map_eq_some_iff.mp h
              obtain ⟨rfl, rfl⟩ := Prod.mk.inj heq
              obtain ⟨hall, hst⟩ := ih.mp hloop
              simp only [Accepts, entries, p.take_cq, p.take_head, p.take_buffers, p.take_wqeCnt]
                at hall hst
              have hown : ((p.cq st).at (p.head st)).opcode = p.opcode := by
                rw [← hopcode]
                exact not_not.mp hreq
              exact ⟨⟨m, ms', ⟨hown, hformat, hbuffer⟩, hall, rfl⟩, hst⟩
      case mpr =>
        rintro ⟨⟨m, ms', htake, hall, rfl⟩, rfl⟩
        rw [if_neg (not_not.mpr (haccept m htake)), if_neg htake.format]
        simp only [htake.buffer]
        -- taking an entry leaves the queue alone and moves the head
        have hsame : p.entries budget (p.take st ((p.cq st).at (p.head st)) m) =
            (p.cq st).poll budget (p.head st + 1) := by
          rw [entries, p.take_cq, p.take_head]
        refine Option.map_eq_some_iff.mpr ⟨(ms', _), ih.mpr ⟨?_, rfl⟩, ?_⟩
        · simpa only [Accepts, entries, p.take_cq, p.take_head, p.take_buffers, p.take_wqeCnt]
            using hall
        · rw [takeAll_cons, hsame]

/-- The loop comes back when every entry it finds names a buffer. -/
theorem exists_loop (h : ∀ cqe ∈ p.entries budget st, ∃ m, p.Accepts st cqe m) :
    ∃ ms, p.loop budget st = some (ms, p.takeAll st (p.entries budget st) ms) := by
  obtain ⟨ms, hms⟩ : ∃ ms, List.Forall₂ (p.Accepts st) (p.entries budget st) ms := by
    -- one buffer for each entry
    generalize p.entries budget st = cqes at h
    induction cqes with
    | nil => exact ⟨[], .nil⟩
    | cons cqe cqes ih =>
      obtain ⟨m, hm⟩ := h cqe (List.mem_cons_self ..)
      obtain ⟨ms, hms⟩ := ih fun c hc => h c (List.mem_cons_of_mem _ hc)
      exact ⟨m :: ms, .cons hm hms⟩
  exact ⟨ms, loop_eq_some_iff.mpr ⟨hms, rfl⟩⟩

/-- The queue stays as it is while entries are taken, and the head moves over them. -/
theorem takeAll_queue {cqes : List Mlx5Cqe64} {ms : List Addr} (hlen : cqes.length = ms.length)
    (st : State) :
    p.cq (p.takeAll st cqes ms) = p.cq st ∧
      p.head (p.takeAll st cqes ms) = p.head st + UInt32.ofNat ms.length := by
  induction ms generalizing st cqes with
  | nil =>
    obtain rfl := List.length_eq_zero_iff.mp hlen
    simp
  | cons m ms ih =>
    obtain ⟨cqe, cqes, rfl⟩ := List.exists_cons_of_length_eq_add_one hlen
    obtain ⟨hcq, hhead⟩ := ih (Nat.succ.inj hlen) (p.take st cqe m)
    rw [takeAll_cons]
    refine ⟨hcq.trans (p.take_cq ..), ?_⟩
    rw [hhead, p.take_head, List.length_cons, UInt32.ofNat_add]
    grind

/-- As many buffers as entries. -/
theorem length_entries (h : p.loop budget st = some (ms, st')) :
    (p.entries budget st).length = ms.length :=
  (loop_eq_some_iff.mp h).1.length_eq

end Poller

/-- The loop of `mlx5_gather_completions`. -/
def txPoller : Poller where
  cq st := st.txq.txCq
  head st := st.txq.cqHead
  buffers st := st.txq.buffers
  wqeCnt st := st.txq.sq.wqeCnt
  opcode := mlx5CqeReq
  take st cqe m := st.gather (be16toh cqe.wqeCounter) m
  opcode_ne := by decide
  take_cq _ _ _ := rfl
  take_head _ _ _ := rfl
  take_buffers _ _ _ := rfl
  take_wqeCnt _ _ _ := rfl

/-- The loop of `mlx5_gather_rx`. -/
def rxPoller : Poller where
  cq st := st.rxq.rxCq
  head st := st.rxq.consumerIdx
  buffers st := st.rxq.buffers
  wqeCnt st := st.rxq.rxWq.wqeCnt
  opcode := mlx5CqeRespSend
  take st cqe m := st.receive cqe m
  opcode_ne := by decide
  take_cq _ _ _ := rfl
  take_head _ _ _ := rfl
  take_buffers _ _ _ := rfl
  take_wqeCnt _ _ _ := rfl

theorem mlx5GatherCompletionsLoop_eq (budget : ℕ) (st : State) :
    mlx5GatherCompletionsLoop budget st = txPoller.loop budget st := by
  induction budget generalizing st with
  | zero => rfl
  | succ budget ih =>
    simp only [mlx5GatherCompletionsLoop, ih]
    rfl

theorem mlx5GatherRxLoop_eq (budget : ℕ) (st : State) :
    mlx5GatherRxLoop budget st = rxPoller.loop budget st := by
  induction budget generalizing st with
  | zero => rfl
  | succ budget ih =>
    simp only [mlx5GatherRxLoop, ih]
    rfl

/-- Taking packets leaves the send queue and the pool alone. -/
theorem takeAll_rx_frame (cqes : List Mlx5Cqe64) (ms : List Addr) (st : State) :
    (rxPoller.takeAll st cqes ms).txq = st.txq ∧
      (rxPoller.takeAll st cqes ms).rxBufMempool = st.rxBufMempool := by
  induction cqes generalizing st ms with
  | nil => exact ⟨rfl, rfl⟩
  | cons cqe cqes ih =>
    cases ms with
    | nil => exact ⟨rfl, rfl⟩
    | cons m ms => exact ih ms _

/-- After the loop a call returns when the pool has a buffer for every packet. -/
theorem exists_mlx5GatherRx_of_loop {budget : ℕ} {st st₁ : State} {ms : List Addr}
    (hloop : rxPoller.loop budget st = some (ms, st₁))
    (hpool : ms.length ≤ st.rxBufMempool.freeList.length) :
    ∃ ms st', mlx5GatherRx st budget = some (ms, st') := by
  rw [mlx5GatherRx_of_loop ((mlx5GatherRxLoop_eq ..).trans hloop)]
  -- without a packet nothing is refilled
  by_cases hzero : ms.length = 0
  · exact ⟨_, _, if_pos hzero⟩
  · have hframe : st₁.ringRxCqDoorbell.rxBufMempool = st.rxBufMempool := by
      obtain ⟨-, rfl⟩ := Poller.loop_eq_some_iff.mp hloop
      exact (takeAll_rx_frame ..).2
    rw [← hframe] at hpool
    obtain ⟨st', hrefill⟩ := exists_mlx5RefillRxqueue hpool
    refine ⟨ms, st', ?_⟩
    rw [if_neg hzero, hrefill]
    rfl

end Mlx5Netperf
