import Mlx5Netperf.Server.InFlight

/-!
# What the Server Serves

`initialize_server_memory` writes a letter into each region of the working set, the
next one into each next region. Nothing that the server does later writes to the
working set, so these letters are what its replies carry in every run.
-/

namespace Mlx5Netperf

open ByteMemory Transition

/-! ## The letters -/

/-- `alphabet` -/
def alphabet : List UInt8 := "abcdefghijklmnopqrstuvwxyz".toList.map fun c => UInt8.ofNat c.toNat

/-- The letter of a region. -/
def letter (region : ℕ) : UInt8 := alphabet[region % 26]?.getD 0

/-- The loop of `initialize_server_memory` over the regions that are left, from region
`i` on. -/
def initializeServerMemoryLoop (memory segmentSize : UInt64) :
    ℕ → ℕ → ℕ → ByteMemory → ByteMemory
  | 0, _, _, mem => mem
  | left + 1, i, currentIndex, mem =>
    let curPointer := getServerRegion memory (UInt64.ofNat i) segmentSize
    initializeServerMemoryLoop memory segmentSize left (i + 1) ((currentIndex + 1) % 26)
      (mem.store ⟨curPointer.toNat,
        List.replicate segmentSize.toNat (alphabet[currentIndex]?.getD 0)⟩)

/-- `initialize_server_memory`, whose first line divides by the segment size: it is called
with a positive one. -/
def initializeServerMemory (memory segmentSize arraySize : UInt64) (mem : ByteMemory) :
    Except Int32 ByteMemory :=
  if arraySize % segmentSize ≠ 0 then .error (-einval)
  else .ok (initializeServerMemoryLoop memory segmentSize (arraySize / segmentSize).toNat 0 0 mem)

/-! ## What the loop writes -/

section Loop

variable {memory segmentSize : UInt64} {left i : ℕ} {mem : ByteMemory}

/-- The address of a region that lies in the address space. -/
theorem getServerRegion_toNat (hbound : memory.toNat + (i + 1) * segmentSize.toNat ≤ 2 ^ 64)
    (hpos : 0 < segmentSize.toNat) :
    (getServerRegion memory (UInt64.ofNat i) segmentSize).toNat =
      memory.toNat + i * segmentSize.toNat := by
  rw [Nat.succ_mul] at hbound
  have hle : i ≤ i * segmentSize.toNat := Nat.le_mul_of_pos_right i hpos
  rw [getServerRegion, UInt64.toNat_add, UInt64.toNat_mul, UInt64.toNat_ofNat',
    Nat.mod_eq_of_lt (a := i) (by omega), Nat.mod_eq_of_lt (a := _ * _) (by omega),
    Nat.mod_eq_of_lt (by omega)]

/-- Only the regions that are left are written. -/
theorem initializeServerMemoryLoop_outside (hpos : 0 < segmentSize.toNat)
    (hbound : memory.toNat + (i + left) * segmentSize.toNat ≤ 2 ^ 64) {currentIndex x : ℕ}
    (hx : x < memory.toNat + i * segmentSize.toNat ∨
      memory.toNat + (i + left) * segmentSize.toNat ≤ x) :
    initializeServerMemoryLoop memory segmentSize left i currentIndex mem x = mem x := by
  induction left generalizing i currentIndex mem with
  | zero => rfl
  | succ left ih =>
    have hsplit : i + (left + 1) = (i + 1) + left := by omega
    rw [hsplit] at hbound hx
    have hmul : (i + 1) * segmentSize.toNat ≤ (i + 1 + left) * segmentSize.toNat :=
      Nat.mul_le_mul_right _ (Nat.le_add_right _ _)
    have hregion := getServerRegion_toNat (i := i) ((Nat.add_le_add_left hmul _).trans hbound) hpos
    rw [Nat.succ_mul] at hmul
    rw [initializeServerMemoryLoop, ih hbound (by rw [Nat.succ_mul]; omega)]
    refine store_apply_of_misses ?_
    simp only [Store.Misses, hregion, List.length_replicate]
    omega

/-- **Each region that is left gets its letter.** -/
theorem initializeServerMemoryLoop_read (hpos : 0 < segmentSize.toNat)
    (hbound : memory.toNat + (i + left) * segmentSize.toNat ≤ 2 ^ 64) {region : ℕ} (hi : i ≤ region)
    (hregion : region < i + left) :
    (initializeServerMemoryLoop memory segmentSize left i (i % 26) mem).read
      (memory.toNat + region * segmentSize.toNat) segmentSize.toNat =
        List.replicate segmentSize.toNat (letter region) := by
  induction left generalizing i mem with
  | zero => omega
  | succ left ih =>
    have hsplit : i + (left + 1) = (i + 1) + left := by omega
    rw [hsplit] at hbound hregion
    have hmul : (i + 1) * segmentSize.toNat ≤ (i + 1 + left) * segmentSize.toNat :=
      Nat.mul_le_mul_right _ (Nat.le_add_right _ _)
    have hstart := getServerRegion_toNat (i := i) ((Nat.add_le_add_left hmul _).trans hbound) hpos
    have hindex : (i % 26 + 1) % 26 = (i + 1) % 26 := Nat.mod_add_mod ..
    rw [initializeServerMemoryLoop, hindex]
    rcases Nat.lt_or_eq_of_le hi with hlater | rfl
    · exact ih hbound hlater hregion
    · -- the later regions lie behind this one
      have hend : (i + 1) * segmentSize.toNat = i * segmentSize.toNat + segmentSize.toNat :=
        Nat.succ_mul ..
      have hkept : ∀ stored, (initializeServerMemoryLoop memory segmentSize left (i + 1)
          ((i + 1) % 26) stored).read (memory.toNat + i * segmentSize.toNat) segmentSize.toNat =
            stored.read (memory.toNat + i * segmentSize.toNat) segmentSize.toNat := fun stored =>
        read_congr fun x _ hx => initializeServerMemoryLoop_outside hpos hbound (.inl (by omega))
      rw [hkept, ← hstart]
      exact read_store_eq mem List.length_replicate

end Loop

/-- **Every region holds its letter** once the memory is filled. -/
theorem initializeServerMemory_read {cfg : Config} (hws : WorkingSetOk cfg) {mem mem' : ByteMemory}
    (hinit : initializeServerMemory cfg.serverWorkingSet cfg.segmentSize cfg.workingSetSize mem =
      .ok mem') (id : UInt64) :
    mem'.read (cfg.region id).toNat cfg.segmentSize.toNat =
      List.replicate cfg.segmentSize.toNat (letter (id.toNat % cfg.numTotalSegments.toNat)) := by
  have hmod : ¬ cfg.workingSetSize % cfg.segmentSize ≠ 0 := by
    rw [not_not, ← UInt64.toNat_inj, UInt64.toNat_mod]
    exact Nat.mod_eq_zero_of_dvd hws.dvd
  rw [initializeServerMemory, if_neg hmod] at hinit
  obtain rfl := Except.ok.inj hinit
  rw [hws.mapped.region_toNat, UInt64.toNat_mod]
  have htotal := hws.mapped.total_pos
  rw [← hws.total]
  refine initializeServerMemoryLoop_read hws.pos ?_ (Nat.zero_le _) ?_
  · rw [Nat.zero_add, hws.mapped.total_toNat, Nat.div_mul_cancel hws.dvd]
    exact hws.bound
  · rw [Nat.zero_add]
    exact Nat.mod_lt _ htotal

/-! ## Runs of the server -/

namespace ServerRun

variable {cfg : Config} {fuel base n : ℕ} {I : Holding} {r r' : ServerRun}

/-- **No step writes to the working set**, whatever is in flight. -/
theorem Step.workingSet (hwhere : InMemory cfg fuel I base n) (hinv : Inv cfg fuel I r)
    (hloc : Located cfg base n r) (hstep : Step cfg fuel r r') :
    AgreeOn r.st.mem r'.st.mem cfg.serverWorkingSet.toNat cfg.workingSetSize.toNat := by
  obtain ⟨hs, hheld, -⟩ := hinv.exists_heldBy
  -- a chain that holds nothing is left alone like the others
  have hnothing : HeldBy I r.st r.taken r.received (r.hands cfg.echoMode) (hs ++ [⟨[], [], []⟩]) := by
    obtain ⟨ring, counters, hrx⟩ := hheld.packets
    exact ⟨by simpa using hheld.mbufs, by simpa using hheld.buffers, ring, counters, by simpa using hrx⟩
  exact ((hstep.alone hwhere hinv hloc).2.untouched _ hnothing ⟨[], [], []⟩ (by simp)).workingSet

/-- The working set is as `initialize_server_memory` left it. -/
def Filled (cfg : Config) (r : ServerRun) : Prop :=
  ∃ mem mem', initializeServerMemory cfg.serverWorkingSet cfg.segmentSize cfg.workingSetSize mem =
    .ok mem' ∧ AgreeOn mem' r.st.mem cfg.serverWorkingSet.toNat cfg.workingSetSize.toNat

/-- The server at the start, with its working set filled. -/
structure FilledStart (cfg : Config) (I : Holding) (base n : ℕ) (r : ServerRun) : Prop where
  start : Start I base n r
  filled : Filled cfg r

theorem filled_of_reachable (hwhere : InMemory cfg fuel I base n)
    (h : Reachable (FilledStart cfg I base n) (Step cfg fuel) r) : Filled cfg r := by
  suffices hall : (Inv cfg fuel I r ∧ Located cfg base n r) ∧ Filled cfg r from hall.2
  refine Reachable.invariant (P := fun r => (Inv cfg fuel I r ∧ Located cfg base n r) ∧
    Filled cfg r) ?_ ?_ h
  · exact fun r hstart => ⟨located_of_reachable hwhere (.init hstart.start), hstart.filled⟩
  · rintro r r' ⟨⟨hinv, hloc⟩, mem, mem', hinit, hagree⟩ hstep
    have hkept := hstep.workingSet hwhere hinv hloc
    exact ⟨⟨hstep.inv hwhere.distinct hwhere.segments hwhere.fuel hinv,
      (hstep.alone hwhere hinv hloc).1⟩, mem, mem', hinit, hagree.trans hkept⟩

/-- **The server serves letters**: in every state of every run that stays inside what was
allocated, in each mode, the region that a segment id stands for is filled with its own
letter, that of its number modulo 26, whatever was received, built, sent and recycled
before. -/
theorem regions_lettered (numRefcntArrays : UInt64) (hwhere : InMemory cfg fuel I base n)
    (h : Reachable (FilledStart cfg I base n) (CheckedStep cfg numRefcntArrays fuel) r) (id : UInt64) :
    r.st.mem.read (cfg.region id).toNat cfg.segmentSize.toNat =
      List.replicate cfg.segmentSize.toNat (letter (id.toNat % cfg.numTotalSegments.toNat)) := by
  obtain ⟨mem, mem', hinit, hagree⟩ :=
    filled_of_reachable hwhere (h.mono fun _ _ hstep => hstep.step)
  have hws := hwhere.workingSet
  have hinside := hws.mapped.region_le id
  have hregion := hws.mapped.region_toNat id
  rw [hagree.read (by omega) (by omega)]
  exact initializeServerMemory_read hws hinit id

/-! ## A small server -/

/-- The memory of the small server, with its sixteen regions filled. -/
def filledMemory : ByteMemory := initializeServerMemoryLoop 0x300000 1024 16 0 0 smallBefore.mem

/-- The small server with this memory, before `mlx5_init_rxq`. -/
def filledBefore : State := { smallBefore with mem := filledMemory }

/-- After `mlx5_init_rxq`. -/
def filledState : State :=
  match mlx5InitRxq 0 filledBefore with
  | .ok st => st
  | .error _ => filledBefore

/-- The small server with its working set filled. -/
def filledServer : ServerRun := ⟨⟨⟨filledState, 0⟩, none, []⟩, 0, 0, .polling, []⟩

theorem filledState_eq : mlx5InitRxq 0 filledBefore = .ok filledState := by
  have hok : (mlx5InitRxq 0 filledBefore).isOk = true := rfl
  unfold filledState
  cases hcall : mlx5InitRxq 0 filledBefore with
  | ok st => rfl
  | error e =>
    rw [hcall] at hok
    cases hok

/-- The send ring, the pools it is fed from and the memory are as they were. -/
theorem filledState_keeps : filledState.txq = smallBefore.txq ∧ filledState.trace = [] ∧
    filledState.mbufMempool = smallBefore.mbufMempool ∧
      filledState.txBufMempool = smallBefore.txBufMempool ∧ filledState.mem = filledMemory :=
  ⟨rfl, rfl, rfl, rfl, rfl⟩

theorem filledServer_init : Init smallItems filledServer := by
  obtain ⟨htxq, htrace, hmbufs, hbuffers, -⟩ := filledState_keeps
  constructor
  case post => exact ⟨smallBefore_sendInit htxq htrace, rfl, rfl⟩
  case receive =>
    exact ⟨⟨0, filledBefore, smallBefore_beforeInit rfl rfl, filledState_eq⟩, rfl, rfl, rfl⟩
  case phase => rfl
  case lost => rfl
  case mbufs => exact (congrArg Mempool.freeList hmbufs).trans (by decide)
  case mbufs_allocated => exact congrArg Mempool.allocated hmbufs
  case mbufs_capacity => exact (congrArg Mempool.capacity hmbufs).trans_lt (by decide)
  case buffers => exact (congrArg Mempool.freeList hbuffers).trans (by decide)
  case buffers_allocated => exact congrArg Mempool.allocated hbuffers
  case buffers_capacity => exact (congrArg Mempool.capacity hbuffers).trans_lt (by decide)

theorem filledServer_start : FilledStart smallConfig smallItems 0x10000 4 filledServer where
  start :=
    { init := filledServer_init
      ring := by
        show RingAt filledState.txq 0x10000 4
        rw [filledState_keeps.1]
        exact ⟨rfl, rfl, ⟨2, rfl⟩, rfl, rfl, by decide⟩ }
  filled := ⟨smallBefore.mem, filledMemory, rfl, by
    show AgreeOn filledMemory filledState.mem _ _
    rw [filledState_keeps.2.2.2.2]
    exact .refl _ _ _⟩

/-- Once the small server has polled, its third region holds the letter c. -/
theorem regions_lettered_filledServer : ∃ r : ServerRun, r.phase = .burst [] [] ∧
    r.st.mem.read (smallConfig.region 18).toNat 1024 = List.replicate 1024 (letter 2) := by
  have hruns : (doServerStep smallConfig 32 filledServer).map phase = some (.burst [] []) := by
    decide +kernel
  obtain ⟨r, hr, hphase⟩ := Option.map_eq_some_iff.mp hruns
  have hreach : Reachable (FilledStart smallConfig smallItems 0x10000 4) (CheckedStep smallConfig 1 32) r :=
    (Reachable.init filledServer_start).step
      (.program hr (stepInside_smallConfig (by simp [filledServer])))
  exact ⟨r, hphase, regions_lettered 1 smallServer_where hreach 18⟩

end ServerRun

end Mlx5Netperf
