import Mlx5Netperf.Base.Mempool
import Mlx5Netperf.Base.Request
import Mlx5Netperf.Mlx5.Queues

/-!
# Program State

The static state of `main.c` and the drivers, in one record, and the options
that stay fixed once the workload is initialized.

`trace` is the one field the program does not have. It records the calls that
the specifications talk about, oldest first, and no function reads it.
-/

namespace Mlx5Netperf

/-- A chain handed to the send ring. -/
structure Send where
  mbuf : Addr
  /-- `sq_head` at which it was posted -/
  sqHead : UInt32
  numWqes : UInt64
  deriving DecidableEq, Repr

/-- What the specifications observe. -/
inductive Event where
  /-- `mlx5_fill_tx_segment` posted a chain. -/
  | posted (s : Send)
  /-- `mlx5_gather_completions` mapped a completion to a chain. -/
  | gathered (wqeCounter : UInt16) (m : Addr)
  /-- `mbuf_free` was called on a chain. -/
  | freed (m : Addr)
  /-- `process_server_requests` made a zero-copy mbuf. -/
  | created (m : Addr)
  /-- `zero_copy_tx_completion` returned an mbuf to its pool. -/
  | released (m : Addr)
  /-- the warning that a reference count reached zero -/
  | refcntZero (index : UInt64)
  deriving DecidableEq, Repr

/-- Options and addresses that are set before the packet loops start. -/
structure Config where
  zeroCopy : Bool
  echoMode : Bool
  readIncomingPacket : Bool
  usingRefCounting : Bool
  numSegments : UInt64
  segmentSize : UInt64
  workingSetSize : UInt64
  numTotalSegments : UInt64
  serverWorkingSet : Addr
  txLkey : UInt32
  rxLkey : UInt32
  serverMac : EthAddr

/-- The state the packet loops work on. -/
structure State where
  mem : ByteMemory
  heap : Heap
  txq : Mlx5Txq
  rxq : Mlx5Rxq
  mbufMempool : Mempool
  txBufMempool : Mempool
  rxBufMempool : Mempool
  workingSetRefcnts : ℕ → ℕ → UInt16
  requestHeaders : ℕ → RequestHeader
  checksum : UInt64
  totalDropped : UInt32
  trace : List Event

/-- A zeroed mbuf. -/
def Mbuf.zeroed : Mbuf := ⟨none, 0, 0, 0, 0, 0, 0, 0, 0, none, 0, 0⟩

/-- A zeroed request header. -/
def RequestHeader.zeroed : RequestHeader where
  packetHeader := ⟨⟨Vector.replicate 6 0, Vector.replicate 6 0, 0⟩, ⟨0, 0, 0, 0, 0, 0, 0, 0, 0, 0⟩,
    ⟨0, 0, 0, 0⟩⟩
  packetId := 0
  idPadding := 0
  checksum := 0

/-- A completion queue all of whose entries are the device's, as initialization
leaves it. -/
def Cq.deviceOwned (cqeCnt : UInt32) : Cq := ⟨fun _ => ⟨0, 0, 0, 0, mlx5CqeOwnerMask⟩, cqeCnt, 0⟩

/-- A send queue with a ring of `wqeCnt` 64-byte blocks at `buf`, nothing sent. -/
def Mlx5Txq.zeroed (buf : ℕ) (wqeCnt : UInt32) : Mlx5Txq where
  buffers := fun _ => none
  sq := ⟨buf, wqeCnt, 64⟩
  qpNum := 0
  dbrec := 0
  bfReg := []
  sqHead := 0
  txSqLogStride := 6
  txCq := Cq.deviceOwned 128
  cqHead := 0
  trueCqHead := 0

/-- A receive queue with a ring of `wqeCnt` slots, nothing posted. -/
def Mlx5Rxq.zeroed (wqeCnt : UInt32) : Mlx5Rxq where
  consumerIdx := 0
  rxCq := Cq.deviceOwned 1024
  rxWq := ⟨fun _ => 0, fun _ => 0, fun _ => 0, wqeCnt, 0⟩
  wqHead := 0
  buffers := fun _ => none

/-- The static state before anything ran, with rings of the given sizes. -/
def State.zeroed (txWqeCnt rxWqeCnt : UInt32) : State where
  mem := fun _ => 0
  heap := fun _ => Mbuf.zeroed
  txq := Mlx5Txq.zeroed 0x10000 txWqeCnt
  rxq := Mlx5Rxq.zeroed rxWqeCnt
  mbufMempool := ⟨fun _ => 0, 0, 0, 0⟩
  txBufMempool := ⟨fun _ => 0, 0, 0, 0⟩
  rxBufMempool := ⟨fun _ => 0, 0, 0, 0⟩
  workingSetRefcnts := fun _ _ => 0
  requestHeaders := fun _ => RequestHeader.zeroed
  checksum := 0
  totalDropped := 0
  trace := []

/-- The defaults of `main.c`. -/
def Config.default : Config where
  zeroCopy := true
  echoMode := false
  readIncomingPacket := false
  usingRefCounting := false
  numSegments := 1
  segmentSize := 1024
  workingSetSize := 16384
  numTotalSegments := 16384
  serverWorkingSet := 0
  txLkey := 0
  rxLkey := 0
  serverMac := Vector.replicate 6 0

def batchSize : ℕ := 32
def burstSize : ℕ := 32
def sqCleanMax : ℕ := 32
def sqCleanThresh : UInt32 := 32
def rxBufHead : UInt32 := 128
def dataMbufsSize : UInt32 := 16384

/-- `ENOMEM` -/
def enomem : Int32 := 12

/-- `EINVAL` -/
def einval : Int32 := 22

/-- Record an observation. -/
def State.log (st : State) (e : Event) : State := { st with trace := st.trace ++ [e] }

@[simp] theorem State.log_mem (st : State) (e : Event) : (st.log e).mem = st.mem := rfl
@[simp] theorem State.log_heap (st : State) (e : Event) : (st.log e).heap = st.heap := rfl
@[simp] theorem State.log_txq (st : State) (e : Event) : (st.log e).txq = st.txq := rfl
@[simp] theorem State.log_rxq (st : State) (e : Event) : (st.log e).rxq = st.rxq := rfl
@[simp] theorem State.log_trace (st : State) (e : Event) :
    (st.log e).trace = st.trace ++ [e] := rfl

/-! ## Reading the trace -/

namespace Event

/-- The sends in the order they were posted. -/
def posts (tr : List Event) : List Send :=
  tr.filterMap fun | .posted s => some s | _ => none

/-- The completions in the order they were gathered. -/
def gathers (tr : List Event) : List (UInt16 × Addr) :=
  tr.filterMap fun | .gathered c m => some (c, m) | _ => none

/-- The chains in the order they were passed to their release functions. -/
def frees (tr : List Event) : List Addr :=
  tr.filterMap fun | .freed m => some m | _ => none

/-- The zero-copy mbufs that were made and not yet released. -/
def live (tr : List Event) : List Addr :=
  tr.foldl (fun acc e => match e with
    | .created m => m :: acc
    | .released m => acc.erase m
    | _ => acc) []

@[simp] theorem posts_append (t u : List Event) : posts (t ++ u) = posts t ++ posts u :=
  List.filterMap_append

@[simp] theorem gathers_append (t u : List Event) : gathers (t ++ u) = gathers t ++ gathers u :=
  List.filterMap_append

@[simp] theorem frees_append (t u : List Event) : frees (t ++ u) = frees t ++ frees u :=
  List.filterMap_append

@[simp] theorem posts_posted (s : Send) : posts [.posted s] = [s] := rfl
@[simp] theorem posts_gathered (c : UInt16) (m : Addr) : posts [.gathered c m] = [] := rfl
@[simp] theorem posts_freed (m : Addr) : posts [.freed m] = [] := rfl
@[simp] theorem gathers_posted (s : Send) : gathers [.posted s] = [] := rfl
@[simp] theorem gathers_gathered (c : UInt16) (m : Addr) :
    gathers [.gathered c m] = [(c, m)] := rfl
@[simp] theorem gathers_freed (m : Addr) : gathers [.freed m] = [] := rfl
@[simp] theorem frees_posted (s : Send) : frees [.posted s] = [] := rfl
@[simp] theorem frees_gathered (c : UInt16) (m : Addr) : frees [.gathered c m] = [] := rfl
@[simp] theorem frees_freed (m : Addr) : frees [.freed m] = [m] := rfl

/-- An event that neither posts, gathers nor frees a chain. -/
def IsQuiet : Event → Prop
  | .posted _ => False
  | .gathered _ _ => False
  | .freed _ => False
  | _ => True

theorem posts_of_isQuiet {e : Event} (h : e.IsQuiet) : posts [e] = [] := by
  cases e <;> first | rfl | exact h.elim

/-- Quiet events post nothing. -/
theorem posts_eq_nil {tail : List Event} (h : ∀ e ∈ tail, e.IsQuiet) : posts tail = [] := by
  induction tail with
  | nil => rfl
  | cons e tail ih =>
    rw [← List.singleton_append, posts_append, posts_of_isQuiet (h e (List.mem_cons_self ..)),
      ih fun e' he' => h e' (List.mem_cons_of_mem _ he'), List.append_nil]

theorem gathers_of_isQuiet {e : Event} (h : e.IsQuiet) : gathers [e] = [] := by
  cases e <;> first | rfl | exact h.elim

/-- Quiet events gather nothing. -/
theorem gathers_eq_nil {tail : List Event} (h : ∀ e ∈ tail, e.IsQuiet) : gathers tail = [] := by
  induction tail with
  | nil => rfl
  | cons e tail ih =>
    rw [← List.singleton_append, gathers_append, gathers_of_isQuiet (h e (List.mem_cons_self ..)),
      ih fun e' he' => h e' (List.mem_cons_of_mem _ he'), List.append_nil]

theorem frees_of_isQuiet {e : Event} (h : e.IsQuiet) : frees [e] = [] := by
  cases e <;> first | rfl | exact h.elim

end Event

end Mlx5Netperf
