import Mlx5Netperf.Net.Headers

/-!
# Completion Queues

The completion queue entries the device writes and how the driver reads them:
`cqe_status`, `mlx5_get_cqe_format` and `mlx5_get_rss_result` of `inc/mlx5.h`.

The device is described by what the driver sees of it: `Cq.Reports` says that
the queue holds a given sequence of reports from a given consumer index on,
and nothing after them.
-/

namespace Mlx5Netperf

open ByteOrder

/-- The fields of `struct mlx5_cqe64` that are read; words in network order. -/
structure Mlx5Cqe64 where
  rxHashResult : UInt32
  sopDropQpn : UInt32
  byteCnt : UInt32
  wqeCounter : UInt16
  opOwn : UInt8
  deriving DecidableEq

/-- `struct mlx5dv_cq` -/
structure Cq where
  buf : ℕ → Mlx5Cqe64
  cqeCnt : UInt32
  dbrec : UInt32

def mlx5CqeReq : UInt8 := 0
def mlx5CqeRespSend : UInt8 := 2
def mlx5CqeInvalid : UInt8 := 15
def mlx5CqeOwnerMask : UInt8 := 1

/-- `cqe_status`. The parity is kept in 16 bits. -/
def cqeStatus (cqe : Mlx5Cqe64) (cqeCnt head : UInt32) : UInt8 :=
  let parity : UInt16 := (head &&& cqeCnt).toUInt16
  -- the owner bit changes with every lap of the queue
  let opOwner := cqe.opOwn &&& mlx5CqeOwnerMask
  let opCode := (cqe.opOwn &&& 0xf0) >>> 4
  (if opOwner = (if parity = 0 then 1 else 0) then mlx5CqeInvalid else 0) ||| opCode

/-- `mlx5_get_cqe_format` -/
def mlx5GetCqeFormat (cqe : Mlx5Cqe64) : UInt8 := (cqe.opOwn &&& 0xc) >>> 2

/-- `mlx5_get_rss_result` -/
def mlx5GetRssResult (cqe : Mlx5Cqe64) : UInt32 := bswap32 cqe.rxHashResult

/-- `&cqes[head & (cq->cqe_cnt - 1)]` -/
def Cq.at (cq : Cq) (head : UInt32) : Mlx5Cqe64 := cq.buf (head &&& (cq.cqeCnt - 1)).toNat

/-- What `cqe_status` says at a consumer index. -/
def Cq.status (cq : Cq) (head : UInt32) : UInt8 := cqeStatus (cq.at head) cq.cqeCnt head

/-- From `head` on the driver finds entries with the given opcode and wqe
counters, not compressed, and after them an entry the device still owns. -/
def Cq.Reports (cq : Cq) (opcode : UInt8) : UInt32 → List UInt16 → Prop
  | head, [] => cq.status head = mlx5CqeInvalid
  | head, counter :: counters =>
    cq.status head = opcode ∧ mlx5GetCqeFormat (cq.at head) ≠ 3 ∧
      be16toh (cq.at head).wqeCounter = counter ∧ cq.Reports opcode (head + 1) counters

instance Cq.decidableReports (cq : Cq) (opcode : UInt8) :
    ∀ head counters, Decidable (cq.Reports opcode head counters)
  | head, [] => inferInstanceAs (Decidable (cq.status head = mlx5CqeInvalid))
  | head, counter :: counters =>
    have := Cq.decidableReports cq opcode (head + 1) counters
    inferInstanceAs (Decidable (cq.status head = opcode ∧ mlx5GetCqeFormat (cq.at head) ≠ 3 ∧
      be16toh (cq.at head).wqeCounter = counter ∧ cq.Reports opcode (head + 1) counters))

/-- Ringing the queue's own doorbell leaves its entries alone. -/
@[simp] theorem Cq.reports_dbrec (cq : Cq) (opcode : UInt8) (head : UInt32) (counters : List UInt16)
    (d : UInt32) :
    Cq.Reports { cq with dbrec := d } opcode head counters ↔ cq.Reports opcode head counters := by
  induction counters generalizing head with
  | nil => rfl
  | cons c cs ih =>
    simp only [Cq.Reports, ih]
    -- the doorbell is no entry
    rfl

end Mlx5Netperf
