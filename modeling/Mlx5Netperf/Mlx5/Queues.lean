import Mlx5Netperf.Base.Mbuf
import Mlx5Netperf.Mlx5.Cqe

/-!
# Send and Receive Queues

`struct mlx5_txq` and `struct mlx5_rxq` of `inc/mlx5.h` with the parts of the
direct-verbs objects that the data path uses.
-/

namespace Mlx5Netperf

/-- The send ring in `struct mlx5dv_qp`. `buf` is an address. -/
structure Sq where
  buf : ℕ
  wqeCnt : UInt32
  stride : UInt32

/-- `struct mlx5_txq` -/
structure Mlx5Txq where
  buffers : ℕ → Option Addr
  sq : Sq
  /-- `tx_qp->qp_num` -/
  qpNum : UInt32
  /-- `tx_qp_dv.dbrec[MLX5_SND_DBR]` -/
  dbrec : UInt32
  /-- the eight bytes last written to `tx_qp_dv.bf.reg` -/
  bfReg : List UInt8
  sqHead : UInt32
  txSqLogStride : UInt32
  txCq : Cq
  cqHead : UInt32
  trueCqHead : UInt32

/-- The receive ring in `struct mlx5dv_rwq`: the buffer addresses and the
constant fields of its data segments, in network order. -/
structure Rwq where
  segAddr : ℕ → UInt64
  segByteCount : ℕ → UInt32
  segLkey : ℕ → UInt32
  wqeCnt : UInt32
  dbrec : UInt32

/-- `struct mlx5_rxq` -/
structure Mlx5Rxq where
  consumerIdx : UInt32
  rxCq : Cq
  rxWq : Rwq
  wqHead : UInt32
  buffers : ℕ → Option Addr

/-- `POW2MOD(num, size)` -/
def pow2Mod (num size : UInt32) : UInt32 := num &&& (size - 1)

/-- `get_segment(v, idx)`: a 32-bit shift, then a pointer sum. -/
def getSegment (v : Mlx5Txq) (idx : UInt32) : ℕ := v.sq.buf + (idx <<< v.txSqLogStride).toNat

/-- `v->tx_qp_dv.sq.buf + wqe_cnt * stride`: a 32-bit product, then a pointer sum. -/
def Mlx5Txq.endPtr (v : Mlx5Txq) : ℕ := v.sq.buf + (v.sq.wqeCnt * v.sq.stride).toNat

/-- `nr_inflight_tx` -/
def nrInflightTx (v : Mlx5Txq) : UInt32 := v.sqHead - v.trueCqHead

/-- The block a send starts at. -/
def Mlx5Txq.currentIdx (v : Mlx5Txq) : UInt32 := pow2Mod v.sqHead v.sq.wqeCnt

end Mlx5Netperf
