import Mathlib.Data.FinEnum
import Mlx5Netperf.Server.Process

/-!
# Echoing a Batch

`process_echo_requests` of `main.c` up to its call of `post_mbufs`: every
request becomes its own reply, with its headers reversed in place and the length
that the server is configured for.
-/

namespace Mlx5Netperf

/-- `num_segments * segment_size` -/
def Config.dataSize (cfg : Config) : UInt64 := cfg.numSegments * cfg.segmentSize

/-- One round of `process_echo_requests`: the return code of `flip_headers` and
what it leaves. -/
def echoRequest (cfg : Config) (request : Addr) (st : State) : Int32 × State :=
  let st := st.modifyMbuf request fun b =>
    { b with nbSegs := 1, next := none, lkey := cfg.rxLkey }
  let (ret, mem, b) := flipHeaders st.mem (st.heap request) cfg.dataSize
  (ret, { st with mem := mem, heap := Function.update st.heap request b })

/-- The loop of `process_echo_requests`; `heads` are the replies so far. -/
def echoRequests (cfg : Config) :
    List Addr → List Addr → State → Except Int32 (List Addr) × State
  | [], heads, st => (.ok heads, st)
  | request :: requests, heads, st =>
    let (ret, st) := echoRequest cfg request st
    if ret ≠ 0 then (.error ret, st) else echoRequests cfg requests (heads ++ [request]) st

/-- `process_server_requests` up to its call of `post_mbufs`, in every mode. -/
def prepareReplies (cfg : Config) (fuel : ℕ) (requests : List Addr) (st : State) :
    Option (Except Int32 (List Addr) × State) :=
  if cfg.echoMode then some (echoRequests cfg requests [] st)
  else buildReplies cfg fuel requests [] st

/-! ## One request -/

/-- A request whose headers were reversed but whose buffer is too small for the reply. -/
def refusedMbuf (cfg : Config) (b : Mbuf) : Mbuf :=
  { b with nbSegs := 1, next := none, lkey := cfg.rxLkey }

/-- A request as it is sent back. -/
def echoMbuf (cfg : Config) (b : Mbuf) : Mbuf :=
  { refusedMbuf cfg b with len := (cfg.dataSize + UInt64.ofNat sizeofRequestHeader).toUInt32 }

/-- The reply fits into the buffer that the request came in. -/
def EchoFits (cfg : Config) (b : Mbuf) : Prop :=
  cfg.dataSize + UInt64.ofNat sizeofRequestHeader ≤ b.headLen.toUInt64

instance (cfg : Config) (b : Mbuf) : Decidable (EchoFits cfg b) :=
  inferInstanceAs (Decidable (_ ≤ _))

variable {cfg : Config}

/-- **What one round does.** -/
theorem echoRequest_eq (cfg : Config) (request : Addr) (st : State) :
    echoRequest cfg request st =
      if EchoFits cfg (st.heap request) then
        (0, { st with
          mem := flipHeadersStores st.mem (mbufData (st.heap request)).toNat cfg.dataSize
          heap := st.heap.modify request (echoMbuf cfg) })
      else
        (-einval, { st with
          mem := flipHeadersStores st.mem (mbufData (st.heap request)).toNat cfg.dataSize
          heap := st.heap.modify request (refusedMbuf cfg) }) := by
  have hself : st.heap.modify request (refusedMbuf cfg) request =
      refusedMbuf cfg (st.heap request) := Heap.modify_self ..
  have hdata : mbufData (refusedMbuf cfg (st.heap request)) = mbufData (st.heap request) := rfl
  have hheadLen : (refusedMbuf cfg (st.heap request)).headLen = (st.heap request).headLen := rfl
  -- `flip_headers` writes the mbuf that was written just before
  have hupdate : ∀ b : Mbuf, Function.update (st.heap.modify request (refusedMbuf cfg)) request b =
      Function.update st.heap request b := fun b => Function.update_idem ..
  have hunfold : echoRequest cfg request st =
      let (ret, mem, b) := flipHeaders st.mem (st.heap.modify request (refusedMbuf cfg) request)
        cfg.dataSize
      (ret, { st with
        mem := mem
        heap := Function.update (st.heap.modify request (refusedMbuf cfg)) request b }) := rfl
  rw [hunfold, hself]
  by_cases hfits : EchoFits cfg (st.heap request)
  · have hroom : ¬ (st.heap request).headLen.toUInt64 <
        cfg.dataSize + UInt64.ofNat sizeofRequestHeader := UInt64.not_lt.mpr hfits
    simp only [flipHeaders, hheadLen, hdata, hroom, if_false, hfits, if_true, hupdate]
    rfl
  · have hshort : (st.heap request).headLen.toUInt64 <
        cfg.dataSize + UInt64.ofNat sizeofRequestHeader := UInt64.not_le.mp hfits
    simp only [flipHeaders, hheadLen, hdata, hshort, if_true, hfits, if_false, hupdate]
    rfl

/-! ## The batch -/

/-- Echoing `requests` changes memory and the requests only, and of these no
field that says which buffer they have or how they are released. -/
structure EchoKeeps (requests : List Addr) (st st' : State) : Prop where
  rest : st' = { st with mem := st'.mem, heap := st'.heap }
  frame : ∀ a ∉ requests, st'.heap a = st.heap a
  release : ∀ a, (st'.heap a).release = (st.heap a).release
  head : ∀ a, (st'.heap a).head = (st.heap a).head
  headLen : ∀ a, (st'.heap a).headLen = (st.heap a).headLen

/-- The mbuf of one round, in both cases. -/
theorem echoRequest_keeps (cfg : Config) (request : Addr) (st : State) :
    EchoKeeps [request] st (echoRequest cfg request st).2 := by
  -- both cases write the one mbuf, and neither of the three fields
  have hmodify : ∀ (mem : ByteMemory) (f : Mbuf → Mbuf), (∀ b, (f b).release = b.release) →
      (∀ b, (f b).head = b.head) → (∀ b, (f b).headLen = b.headLen) →
      EchoKeeps [request] st { st with mem := mem, heap := st.heap.modify request f } := by
    intro mem f hrelease hhead hheadLen
    refine ⟨rfl, fun a ha => Heap.modify_of_ne _ (by simpa using ha), ?_, ?_, ?_⟩
    · exact fun a => Heap.modify_keeps (P := fun b => b.release = (st.heap a).release)
        (fun b hb => (hrelease b).trans hb) rfl request
    · exact fun a => Heap.modify_keeps (P := fun b => b.head = (st.heap a).head)
        (fun b hb => (hhead b).trans hb) rfl request
    · exact fun a => Heap.modify_keeps (P := fun b => b.headLen = (st.heap a).headLen)
        (fun b hb => (hheadLen b).trans hb) rfl request
  rw [echoRequest_eq]
  split
  · exact hmodify _ _ (fun _ => rfl) (fun _ => rfl) fun _ => rfl
  · exact hmodify _ _ (fun _ => rfl) (fun _ => rfl) fun _ => rfl

namespace EchoKeeps

variable {requests : List Addr} {st st' st'' : State}

theorem refl (requests : List Addr) (st : State) : EchoKeeps requests st st :=
  ⟨rfl, fun _ _ => rfl, fun _ => rfl, fun _ => rfl, fun _ => rfl⟩

theorem cons {request : Addr} (h : EchoKeeps [request] st st') (h' : EchoKeeps requests st' st'') :
    EchoKeeps (request :: requests) st st'' := by
  refine ⟨?_, ?_, ?_, ?_, ?_⟩
  · rw [h'.rest, h.rest]
  · intro a ha
    rw [List.mem_cons, not_or] at ha
    rw [h'.frame a ha.2, h.frame a (by simpa using ha.1)]
  · exact fun a => (h'.release a).trans (h.release a)
  · exact fun a => (h'.head a).trans (h.head a)
  · exact fun a => (h'.headLen a).trans (h.headLen a)

theorem fits_iff (h : EchoKeeps requests st st') (a : Addr) :
    EchoFits cfg (st'.heap a) ↔ EchoFits cfg (st.heap a) := by
  rw [EchoFits, EchoFits, h.headLen]

end EchoKeeps

/-- Sending back a request that was already sent back changes nothing. -/
theorem echoMbuf_echoMbuf (cfg : Config) (b : Mbuf) : echoMbuf cfg (echoMbuf cfg b) = echoMbuf cfg b :=
  rfl

section Batch

variable {requests heads : List Addr} {st st' : State}

/-- **What echoing a batch leaves alone**, whether it succeeds or not. -/
theorem echoRequests_keeps {res : Except Int32 (List Addr)}
    (h : echoRequests cfg requests heads st = (res, st')) : EchoKeeps requests st st' := by
  induction requests generalizing heads st with
  | nil =>
    obtain ⟨-, rfl⟩ := Prod.mk.inj h
    exact .refl _ _
  | cons request requests ih =>
    have hround := echoRequest_keeps cfg request st
    rw [echoRequests] at h
    rcases hret : echoRequest cfg request st with ⟨ret, st₁⟩
    rw [hret] at hround h
    dsimp only at h
    -- the loop stops at the first request that does not fit
    split at h
    · obtain ⟨-, rfl⟩ := Prod.mk.inj h
      exact hround.cons (.refl _ _)
    · exact hround.cons (ih h)

/-- **Echoing a batch succeeds** exactly when all replies fit, and the replies
are the requests. -/
theorem echoRequests_eq (cfg : Config) (requests heads : List Addr) (st : State) :
    (echoRequests cfg requests heads st).1 =
      if ∀ r ∈ requests, EchoFits cfg (st.heap r) then .ok (heads ++ requests)
      else .error (-einval) := by
  induction requests generalizing heads st with
  | nil => simp [echoRequests]
  | cons request requests ih =>
    have hround := echoRequest_keeps cfg request st
    rw [echoRequests, echoRequest_eq] at *
    by_cases hfits : EchoFits cfg (st.heap request)
    · rw [if_pos hfits] at hround ⊢
      have hrest : (∀ r ∈ requests, EchoFits cfg (st.heap r)) ↔
          ∀ r ∈ request :: requests, EchoFits cfg (st.heap r) := by simp [hfits]
      simp only [ne_eq, not_true_eq_false, if_false, ih, hround.fits_iff, hrest,
        List.append_assoc, List.singleton_append]
    · rw [if_neg hfits]
      have hcode : (-einval : Int32) ≠ 0 := by decide
      simp [hcode, hfits]

/-- The requests as they are sent back. -/
theorem echoRequests_heap {heads' : List Addr}
    (h : echoRequests cfg requests heads st = (.ok heads', st')) :
    ∀ r ∈ requests, st'.heap r = echoMbuf cfg (st.heap r) := by
  induction requests generalizing heads st with
  | nil => simp
  | cons request requests ih =>
    rw [echoRequests, echoRequest_eq] at h
    by_cases hfits : EchoFits cfg (st.heap request)
    · simp only [hfits, if_true, ne_eq, not_true_eq_false, if_false] at h
      have hrest : ∀ r ∈ requests,
          st'.heap r = echoMbuf cfg (st.heap.modify request (echoMbuf cfg) r) := ih h
      have hframe : ∀ a ∉ requests, st'.heap a = st.heap.modify request (echoMbuf cfg) a :=
        (echoRequests_keeps h).frame
      intro r hr
      by_cases hmem : r ∈ requests
      · rw [hrest r hmem]
        by_cases hself : r = request
        · rw [hself, Heap.modify_self, echoMbuf_echoMbuf]
        · rw [Heap.modify_of_ne _ hself]
      · obtain rfl : r = request := (List.mem_cons.mp hr).resolve_right hmem
        rw [hframe r hmem, Heap.modify_self]
    · have hcode : (-einval : Int32) ≠ 0 := by decide
      simp [hfits, hcode] at h

end Batch

end Mlx5Netperf
