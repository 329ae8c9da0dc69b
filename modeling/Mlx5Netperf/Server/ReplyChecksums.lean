import Mlx5Netperf.Lib.Transition
import Mlx5Netperf.Server.RequestedData

/-!
# The Checksum Field of a Reply

`request_headers` is static, and a batch uses its entries from the first one on.
With `read_incoming_packet` a reply starts from the checksum of its request.
Without, it starts from whatever the last reply in the same place left there,
and `process_server_requests` adds the reference counts to that.
-/

namespace Mlx5Netperf

open Transition

/-! ## The counts of a reply -/

/-- What `server_change_refcnt` returns for the segments of a reply, in order. -/
def returnedCounts (cfg : Config) : List UInt64 → State → List UInt16
  | [], _ => []
  | segment :: segments, st =>
    let (cur, st) := serverChangeRefcnt cfg st segment 1
    cur :: returnedCounts cfg segments st

/-- What a reply adds to its checksum field. -/
def addedCounts (cfg : Config) (segments : List UInt64) (st : State) : UInt64 :=
  if cfg.usingRefCounting then ((returnedCounts cfg segments st).map UInt16.toUInt64).sum else 0

/-- The field as it is meant: the checksum over the request, if it is read, and
the counts of its segments, if they are kept. -/
def meantChecksum (cfg : Config) (st : State) (request : Addr) : UInt64 :=
  (if cfg.readIncomingPacket then incomingChecksum st.mem (st.heap request) else 0) +
    addedCounts cfg (requestedSegments cfg st request) st

variable {cfg : Config} {fuel pktIdx : ℕ} {request m : Addr} {requests heads ms : List Addr}
  {st st' : State}

/-- The returned counts depend on the reference counts only. -/
theorem returnedCounts_congr {st₁ st₂ : State} (h : st₁.workingSetRefcnts = st₂.workingSetRefcnts)
    (segments : List UInt64) : returnedCounts cfg segments st₁ = returnedCounts cfg segments st₂ := by
  induction segments generalizing st₁ st₂ with
  | nil => rfl
  | cons segment segments ih =>
    -- a change reads and writes the counts only
    have hrefcnts : (serverChangeRefcnt cfg st₁ segment 1).2.workingSetRefcnts =
        (serverChangeRefcnt cfg st₂ segment 1).2.workingSetRefcnts := by
      simp only [serverChangeRefcnt, h]
    have hcur :
        (serverChangeRefcnt cfg st₁ segment 1).1 = (serverChangeRefcnt cfg st₂ segment 1).1 := by
      simp only [serverChangeRefcnt, h]
    simp only [returnedCounts, hcur, ih hrefcnts]

theorem addedCounts_congr {st₁ st₂ : State} (h : st₁.workingSetRefcnts = st₂.workingSetRefcnts)
    (segments : List UInt64) : addedCounts cfg segments st₁ = addedCounts cfg segments st₂ := by
  simp only [addedCounts, returnedCounts_congr h]

/-- The headers after the checksum field of packet `pktIdx` was raised. -/
def raiseChecksum (headers : ℕ → RequestHeader) (pktIdx : ℕ) (count : UInt64) : ℕ → RequestHeader :=
  Function.update headers pktIdx
    { headers pktIdx with checksum := (headers pktIdx).checksum + count }

theorem raiseChecksum_raiseChecksum (headers : ℕ → RequestHeader) (pktIdx : ℕ) (a b : UInt64) :
    raiseChecksum (raiseChecksum headers pktIdx a) pktIdx b =
      raiseChecksum headers pktIdx (a + b) := by
  simp only [raiseChecksum, Function.update_self, Function.update_idem, UInt64.add_assoc]

theorem raiseChecksum_zero (headers : ℕ → RequestHeader) (pktIdx : ℕ) :
    raiseChecksum headers pktIdx 0 = headers := by
  simp only [raiseChecksum, UInt64.add_zero, Function.update_eq_self]

/-- One segment raises the field by the count of the segment. -/
theorem zeroCopySegment_requestHeaders {segment : UInt64}
    (h : zeroCopySegment cfg pktIdx ms segment st = some (m, st')) :
    st'.requestHeaders = raiseChecksum st.requestHeaders pktIdx
      (if cfg.usingRefCounting then (serverChangeRefcnt cfg st segment 1).1.toUInt64 else 0) := by
  obtain ⟨⟨m', pool⟩, -, heq⟩ := Option.map_eq_some_iff.mp h
  obtain ⟨-, rfl⟩ := Prod.mk.inj heq
  cases hrc : cfg.usingRefCounting with
  | false => exact (raiseChecksum_zero _ _).symm
  | true => rfl

/-- The loop over the segments raises it by all of them. -/
theorem zeroCopySegments_requestHeaders {segments : List UInt64} {ms' : List Addr}
    (h : zeroCopySegments cfg pktIdx segments ms st = (some ms', st')) :
    st'.requestHeaders = raiseChecksum st.requestHeaders pktIdx (addedCounts cfg segments st) := by
  induction segments generalizing ms st with
  | nil =>
    obtain ⟨-, rfl⟩ := Prod.mk.inj h
    -- no segment, no count
    have hnone : addedCounts cfg [] st = 0 := by
      simp only [addedCounts, returnedCounts, List.map_nil, List.sum_nil, ite_self]
    rw [hnone, raiseChecksum_zero]
  | cons segment segments ih =>
    rw [zeroCopySegments] at h
    split at h
    case h_1 => simp at h
    case h_2 m st₁ hsegment =>
      rw [ih h, zeroCopySegment_requestHeaders hsegment, raiseChecksum_raiseChecksum]
      cases hrc : cfg.usingRefCounting with
      | false => simp only [addedCounts, hrc, Bool.false_eq_true, if_false, UInt64.add_zero]
      | true =>
        -- the later segments are counted from the counts that this one left
        have hrefcnts : st₁.workingSetRefcnts =
            (serverChangeRefcnt cfg st segment 1).2.workingSetRefcnts := by
          rw [(zeroCopySegment_built hsegment).refcnts, hrc]
          rfl
        simp only [addedCounts, hrc, if_true, returnedCounts, returnedCounts_congr hrefcnts,
          List.map_cons, List.sum_cons]

/-- **The header of a zero-copy reply**: that of its request, and the counts of
its segments on top of what the field starts from. -/
theorem buildReply_requestHeaders (hzero : cfg.zeroCopy = true)
    (h : buildReply cfg pktIdx request st = some (.ok m, st')) :
    st'.requestHeaders = Function.update st.requestHeaders pktIdx
      { replyHeader cfg st pktIdx request with
        checksum := replyChecksum cfg st pktIdx request +
          addedCounts cfg (requestedSegments cfg st request) st } := by
  obtain ⟨checksum, hbuild⟩ := buildReply_zeroCopy hzero pktIdx request st
  rw [hbuild] at h
  unfold scatterListReply at h
  split at h
  case h_1 => simp at h
  case h_2 ms st₂ hloop =>
    split at h
    case h_2 => simp at h
    case h_1 first last =>
      simp only [Option.some.injEq, Prod.mk.injEq, Except.ok.injEq] at h
      obtain ⟨-, rfl⟩ := h
      -- the start of the reply leaves the reference counts alone
      have hcounts := @addedCounts_congr cfg
        { st with
          checksum, requestHeaders := Function.update st.requestHeaders pktIdx
            (replyHeader cfg st pktIdx request) } st rfl (requestedSegments cfg st request)
      show st₂.requestHeaders = _
      rw [zeroCopySegments_requestHeaders hloop, hcounts]
      simp only [raiseChecksum, Function.update_self, Function.update_idem]
      rfl

/-! ## The rounds of a batch -/

/-- The round of a request in a run of the loop. -/
theorem BuildRun.split (h : BuildRun cfg pktIdx requests st heads st') {j : ℕ}
    (hrequest : requests[j]? = some request) :
    ∃ before m after, BuildRun cfg pktIdx (requests.take j) st (heads.take j) before ∧
      buildReply cfg (pktIdx + j) request before = some (.ok m, after) ∧
      BuildRun cfg (pktIdx + j + 1) (requests.drop (j + 1)) after (heads.drop (j + 1)) st' := by
  induction h generalizing j with
  | nil => simp at hrequest
  | @cons pktIdx first m requests heads st st₁ st' hround hrest ih =>
    cases j with
    | zero =>
      obtain rfl : first = request := Option.some.inj hrequest
      exact ⟨st, m, st₁, .nil, hround, hrest⟩
    | succ j =>
      obtain ⟨before, m', after, hbefore, hround', hafter⟩ := ih hrequest
      -- the rest of the batch starts one packet later
      have hindex : pktIdx + 1 + j = pktIdx + (j + 1) := by omega
      rw [hindex] at hround' hafter
      exact ⟨before, m', after, .cons hround hbefore, hround', hafter⟩

/-- The loop is deterministic. -/
theorem BuildRun.unique {heads' : List Addr} {st₁ st₂ : State}
    (h : BuildRun cfg pktIdx requests st heads st₁) (h' : BuildRun cfg pktIdx requests st heads' st₂) :
    st₁ = st₂ := by
  induction h generalizing heads' with
  | nil =>
    cases h' with
    | nil => rfl
  | cons hround _ ih =>
    cases h' with
    | cons hround' hrest' =>
      rw [hround] at hround'
      simp only [Option.some.injEq, Prod.mk.injEq, Except.ok.injEq] at hround'
      obtain ⟨-, rfl⟩ := hround'
      exact ih hrest'

/-- Rounds leave the headers of the earlier packets and of those behind the batch. -/
theorem BuildRun.requestHeaders_outside (hzero : cfg.zeroCopy = true)
    (h : BuildRun cfg pktIdx requests st heads st') {i : ℕ}
    (hi : i < pktIdx ∨ pktIdx + requests.length ≤ i) : st'.requestHeaders i = st.requestHeaders i := by
  induction h with
  | nil => rfl
  | @cons pktIdx request m requests heads st st₁ st' hround _ ih =>
    rw [List.length_cons] at hi
    rw [ih (by omega), buildReply_requestHeaders hzero hround, Function.update_of_ne (by omega)]

/-- **The header that a batch leaves for a request**, from the state before its round. -/
theorem BuildRun.requestHeader (hzero : cfg.zeroCopy = true)
    (h : BuildRun cfg pktIdx requests st heads st') {j : ℕ}
    (hrequest : requests[j]? = some request) {before : State}
    (hbefore : BuildRun cfg pktIdx (requests.take j) st (heads.take j) before) :
    st'.requestHeaders (pktIdx + j) =
      { replyHeader cfg before (pktIdx + j) request with
        checksum := replyChecksum cfg before (pktIdx + j) request +
          addedCounts cfg (requestedSegments cfg before request) before } := by
  obtain ⟨before', m, after, hbefore', hround, hafter⟩ := h.split hrequest
  -- there is one state before the round, since the loop is deterministic
  obtain rfl := hbefore.unique hbefore'
  rw [hafter.requestHeaders_outside hzero (.inl (Nat.lt_succ_self _)),
    buildReply_requestHeaders hzero hround, Function.update_self]

/-! ## Histories -/

/-- Nothing was added to any header. -/
def HeadersZeroed (st : State) : Prop := ∀ i, (st.requestHeaders i).checksum = 0

/-- One step of a history: a batch, with any outcome, or a part of the program
that does not write `request_headers`. -/
inductive HeaderStep (cfg : Config) (fuel : ℕ) : State → State → Prop where
  | batch {requests : List Addr} {res : Except Int32 (List Addr)} {st st' : State}
      (hbuild : buildReplies cfg fuel requests [] st = some (res, st')) : HeaderStep cfg fuel st st'
  | other {st st' : State} (hheaders : st'.requestHeaders = st.requestHeaders) :
      HeaderStep cfg fuel st st'

/-- The field of the reply number `j` of a batch is the one meant for its request. -/
def FieldIsCurrent (cfg : Config) (requests heads : List Addr) (st st' : State) (j : ℕ)
    (request : Addr) : Prop :=
  ∃ before, BuildRun cfg 0 (requests.take j) st (heads.take j) before ∧
    (requestHeaderPtr cfg st' j).map RequestHeader.checksum = some (meantChecksum cfg before request)

/-- Without counting, the loop over the segments leaves the headers alone, also
when an allocation fails. -/
theorem zeroCopySegments_noRefCounting {segments : List UInt64} {res : Option (List Addr)}
    (hrc : cfg.usingRefCounting = false)
    (h : zeroCopySegments cfg pktIdx segments ms st = (res, st')) :
    st'.requestHeaders = st.requestHeaders := by
  induction segments generalizing ms st with
  | nil =>
    obtain ⟨-, rfl⟩ := Prod.mk.inj h
    rfl
  | cons segment segments ih =>
    rw [zeroCopySegments] at h
    split at h
    case h_1 =>
      -- the pool was empty
      obtain ⟨-, rfl⟩ := Prod.mk.inj h
      rfl
    case h_2 m st₁ hsegment => rw [ih h, (zeroCopySegment_built hsegment).noRefCounting hrc]

/-- No part of a failing or succeeding zero-copy reply adds to a field when
nothing is read and nothing is counted. -/
theorem buildReply_checksum {res : Except BuildError Addr} (hzero : cfg.zeroCopy = true)
    (hread : cfg.readIncomingPacket = false) (hrc : cfg.usingRefCounting = false)
    (h : buildReply cfg pktIdx request st = some (res, st')) (i : ℕ) :
    (st'.requestHeaders i).checksum = (st.requestHeaders i).checksum := by
  obtain ⟨checksum, hbuild⟩ := buildReply_zeroCopy hzero pktIdx request st
  -- the header is that of the request, with the field as it was
  have hstart : ∀ i, (Function.update st.requestHeaders pktIdx (replyHeader cfg st pktIdx request)
      i).checksum = (st.requestHeaders i).checksum := by
    intro i
    by_cases hi : i = pktIdx
    · subst hi
      rw [Function.update_self]
      exact if_neg (ne_true_of_eq_false hread)
    · rw [Function.update_of_ne hi]
  rw [hbuild] at h
  unfold scatterListReply at h
  split at h
  case h_1 st₂ hfailed =>
    -- an allocation failed on the way
    simp only [Option.some.injEq, Prod.mk.injEq] at h
    obtain ⟨-, rfl⟩ := h
    rw [zeroCopySegments_noRefCounting hrc hfailed]
    exact hstart i
  case h_2 ms st₂ hdone =>
    split at h
    case h_2 => simp at h
    case h_1 first last =>
      simp only [Option.some.injEq, Prod.mk.injEq] at h
      obtain ⟨-, rfl⟩ := h
      show (st₂.requestHeaders i).checksum = _
      rw [zeroCopySegments_noRefCounting hrc hdone]
      exact hstart i

/-- The same for a batch, whatever its outcome. -/
theorem buildReplies_checksum {res : Except Int32 (List Addr)} (hzero : cfg.zeroCopy = true)
    (hread : cfg.readIncomingPacket = false) (hrc : cfg.usingRefCounting = false)
    (h : buildReplies cfg fuel requests heads st = some (res, st')) (i : ℕ) :
    (st'.requestHeaders i).checksum = (st.requestHeaders i).checksum := by
  induction requests generalizing heads st with
  | nil =>
    simp only [buildReplies, Option.some.injEq, Prod.mk.injEq] at h
    rw [h.2]
  | cons request requests ih =>
    rw [buildReplies] at h
    split at h
    case h_1 => simp at h
    case h_2 m st₁ hround => rw [ih h, buildReply_checksum hzero hread hrc hround]
    -- an allocation failed: the replies built before are freed
    case h_3 st₁ hround =>
      obtain ⟨st₂, hprevious, heq⟩ := Option.map_eq_some_iff.mp h
      obtain ⟨-, rfl⟩ := Prod.mk.inj heq
      unfold freePrevious at hprevious
      dsimp only at hprevious
      split at hprevious
      case isTrue =>
        rw [(mbufFreeAll_sameRing hprevious).requestHeaders]
        exact buildReply_checksum hzero hread hrc hround i
      case isFalse => simp at hprevious
    -- no data buffer was left: the mbuf of this reply is freed
    case h_4 a st₁ hround =>
      obtain ⟨st₂, hone, heq⟩ := Option.map_eq_some_iff.mp h
      obtain ⟨-, rfl⟩ := Prod.mk.inj heq
      obtain ⟨tail, hreleased⟩ := mbufFree_released hone
      rw [hreleased.keeps.requestHeaders]
      exact buildReply_checksum hzero hread hrc hround i

/-- **Without reading and counting** the fields stay zero in every history. -/
theorem headersZeroed_of_reachable (hzero : cfg.zeroCopy = true)
    (hread : cfg.readIncomingPacket = false) (hrc : cfg.usingRefCounting = false)
    (h : Reachable HeadersZeroed (HeaderStep cfg fuel) st) : HeadersZeroed st := by
  apply Reachable.invariant (P := HeadersZeroed) (fun _ hinit => hinit) ?_ h
  intro s t hs hstep i
  cases hstep with
  | batch hbuild => rw [buildReplies_checksum hzero hread hrc hbuild, hs i]
  | other hheaders => rw [hheaders, hs i]

/-- **When one field is that of its request**: what the field starts from is the
one difference. -/
theorem fieldIsCurrent_iff {j : ℕ} (hzero : cfg.zeroCopy = true) (hecho : cfg.echoMode = false)
    (hrun : BuildRun cfg 0 requests st heads st') (hrequest : requests[j]? = some request) :
    FieldIsCurrent cfg requests heads st st' j request ↔
      (cfg.readIncomingPacket = true ∨ (st.requestHeaders j).checksum = 0) := by
  have hlt : j < requests.length := (List.getElem?_eq_some_iff.mp hrequest).1
  have hptr : requestHeaderPtr cfg st' j = some (st'.requestHeaders j) := by
    rw [requestHeaderPtr, hecho, hzero]
    rfl
  have hcase : ∀ before, BuildRun cfg 0 (requests.take j) st (heads.take j) before →
      ((requestHeaderPtr cfg st' j).map RequestHeader.checksum =
          some (meantChecksum cfg before request) ↔
        (cfg.readIncomingPacket = true ∨ (st.requestHeaders j).checksum = 0)) := by
    intro before hbefore
    have hheader := hrun.requestHeader hzero hrequest hbefore
    rw [Nat.zero_add] at hheader
    -- the earlier rounds wrote other headers
    have hstart : before.requestHeaders j = st.requestHeaders j :=
      hbefore.requestHeaders_outside hzero (.inr (by rw [List.length_take]; omega))
    rw [hptr, hheader, Option.map_some, Option.some.injEq]
    cases hread : cfg.readIncomingPacket with
    | true => simp only [meantChecksum, replyChecksum, hread, if_true, true_or]
    | false =>
      simp only [meantChecksum, replyChecksum, hread, Bool.false_eq_true, if_false, hstart,
        UInt64.zero_add, false_or]
      constructor
      · intro heq
        -- the counts are the same on both sides, so the start has to be zero
        have hcancel : ∀ a b : UInt64, a + b = b → a = 0 := by grind
        exact hcancel _ _ heq
      · intro heq
        rw [heq, UInt64.zero_add]
  constructor
  · intro hcurrent
    obtain ⟨before, hbefore, heq⟩ := hcurrent
    exact (hcase before hbefore).mp heq
  · intro hcond
    obtain ⟨before, -, -, hbefore, -, -⟩ := hrun.split hrequest
    exact ⟨before, hbefore, (hcase before hbefore).mpr hcond⟩

/-- **When the fields are those of their requests**, after every history: if the
packets are read, or no references are counted, or nothing was left in the
headers that the batch uses. -/
theorem reply_checksums_current_iff (hreach : Reachable HeadersZeroed (HeaderStep cfg fuel) st)
    (hzero : cfg.zeroCopy = true) (hecho : cfg.echoMode = false)
    (hbuild : buildReplies cfg fuel requests [] st = some (.ok heads, st')) :
    (∀ j request, requests[j]? = some request →
      FieldIsCurrent cfg requests heads st st' j request) ↔
    (cfg.readIncomingPacket = true ∨ cfg.usingRefCounting = false ∨
      ∀ j < requests.length, (st.requestHeaders j).checksum = 0) := by
  obtain ⟨built, hrun, hheads⟩ := buildRun_of_ok hbuild
  obtain rfl : heads = built := hheads
  rw [List.length_nil] at hrun
  constructor
  · intro hcurrent
    cases hread : cfg.readIncomingPacket with
    | true => exact .inl rfl
    | false =>
      refine .inr (.inr fun j hj => ?_)
      have hrequest : requests[j]? = some requests[j] := List.getElem?_eq_getElem hj
      have hcond := (fieldIsCurrent_iff hzero hecho hrun hrequest).mp (hcurrent j _ hrequest)
      exact hcond.resolve_left (ne_true_of_eq_false hread)
  · intro hcond j request hrequest
    apply (fieldIsCurrent_iff hzero hecho hrun hrequest).mpr
    rcases hcond with hread | hrc | hclean
    · exact .inl hread
    · cases hread : cfg.readIncomingPacket with
      | true => exact .inl rfl
      | false => exact .inr (headersZeroed_of_reachable hzero hread hrc hreach j)
    · exact .inr (hclean j (List.getElem?_eq_some_iff.mp hrequest).1)

/-- A zero-copy server with one region that counts references. -/
def oneRegionCounting (read : Bool) : Config :=
  { oneRegionServer true with usingRefCounting := true, readIncomingPacket := read }

/-- The one request, with counts as `server_init_refcnt_array` leaves them. -/
def countedRequestState : State := { oneRequestState with workingSetRefcnts := fun _ _ => 1 }

/-- The second reply to a packet that is read. -/
theorem reply_checksums_current_secondBatch :
    ∃ heads₁ st₁ heads₂ st₂,
      buildReplies (oneRegionCounting true) 4 [0x5000] [] countedRequestState =
        some (.ok heads₁, st₁) ∧
      buildReplies (oneRegionCounting true) 4 [0x5000] [] st₁ = some (.ok heads₂, st₂) ∧
      FieldIsCurrent (oneRegionCounting true) [0x5000] heads₂ st₁ st₂ 0 0x5000 := by
  obtain ⟨heads₁, st₁, hfirst, heads₂, st₂, hsecond⟩ : ∃ heads₁ st₁,
      buildReplies (oneRegionCounting true) 4 [0x5000] [] countedRequestState =
        some (.ok heads₁, st₁) ∧ ∃ heads₂ st₂,
          buildReplies (oneRegionCounting true) 4 [0x5000] [] st₁ = some (.ok heads₂, st₂) :=
    ⟨_, _, rfl, _, _, rfl⟩
  have hreach : Reachable HeadersZeroed (HeaderStep (oneRegionCounting true) 4) st₁ :=
    .step (.init fun _ => rfl) (.batch hfirst)
  exact ⟨heads₁, st₁, heads₂, st₂, hfirst, hsecond,
    (reply_checksums_current_iff hreach rfl rfl hsecond).mpr (.inl rfl) 0 0x5000 rfl⟩

/-- In the second batch the field is 5, for a segment whose count became 3. -/
theorem not_reply_checksums_current_secondBatch :
    ¬ ∀ (cfg : Config) (fuel : ℕ) (requests heads : List Addr) (st st' : State),
      Reachable HeadersZeroed (HeaderStep cfg fuel) st → cfg.zeroCopy = true →
      cfg.echoMode = false → buildReplies cfg fuel requests [] st = some (.ok heads, st') →
      ∀ j request, requests[j]? = some request →
        FieldIsCurrent cfg requests heads st st' j request := by
  intro hclaim
  -- the first batch is built on zeroed headers, the second on what it left
  obtain ⟨heads₁, st₁, hfirst, hmeant, heads₂, st₂, hsecond, hfield⟩ : ∃ heads₁ st₁,
      buildReplies (oneRegionCounting false) 4 [0x5000] [] countedRequestState =
        some (.ok heads₁, st₁) ∧
      meantChecksum (oneRegionCounting false) st₁ 0x5000 = 3 ∧ ∃ heads₂ st₂,
        buildReplies (oneRegionCounting false) 4 [0x5000] [] st₁ = some (.ok heads₂, st₂) ∧
        (requestHeaderPtr (oneRegionCounting false) st₂ 0).map RequestHeader.checksum = some 5 :=
    ⟨_, _, rfl, by decide, _, _, rfl, by decide⟩
  have hreach : Reachable HeadersZeroed (HeaderStep (oneRegionCounting false) 4) st₁ :=
    .step (.init fun _ => rfl) (.batch hfirst)
  obtain ⟨before, hbefore, heq⟩ :=
    hclaim (oneRegionCounting false) 4 [0x5000] heads₂ st₁ st₂ hreach rfl rfl hsecond 0 0x5000 rfl
  cases hbefore
  rw [hfield, hmeant] at heq
  exact absurd heq (by decide)

end Mlx5Netperf
