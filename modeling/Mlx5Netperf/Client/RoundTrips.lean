import Mlx5Netperf.Client.Pacing

/-!
# The Round Trips of the Client

What the whole client does to its requests and its packet map is a run of the
accounting alone, as long as every reply that it accepts carries the id of a
request that it sent. Then each entry of the map is the time from the sending of a
request to its reply.
-/

namespace Mlx5Netperf

open Transition

namespace WholeClient

variable {cfg : ClientConfig} {fuel duration horizon numRequests : ℕ} {I : Holding}
  {interval now : UInt64} {running : Bool} {r r' : WholeClient}

/-- The packet that is looked at next carries the id of a request that was sent, if it
is accepted. -/
def AnswersSent (cfg : ClientConfig) (r : WholeClient) : Prop :=
  ∀ pkt rest payload len, r.phase = .burst (pkt :: rest) →
    checkValidPacket r.st.mem (r.st.heap pkt) cfg.clientMac = some (payload, len) →
      (readU64 r.st.mem payload).toNat < r.stamped

/-- A step of a client that gets no other replies. -/
def AnsweredStep (cfg : ClientConfig) (fuel duration horizon : ℕ) (r r' : WholeClient) : Prop :=
  AnswersSent cfg r ∧ Step cfg fuel duration horizon r r'

/-! ## The accounting of a run -/

/-- What the client keeps between two packets. A request counts as sent from its
time on. -/
def toClientRun (r : WholeClient) : ClientRun := { r.account with current := r.stamped }

theorem toClientRun_congr (hrequests : r'.account.requests = r.account.requests)
    (hmap : r'.account.map = r.account.map) (hstamped : r'.stamped = r.stamped) :
    r'.toClientRun = r.toClientRun := by
  simp [toClientRun, hrequests, hmap, hstamped]

/-- A step of the program is a step of the accounting, or none. -/
theorem Progress.toClientRun (hanswers : AnswersSent cfg r) (h : Progress cfg running now r r') :
    r'.toClientRun = r.toClientRun ∨ ClientRun.Step r.toClientRun r'.toClientRun := by
  cases h with
  | @stamps request pkt hphase hrunning hrequest haccount hlast hbudget hphase' =>
    have hbefore : r.stamped = r.account.current := by simp [stamped, heads, hphase]
    have hafter : r'.stamped = r.account.current + 1 := by simp [stamped, heads, hphase', haccount]
    have hsend : ClientRun.Step r.toClientRun _ := .send now (hbefore ▸ hrequest)
    refine .inr ?_
    convert hsend using 1
    simp [WholeClient.toClientRun, haccount, hbefore, hafter]
  | due hphase hrequest haccount hlast hdue hphase' =>
    have hafter : r'.stamped = r.stamped := by simp [stamped, heads, haccount, hphase, hphase']
    exact .inl (toClientRun_congr (by rw [haccount]) (by rw [haccount]) hafter)
  | records hphase hvalid hrequest haccount hlast hbudget hphase' =>
    have hafter : r'.stamped = r.stamped := by simp [stamped, heads, haccount, hphase, hphase']
    have hreceive : ClientRun.Step r.toClientRun _ :=
      .receive now (hanswers _ _ _ _ hphase hvalid) hrequest
    refine .inr ?_
    convert hreceive using 1
    simp [WholeClient.toClientRun, haccount, hafter]
  | quiet hrequests hmap hstamped hlast hbudget hphase' =>
    exact .inl (toClientRun_congr hrequests hmap hstamped)

/-- A step of the whole client is a step of the accounting, or none: the clock is no part
of it. -/
theorem AnsweredStep.toClientRun (h : AnsweredStep cfg fuel duration horizon r r') :
    r'.toClientRun = r.toClientRun ∨ ClientRun.Step r.toClientRun r'.toClientRun := by
  obtain ⟨hanswers, hstep⟩ := h
  cases hstep with
  | reports hnic => exact .inl rfl
  | receives hnic => exact .inl rfl
  | program hfirst hnow hhorizon hrunning hrun =>
    have hprogress := (doClientStep_progress hrun).toClientRun hanswers
    exact hprogress

/-- A step of the accounting with a packet map that has room for it: behind its last entry
`add_latency_to_map` stores to what follows the map. -/
def RecordedStep (a a' : ClientRun) : Prop :=
  ClientRun.Step a a' ∧ a'.map.totalCount ≤ maxIterations

/-- **The whole client refines its accounting**: whatever the rings, the pools and the
device do, its requests and its packet map go through a run of `ClientRun`, as long as
the map has room for its replies. -/
theorem toClientRun_reachable
    (h : Reachable (Init I) (AnsweredStep cfg fuel duration horizon) r)
    (hmap : r.account.map.totalCount ≤ maxIterations) :
    Reachable ClientRun.Init RecordedStep r.toClientRun := by
  induction h with
  | @init r hinit =>
    have hstamped : r.stamped = r.account.current := by simp [stamped, heads, hinit.phase]
    have heq : r.toClientRun = r.account := by rw [toClientRun, hstamped]
    rw [heq]
    exact .init hinit.account
  | @step r r' hbefore hstep ih =>
    rcases AnsweredStep.toClientRun hstep with hsame | haccounts
    · have hmap' := congrArg (fun a => a.map.totalCount) hsame
      rw [hsame]
      exact ih (hmap'.ge.trans hmap)
    · -- the map had room before, since it only grows
      exact (ih (haccounts.totalCount_le.trans hmap)).step ⟨haccounts, hmap⟩

/-! ## The times of the packet map -/

/-- Each entry of the packet map names a request that was sent, and its time is that from
then until the clock was read again. -/
def Measured (r : WholeClient) : Prop :=
  ∀ i < r.account.map.totalCount, ∃ request,
    getClientReq r.account.requests (r.account.map.ids i).toNat = some request ∧
      (r.account.map.ids i).toNat < r.stamped ∧
        request.timestampOffset.toNat + (r.account.map.rtts i).toNat ≤ r.clock.toNat

/-- The requests that were sent do not change any more. -/
theorem Measured.mono (h : Measured r) (hmap : r'.account.map = r.account.map)
    (hstamped : r.stamped ≤ r'.stamped) (hclock : r.clock ≤ r'.clock)
    (hrequests : ∀ k < r.stamped, r'.account.requests[k]? = r.account.requests[k]?) :
    Measured r' := by
  intro i hi
  rw [hmap] at hi ⊢
  obtain ⟨request, hrequest, hsent, htime⟩ := h i hi
  exact ⟨request, (hrequests _ hsent).trans hrequest, hsent.trans_le hstamped,
    htime.trans (UInt64.le_iff_toNat_le.mp hclock)⟩

/-- **A reply is recorded** with the time since its request was sent. -/
theorem Measured.records {id : UInt64} {request : ClientRequest} (h : Measured r)
    (hpaced : Paced interval numRequests duration horizon r) (hsmall : numRequests ≤ 2 ^ 32)
    (hsent : id.toNat < r.stamped) (hrequest : getClientReq r.account.requests id.toNat = some request)
    (haccount : r'.account = { r.account with
      map := (addLatencyToMap r.account.map (now - request.timestampOffset) id.toUInt32).2 })
    (hstamped : r'.stamped = r.stamped) (hclock : r.clock ≤ now) (hnow : r'.clock = now) :
    Measured r' := by
  have hbefore := hpaced.timestamp_le hsent hrequest
  have hclock' := UInt64.le_iff_toNat_le.mp hclock
  -- the id is that of a request, so its upper half is zero
  have hid : id.toUInt32.toUInt64.toNat = id.toNat := by
    obtain ⟨hlt, -⟩ := List.getElem?_eq_some_iff.mp hrequest
    rw [hpaced.length] at hlt
    rw [UInt32.toNat_toUInt64, UInt64.toNat_toUInt32, Nat.mod_eq_of_lt (hlt.trans_le hsmall)]
  intro i hi
  simp only [haccount, addLatencyToMap] at hi ⊢
  rw [hstamped, hnow]
  rcases Nat.lt_succ_iff_lt_or_eq.mp hi with hold | rfl
  · rw [Function.update_of_ne hold.ne, Function.update_of_ne hold.ne]
    obtain ⟨request', hrequest', hsent', htime⟩ := h i hold
    exact ⟨request', hrequest', hsent', htime.trans hclock'⟩
  · rw [Function.update_self, Function.update_self, hid]
    refine ⟨request, hrequest, hsent, ?_⟩
    rw [UInt64.toNat_sub_of_le _ _ (UInt64.le_iff_toNat_le.mpr (hbefore.trans hclock'))]
    omega

/-- **Every step keeps the times of the map.** -/
theorem Step.measured (hsmall : numRequests ≤ 2 ^ 32)
    (hpaced : Paced interval numRequests duration horizon r) (h : Measured r)
    (hanswers : AnswersSent cfg r) (hstep : Step cfg fuel duration horizon r r') : Measured r' := by
  cases hstep with
  | reports hnic => exact h
  | receives hnic => exact h
  | @program r₁ running first now hfirst hnow hhorizon hrunning hrun =>
    have hclock : r.clock ≤ now := UInt64.le_trans hfirst hnow
    cases doClientStep_progress hrun with
    | stamps hphase hgo hrequest haccount hlast hbudget hphase' =>
      have hbefore : r.stamped = r.account.current := by simp [stamped, heads, hphase]
      have hafter : r₁.stamped = r.account.current + 1 := by
        simp [stamped, heads, hphase', haccount]
      refine h.mono (by rw [haccount]) (Nat.le.intro (hbefore ▸ hafter).symm) hclock fun k hk => ?_
      -- the request that is stamped is behind those that were sent
      rw [haccount]
      exact List.getElem?_set_ne (by omega)
    | due hphase hrequest haccount hlast hdue hphase' =>
      refine h.mono (by rw [haccount]) (Nat.le_of_eq ?_) hclock fun k _ => by rw [haccount]
      simp [stamped, heads, haccount, hphase, hphase']
    | records hphase hvalid hrequest haccount hlast hbudget hphase' =>
      refine h.records hpaced hsmall (hanswers _ _ _ _ hphase hvalid) hrequest haccount ?_ hclock rfl
      simp [stamped, heads, haccount, hphase, hphase']
    | quiet hrequests hmap hstamped hlast hbudget hphase' =>
      exact h.mono hmap hstamped.ge hclock fun k _ => by rw [hrequests]

/-- **The recorded times are round trips**: in every run in which the clock does not
wrap and no foreign reply is accepted, each entry of the packet map names a request
that was sent, and its time is not more than what passed since then; no subtraction
wraps. The map has room for `MAX_ITERATIONS` of them. -/
theorem round_trips_measured (hwrap : horizon + interval.toNat ≤ 2 ^ 64)
    (hsmall : numRequests ≤ 2 ^ 32)
    (h : Reachable (Start I interval numRequests) (AnsweredStep cfg fuel duration horizon) r)
    (hmap : r.account.map.totalCount ≤ maxIterations) :
    ∀ i < r.account.map.totalCount, i < maxIterations ∧ ∃ request,
      getClientReq r.account.requests (r.account.map.ids i).toNat = some request ∧
        (r.account.map.ids i).toNat < r.stamped ∧
          request.timestampOffset.toNat + (r.account.map.rtts i).toNat ≤ r.clock.toNat := by
  have hboth : Paced interval numRequests duration horizon r ∧ Measured r := by
    refine Reachable.invariant (P := fun r => Paced interval numRequests duration horizon r ∧
      Measured r) (fun r hstart => ⟨hstart.paced, ?_⟩) (fun r r' hinv hstep => ?_) h
    · intro i hi
      rw [hstart.init.account.map] at hi
      exact absurd hi (Nat.not_lt_zero i)
    · exact ⟨hstep.2.paced hwrap hinv.1, hstep.2.measured hsmall hinv.1 hinv.2 hstep.1⟩
  exact fun i hi => ⟨hi.trans_le hmap, hboth.2 i hi⟩

/-! ## One reply -/

/-- A client without an address. -/
def plainClient : ClientConfig := { oneSegmentClient with clientMac := Vector.replicate 6 0 }

/-- The small client once the device received a packet, with id 0. -/
def smallReplied : WholeClient :=
  { smallClient fitMbuf with
    run := ⟨{ smallStart fitMbuf with
      mem := ServerRun.smallPacket
      rxq := { (smallStart fitMbuf).rxq with rxCq := ServerRun.smallCq } }, 0⟩
    received := 1 }

theorem smallReplied_reachable {init : WholeClient → Prop} (hinit : init (smallClient fitMbuf)) :
    Reachable init (AnsweredStep plainClient 32 1000 2000) smallReplied := by
  have horder : InRingOrder (smallStart fitMbuf).rxq.rxWq.wqeCnt.toNat 0 [0] := by
    intro i counter hi
    obtain ⟨hlt, rfl⟩ := List.getElem?_eq_some_iff.mp hi
    obtain rfl : i = 0 := by simpa using hlt
    rfl
  have hanswers : AnswersSent plainClient (smallClient fitMbuf) := by
    intro pkt rest payload len hphase
    cases hphase
  exact (Reachable.init hinit).step ⟨hanswers,
    .receives (.receive (Nat.zero_le 1) rfl (by decide +kernel) horder (by decide +kernel))⟩

/-- Only a packet of a burst can be a foreign reply. -/
theorem answersSent_of_phase (h : ∀ pkt rest, r.phase ≠ .burst (pkt :: rest)) : AnswersSent cfg r :=
  fun pkt rest _ _ hphase => absurd hphase (h pkt rest)

/-- A step of the program, with both looks at the clock at the same time. -/
theorem reachable_answered {init : WholeClient → Prop}
    (h : Reachable init (AnsweredStep cfg fuel duration horizon) r) (hanswers : AnswersSent cfg r)
    (hclock : r.clock ≤ now) (hduration : now.toNat < duration) (hhorizon : now.toNat < horizon)
    (hstep : doClientStep cfg fuel true now r = some r') :
    Reachable init (AnsweredStep cfg fuel duration horizon) { r' with clock := now } :=
  h.step ⟨hanswers, .program hclock (UInt64.le_refl now) hhorizon (fun _ => hduration) hstep⟩

/-- The first request is sent at 10, and the packet that waits is its reply, taken at 500. -/
theorem exists_replyTaken (init : WholeClient → Prop) (hinit : init (smallClient fitMbuf)) :
    ∃ r, Reachable init (AnsweredStep plainClient 32 1000 2000) r ∧ r.phase = .burst [0x400000] ∧
      r.clock = 500 ∧ AnswersSent plainClient r ∧ r.received = 1 ∧ r.st.rxq.rxWq.wqeCnt.toNat = 4 ∧
        (doClientStep plainClient 32 true 700 r).map
          (fun r' => (r'.account.map.totalCount, r'.account.map.rtts 0)) = some (1, 690) := by
  have hruns : ((doClientStep plainClient 32 true 10 smallReplied).bind fun r₁ =>
      (doClientStep plainClient 32 true 10 { r₁ with clock := 10 }).bind fun r₂ =>
      (doClientStep plainClient 32 true 500 { r₂ with clock := 10 }).map fun r₃ =>
        ([r₁.phase, r₂.phase, r₃.phase], (checkValidPacket r₃.st.mem (r₃.st.heap 0x400000)
          plainClient.clientMac).map (fun p => readU64 r₃.st.mem p.1),
          [r₃.stamped, r₃.received, r₃.st.rxq.rxWq.wqeCnt.toNat], (doClientStep plainClient 32 true 700 { r₃ with clock := 500 }).map
            (fun r' => (r'.account.map.totalCount, r'.account.map.rtts 0)))) =
        some ([.sending 0x100000, .waiting, .burst [0x400000]], some 0, [1, 1, 4], some (1, 690)) := by
    decide +kernel
  obtain ⟨r₁, h₁, hruns⟩ := Option.bind_eq_some_iff.mp hruns
  obtain ⟨r₂, h₂, hruns⟩ := Option.bind_eq_some_iff.mp hruns
  obtain ⟨r₃, h₃, hruns⟩ := Option.map_eq_some_iff.mp hruns
  simp only [Prod.mk.injEq, List.cons.injEq, and_true] at hruns
  obtain ⟨⟨hphase₁, hphase₂, hphase₃⟩, hid, ⟨hstamped, hreceived, hsize⟩, hrecords⟩ := hruns
  have hanswers : AnswersSent plainClient { r₃ with clock := 500 } := by
    intro pkt rest payload len hphase hvalid
    obtain ⟨rfl, -⟩ := List.cons.inj (ClientPhase.burst.inj (hphase₃.symm.trans hphase))
    have hread : some (readU64 r₃.st.mem payload) = some 0 := by
      rw [← hid, show checkValidPacket r₃.st.mem (r₃.st.heap 0x400000) plainClient.clientMac =
        some (payload, len) from hvalid]
      rfl
    show (readU64 r₃.st.mem payload).toNat < r₃.stamped
    rw [Option.some.inj hread, hstamped]
    decide
  have hreach₁ := reachable_answered (smallReplied_reachable hinit)
    (answersSent_of_phase (by simp [smallReplied, smallClient])) (by decide) (by decide)
    (by decide) h₁
  have hreach₂ := reachable_answered hreach₁
    (answersSent_of_phase (by simp [hphase₁])) (UInt64.le_refl 10) (by decide) (by decide) h₂
  have hreach₃ := reachable_answered hreach₂
    (answersSent_of_phase (by simp [hphase₂])) (by decide : (10 : UInt64) ≤ 500) (by decide)
    (by decide) h₃
  exact ⟨_, hreach₃, hphase₃, rfl, hanswers, hreceived, hsize, hrecords⟩

/-- It is recorded at 700. -/
theorem exists_oneReply : ∃ r, Reachable (Start ServerRun.smallItems 1000 2)
    (AnsweredStep plainClient 32 1000 2000) r ∧ r.account.map.totalCount = 1 ∧
      r.account.map.rtts 0 = 690 := by
  obtain ⟨r, hreach, -, hclock, hanswers, -, -, hrecords⟩ :=
    exists_replyTaken _ (smallClient_start fitMbuf)
  obtain ⟨r', hstep, heq⟩ := Option.map_eq_some_iff.mp hrecords
  obtain ⟨hcount, htime⟩ := Prod.mk.inj heq
  have hlater : r.clock ≤ 700 := by
    rw [hclock]
    decide
  exact ⟨_, reachable_answered hreach hanswers hlater (by decide) (by decide) hstep, hcount, htime⟩

/-- The reply of the small client took 690 cycles. -/
theorem round_trips_measured_oneReply : ∃ r : WholeClient, r.account.map.rtts 0 = 690 ∧
    ∃ request, getClientReq r.account.requests (r.account.map.ids 0).toNat = some request ∧
      request.timestampOffset.toNat + (r.account.map.rtts 0).toNat ≤ r.clock.toNat := by
  obtain ⟨r, hreach, hcount, htime⟩ := exists_oneReply
  obtain ⟨-, request, hrequest, -, hle⟩ := round_trips_measured (by decide) (by decide) hreach
    (hcount.le.trans (by decide)) 0 (by omega)
  exact ⟨r, htime, request, hrequest, hle⟩

/-- Its accounting. -/
theorem toClientRun_reachable_oneReply : ∃ r : WholeClient, r.account.map.totalCount = 1 ∧
    Reachable ClientRun.Init RecordedStep r.toClientRun := by
  obtain ⟨r, hreach, hcount, -⟩ := exists_oneReply
  have hinit : Reachable (Init ServerRun.smallItems) (AnsweredStep plainClient 32 1000 2000) r :=
    Reachable.invariant (P := Reachable (Init ServerRun.smallItems) (AnsweredStep plainClient 32 1000 2000))
      (fun _ hstart => .init hstart.init) (fun _ _ hbefore hstep => hbefore.step hstep) hreach
  exact ⟨r, hcount, toClientRun_reachable hinit (hcount.le.trans (by decide))⟩

end WholeClient

end Mlx5Netperf
