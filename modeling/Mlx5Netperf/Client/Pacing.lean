import Mlx5Netperf.Client.ChasedRequests
import Mlx5Netperf.Client.WholeClient

/-!
# The Pace of the Client

`do_client` keeps one array for two things: before a request is sent its
`timestamp_offset` is the distance from the request before it, afterwards the time
when it was sent. In every run the times keep the distance that the requests were
prepared with, so that the time of a run bounds how far the array is used.
-/

namespace Mlx5Netperf

open Transition

namespace WholeClient

variable {cfg : ClientConfig} {fuel duration horizon numRequests : ℕ} {I : Holding}
  {interval now : UInt64} {running : Bool} {r r' : WholeClient}

/-- How many requests have the time when they were sent. -/
def stamped (r : WholeClient) : ℕ := r.account.current + r.heads.length

/-! ## What a step does to the requests -/

/-- What a step of the program does to the requests, to the packet map and to what
the loops keep. -/
inductive Progress (cfg : ClientConfig) (running : Bool) (now : UInt64) (r r' : WholeClient) :
    Prop where
  /-- The current request gets its time. -/
  | stamps {request : ClientRequest} {pkt : Addr} (hphase : r.phase = .idle)
      (hrunning : running = true)
      (hrequest : getClientReq r.account.requests r.account.current = some request)
      (haccount : r'.account = { r.account with
        requests := r.account.requests.set r.account.current { request with timestampOffset := now } })
      (hlast : r'.lastSentCycle = now) (hbudget : r'.latenessBudget = r.latenessBudget)
      (hphase' : r'.phase = .sending pkt)
  /-- The next request is due. -/
  | due {request : ClientRequest} (hphase : r.phase = .waiting)
      (hrequest : getClientReq r.account.requests r.account.current = some request)
      (haccount : r'.account = r.account) (hlast : r'.lastSentCycle = r.lastSentCycle)
      (hdue : (r.latenessBudget > request.timestampOffset ∧
          r'.latenessBudget = r.latenessBudget - request.timestampOffset) ∨
        (now ≥ request.timestampOffset - r.latenessBudget + r.lastSentCycle ∧
          r'.latenessBudget = 0))
      (hphase' : r'.phase = .idle)
  /-- A reply is recorded. -/
  | records {pkt : Addr} {payload : ℕ} {rest : List Addr} {len : UInt32} {request : ClientRequest}
      (hphase : r.phase = .burst (pkt :: rest))
      (hvalid : checkValidPacket r.st.mem (r.st.heap pkt) cfg.clientMac = some (payload, len))
      (hrequest : getClientReq r.account.requests (readU64 r.st.mem payload).toNat = some request)
      (haccount : r'.account = { r.account with
        map := (addLatencyToMap r.account.map (now - request.timestampOffset)
          (readU64 r.st.mem payload).toUInt32).2 })
      (hlast : r'.lastSentCycle = r.lastSentCycle) (hbudget : r'.latenessBudget = r.latenessBudget)
      (hphase' : r'.phase = .burst rest)
  /-- Nothing of that happens; a packet may leave, or the program may end. -/
  | quiet (hrequests : r'.account.requests = r.account.requests)
      (hmap : r'.account.map = r.account.map) (hstamped : r'.stamped = r.stamped)
      (hlast : r'.lastSentCycle = r.lastSentCycle) (hbudget : r'.latenessBudget = r.latenessBudget)
      (hphase' : r'.phase ≠ .idle)

/-- A packet that is freed leaves everything else as it is. -/
theorem freePacket_eq {pkt : Addr} (h : freePacket fuel pkt r = some r') :
    r'.account = r.account ∧ r'.lastSentCycle = r.lastSentCycle ∧
      r'.latenessBudget = r.latenessBudget ∧ r'.phase = r.phase := by
  obtain ⟨st, -, rfl⟩ := Option.map_eq_some_iff.mp h
  exact ⟨rfl, rfl, rfl, rfl⟩

theorem doClientStep_progress (h : doClientStep cfg fuel running now r = some r') :
    Progress cfg running now r r' := by
  unfold doClientStep at h
  split at h
  case h_1 hphase =>
    split at h
    case isTrue hrunning =>
      obtain ⟨request, hrequest, hmap⟩ := Option.bind_eq_some_iff.mp h
      obtain ⟨⟨result, st⟩, -, hresult⟩ := Option.map_eq_some_iff.mp hmap
      cases result with
      | error ret =>
        subst hresult
        exact .quiet rfl rfl (by simp [stamped, heads, withState, hphase]) rfl rfl (by simp)
      | ok pkt =>
        subst hresult
        exact .stamps hphase hrunning hrequest rfl rfl rfl rfl
    case isFalse =>
      obtain rfl := Option.some.inj h
      exact .quiet rfl rfl (by simp [stamped, heads, hphase]) rfl rfl (by simp)
  case h_2 pkt hphase =>
    obtain ⟨⟨ret, st⟩, -, hresult⟩ := Option.map_eq_some_iff.mp h
    dsimp only at hresult
    split at hresult
    case isTrue =>
      -- what was being sent counts as sent
      subst hresult
      exact .quiet rfl rfl (by simp [stamped, heads, hphase]) rfl rfl (by simp)
    case isFalse =>
      subst hresult
      exact .quiet rfl rfl rfl rfl rfl (by simp [withState, hphase])
  case h_3 hphase =>
    obtain ⟨request, hrequest, hmap⟩ := Option.bind_eq_some_iff.mp h
    split at hmap
    case isTrue hbudget =>
      obtain rfl := Option.some.inj hmap
      exact .due hphase hrequest rfl rfl (.inl ⟨hbudget, rfl⟩) rfl
    case isFalse =>
      split at hmap
      case isTrue hnow =>
        obtain rfl := Option.some.inj hmap
        exact .due hphase hrequest rfl rfl (.inr ⟨hnow, rfl⟩) rfl
      case isFalse =>
        obtain ⟨⟨ms, st⟩, -, rfl⟩ := Option.map_eq_some_iff.mp hmap
        exact .quiet rfl rfl (by simp [stamped, heads, withState, hphase]) rfl rfl (by simp)
  case h_4 hphase =>
    obtain rfl := Option.some.inj h
    exact .quiet rfl rfl (by simp [stamped, heads, hphase]) rfl rfl (by simp)
  case h_5 pkt rest hphase =>
    unfold handleReply at h
    split at h
    case h_1 =>
      obtain ⟨haccount, hlast, hbudget, hphase'⟩ := freePacket_eq h
      refine .quiet (by rw [haccount]) (by rw [haccount]) ?_ hlast hbudget (by simp [hphase'])
      simp [stamped, heads, haccount, hphase, hphase']
    case h_2 payload len hvalid =>
      obtain ⟨request, hrequest, hfree⟩ := Option.bind_eq_some_iff.mp h
      obtain ⟨haccount, hlast, hbudget, hphase'⟩ := freePacket_eq hfree
      exact .records hphase hvalid hrequest haccount hlast hbudget hphase'
  case h_6 ret hphase =>
    obtain rfl := Option.some.inj h
    exact .quiet rfl rfl rfl rfl rfl (by simp [hphase])

/-! ## The start -/

/-- The client at the start, with `numRequests` requests `interval` cycles apart. -/
structure Start (I : Holding) (interval : UInt64) (numRequests : ℕ) (r : WholeClient) : Prop where
  init : Init I r
  requests : ∃ pointers numSegments memory,
    r.account.requests = initializeClientRequests pointers numRequests numSegments interval memory

/-- Every request is prepared with the same distance. -/
theorem timestampOffset_initializeClientRequestsLoop {pointers : ℕ → ℕ} {numSegments left iter cur : ℕ}
    {memory : ℕ → Vector UInt64 32} {request : ClientRequest}
    (h : request ∈ initializeClientRequestsLoop pointers numSegments interval memory left iter cur) :
    request.timestampOffset = interval := by
  induction left generalizing iter cur with
  | zero => simp [initializeClientRequestsLoop] at h
  | succ left ih =>
    rw [initializeClientRequestsLoop] at h
    rcases List.mem_cons.mp h with rfl | hlater
    · rfl
    · exact ih hlater

/-! ## The invariant -/

/-- The times of the requests that were sent are `interval` apart, the last of them is
`last_sent_cycle`, and the others still have their distance. -/
structure Paced (interval : UInt64) (numRequests duration horizon : ℕ) (r : WholeClient) : Prop where
  length : r.account.requests.length = numRequests
  unsent : ∀ i request, r.stamped ≤ i → r.account.requests[i]? = some request →
    request.timestampOffset = interval
  spaced : ∀ i a b, i + 1 < r.stamped → r.account.requests[i]? = some a →
    r.account.requests[i + 1]? = some b →
      a.timestampOffset.toNat + interval.toNat ≤ b.timestampOffset.toNat
  last : ∀ i, i + 1 = r.stamped →
    ∃ a, r.account.requests[i]? = some a ∧ a.timestampOffset = r.lastSentCycle
  budget : r.latenessBudget = 0
  clock : 0 < r.stamped → r.lastSentCycle ≤ r.clock ∧ r.clock.toNat < horizon
  due : r.phase = .idle → 0 < r.stamped →
    r.lastSentCycle.toNat + interval.toNat ≤ r.clock.toNat
  elapsed : 0 < r.stamped → (r.stamped - 1) * interval.toNat ≤ r.lastSentCycle.toNat ∧
    (r.stamped - 1) * interval.toNat < duration

theorem Start.paced (h : Start I interval numRequests r) : Paced interval numRequests duration horizon r := by
  obtain ⟨pointers, numSegments, memory, hrequests⟩ := h.requests
  have hstamped : r.stamped = 0 := by
    rw [stamped, h.init.account.current, heads, h.init.phase]
    rfl
  constructor
  case length => rw [hrequests]; exact length_initializeClientRequestsLoop
  case unsent =>
    intro i request _ hi
    rw [hrequests] at hi
    exact timestampOffset_initializeClientRequestsLoop (List.mem_of_getElem? hi)
  case budget => exact h.init.latenessBudget
  -- nothing was sent
  all_goals simp [hstamped]

/-- When the requests and their times stay, the clock goes on. -/
theorem Paced.quiet (h : Paced interval numRequests duration horizon r)
    (hrequests : r'.account.requests = r.account.requests) (hstamped : r'.stamped = r.stamped)
    (hlast : r'.lastSentCycle = r.lastSentCycle) (hbudget : r'.latenessBudget = 0)
    (hclock : r.clock ≤ r'.clock) (hhorizon : r'.clock.toNat < horizon)
    (hdue : r'.phase = .idle → 0 < r.stamped →
      r.lastSentCycle.toNat + interval.toNat ≤ r'.clock.toNat) :
    Paced interval numRequests duration horizon r' := by
  constructor
  case length => rw [hrequests]; exact h.length
  case unsent => rw [hrequests, hstamped]; exact h.unsent
  case spaced => rw [hrequests, hstamped]; exact h.spaced
  case last => rw [hrequests, hstamped, hlast]; exact h.last
  case budget => exact hbudget
  case clock =>
    rw [hstamped, hlast]
    exact fun hpos => ⟨UInt64.le_trans (h.clock hpos).1 hclock, hhorizon⟩
  case due => rw [hstamped, hlast]; exact hdue
  case elapsed => rw [hstamped, hlast]; exact h.elapsed

/-- **A request is stamped**: the time since the one before is at least `interval`. -/
theorem Paced.stamps {request : ClientRequest} {pkt : Addr} {first : UInt64}
    (h : Paced interval numRequests duration horizon r) (hphase : r.phase = .idle)
    (hrequest : getClientReq r.account.requests r.account.current = some request)
    (haccount : r'.account = { r.account with
      requests := r.account.requests.set r.account.current { request with timestampOffset := now } })
    (hlast : r'.lastSentCycle = now) (hbudget : r'.latenessBudget = 0)
    (hphase' : r'.phase = .sending pkt) (hclock : r'.clock = now) (hfirst : r.clock ≤ first)
    (hnow : first ≤ now) (hhorizon : now.toNat < horizon) (hduration : first.toNat < duration) :
    Paced interval numRequests duration horizon r' := by
  have hbefore : r.stamped = r.account.current := by simp [stamped, heads, hphase]
  have hafter : r'.stamped = r.account.current + 1 := by simp [stamped, heads, hphase', haccount]
  have hcurrent : r.account.current < r.account.requests.length := by
    obtain ⟨hlt, -⟩ := List.getElem?_eq_some_iff.mp hrequest
    exact hlt
  have hfirst' : r.clock.toNat ≤ first.toNat := UInt64.le_iff_toNat_le.mp hfirst
  have hnow' : first.toNat ≤ now.toNat := UInt64.le_iff_toNat_le.mp hnow
  -- the requests before it are those of the state before
  have hold : ∀ i, i ≠ r.account.current →
      r'.account.requests[i]? = r.account.requests[i]? := by
    intro i hi
    rw [haccount, List.getElem?_set_ne (Ne.symm hi)]
  have hnew : r'.account.requests[r.account.current]? =
      some { request with timestampOffset := now } := by
    rw [haccount, List.getElem?_set_self hcurrent]
  -- the one before was sent at least `interval` ago
  have hgap : 0 < r.account.current →
      r.lastSentCycle.toNat + interval.toNat ≤ first.toNat := fun hpos =>
    (h.due hphase (hbefore ▸ hpos)).trans hfirst'
  have helapsed : r.account.current * interval.toNat ≤ first.toNat := by
    rcases Nat.eq_zero_or_pos r.account.current with hzero | hpos
    · rw [hzero, Nat.zero_mul]
      exact Nat.zero_le _
    · have hle := (h.elapsed (hbefore ▸ hpos)).1
      rw [hbefore] at hle
      calc r.account.current * interval.toNat
          = (r.account.current - 1) * interval.toNat + interval.toNat := by
            rw [← Nat.succ_mul, Nat.succ_eq_add_one, Nat.sub_add_cancel hpos]
        _ ≤ r.lastSentCycle.toNat + interval.toNat := Nat.add_le_add_right hle _
        _ ≤ first.toNat := hgap hpos
  constructor
  case length => rw [haccount, List.length_set]; exact h.length
  case unsent =>
    intro i a hi ha
    rw [hafter] at hi
    rw [hold i (by omega)] at ha
    exact h.unsent i a (by omega) ha
  case spaced =>
    intro i a b hi ha hb
    rw [hafter] at hi
    rw [hold i (by omega)] at ha
    rcases Nat.lt_or_ge (i + 1) r.account.current with hlt | hge
    · rw [hold (i + 1) hlt.ne] at hb
      exact h.spaced i a b (by omega) ha hb
    · -- the last two
      obtain heq : i + 1 = r.account.current := by omega
      rw [heq, hnew] at hb
      obtain rfl := Option.some.inj hb
      obtain ⟨a', ha', hlast'⟩ := h.last i (by omega)
      obtain rfl := Option.some.inj (ha'.symm.trans ha)
      rw [hlast']
      exact (hgap (by omega)).trans hnow'
  case last =>
    intro i hi
    obtain rfl : i = r.account.current := by omega
    exact ⟨_, hnew, hlast.symm⟩
  case budget => exact hbudget
  case clock =>
    intro _
    rw [hlast, hclock]
    exact ⟨UInt64.le_refl _, hhorizon⟩
  case due =>
    intro hidle
    rw [hphase'] at hidle
    cases hidle
  case elapsed =>
    intro _
    rw [hafter, hlast, Nat.add_sub_cancel]
    exact ⟨helapsed.trans hnow', helapsed.trans_lt hduration⟩

/-- When the loop goes on to the next request, `interval` has passed since the last one. -/
theorem Paced.due_of_waiting {request : ClientRequest} (hwrap : horizon + interval.toNat ≤ 2 ^ 64)
    (h : Paced interval numRequests duration horizon r) (hphase : r.phase = .waiting)
    (hrequest : getClientReq r.account.requests r.account.current = some request)
    (hnow : now ≥ request.timestampOffset - r.latenessBudget + r.lastSentCycle)
    (hpos : 0 < r.stamped) : r.lastSentCycle.toNat + interval.toNat ≤ now.toNat := by
  have hstamped : r.stamped = r.account.current := by simp [stamped, heads, hphase]
  obtain ⟨hlast, hclock⟩ := h.clock hpos
  have hlast' := UInt64.le_iff_toNat_le.mp hlast
  rw [h.unsent _ request hstamped.le hrequest, h.budget, UInt64.sub_zero, ge_iff_le,
    UInt64.le_iff_toNat_le, UInt64.toNat_add, Nat.mod_eq_of_lt (by omega)] at hnow
  omega

/-- **Every step keeps the pace.** -/
theorem Step.paced (hwrap : horizon + interval.toNat ≤ 2 ^ 64)
    (h : Paced interval numRequests duration horizon r) (hstep : Step cfg fuel duration horizon r r') :
    Paced interval numRequests duration horizon r' := by
  cases hstep with
  | reports hnic => exact ⟨h.1, h.2, h.3, h.4, h.5, h.6, h.7, h.8⟩
  | receives hnic => exact ⟨h.1, h.2, h.3, h.4, h.5, h.6, h.7, h.8⟩
  | @program r₁ running first now hfirst hnow hhorizon hrunning hrun =>
    have hclock : r.clock ≤ now := UInt64.le_trans hfirst hnow
    cases doClientStep_progress hrun with
    | stamps hphase hgo hrequest haccount hlast hbudget hphase' =>
      exact h.stamps hphase hrequest haccount hlast (hbudget.trans h.budget) hphase' rfl hfirst hnow
        hhorizon (hrunning hgo)
    | due hphase hrequest haccount hlast hdue hphase' =>
      rcases hdue with ⟨hlate, -⟩ | ⟨hnow', hbudget⟩
      · -- there is no budget
        rw [h.budget] at hlate
        exact absurd hlate (by simp)
      · refine h.quiet (by rw [haccount]) ?_ hlast hbudget hclock hhorizon fun _ hpos =>
          h.due_of_waiting hwrap hphase hrequest hnow' hpos
        simp [stamped, heads, haccount, hphase, hphase']
    | records hphase hvalid hrequest haccount hlast hbudget hphase' =>
      refine h.quiet (by rw [haccount]) ?_ hlast (hbudget.trans h.budget) hclock hhorizon ?_
      · simp [stamped, heads, haccount, hphase, hphase']
      · intro hidle
        rw [hphase'] at hidle
        cases hidle
    | quiet hrequests hmap hstamped hlast hbudget hphase' =>
      exact h.quiet hrequests hstamped hlast (hbudget.trans h.budget) hclock hhorizon fun hidle =>
        absurd hidle hphase'

theorem Paced.of_reachable (hwrap : horizon + interval.toNat ≤ 2 ^ 64)
    (h : Reachable (Start I interval numRequests) (Step cfg fuel duration horizon) r) :
    Paced interval numRequests duration horizon r :=
  Reachable.invariant (P := Paced interval numRequests duration horizon)
    (fun _ hstart => hstart.paced) (fun _ _ hpaced hstep => hstep.paced hwrap hpaced) h

/-! ## The pace of a run -/

/-- From one request to a later one. -/
theorem Paced.le_of_le (h : Paced interval numRequests duration horizon r) {i j : ℕ}
    {a b : ClientRequest} (hij : i ≤ j) (hj : j < r.stamped)
    (ha : r.account.requests[i]? = some a) (hb : r.account.requests[j]? = some b) :
    a.timestampOffset.toNat + (j - i) * interval.toNat ≤ b.timestampOffset.toNat := by
  induction j, hij using Nat.le_induction generalizing b with
  | base =>
    obtain rfl := Option.some.inj (ha.symm.trans hb)
    simp
  | succ j hij ih =>
    -- the request before the last one is there too
    obtain ⟨hlt, -⟩ := List.getElem?_eq_some_iff.mp hb
    obtain ⟨c, hc⟩ : ∃ c, r.account.requests[j]? = some c :=
      ⟨_, List.getElem?_eq_getElem (by omega)⟩
    have hstep := h.spaced j c b hj hc hb
    have hbefore := ih (by omega) hc
    rw [Nat.succ_sub hij, Nat.succ_mul]
    omega

/-- Every time in the array is one that the clock has shown. -/
theorem Paced.timestamp_le (h : Paced interval numRequests duration horizon r) {i : ℕ}
    {a : ClientRequest} (hi : i < r.stamped) (ha : r.account.requests[i]? = some a) :
    a.timestampOffset.toNat ≤ r.clock.toNat := by
  obtain ⟨b, hb, hlast⟩ := h.last (r.stamped - 1) (by omega)
  have hle := h.le_of_le (by omega) (by omega) ha hb
  have hclock := UInt64.le_iff_toNat_le.mp (h.clock (by omega)).1
  rw [hlast] at hle
  omega

/-- With enough requests for the time of the run there is always a next one. -/
theorem Paced.exists_request (h : Paced interval numRequests duration horizon r)
    (hsome : 0 < numRequests) (henough : duration ≤ (numRequests - 1) * interval.toNat) :
    ∃ request, getClientReq r.account.requests r.account.current = some request := by
  have hinside : r.account.current < r.account.requests.length := by
    rw [h.length]
    have hle : r.account.current ≤ r.stamped := Nat.le_add_right _ _
    rcases Nat.eq_zero_or_pos r.stamped with hzero | hpos
    · omega
    · -- the requests that were sent took less than the time of the run
      have hless := Nat.lt_of_mul_lt_mul_right (((h.elapsed hpos).2).trans_le henough)
      omega
  exact ⟨_, List.getElem?_eq_getElem hinside⟩

/-- **The client keeps its pace**, in every run in which the clock does not wrap: no
two requests are sent closer together than they were prepared to be, and the time
of the run bounds how many are sent. When enough requests for this time were
prepared, `current_request` never leaves their array. -/
theorem sends_paced (hwrap : horizon + interval.toNat ≤ 2 ^ 64)
    (h : Reachable (Start I interval numRequests) (Step cfg fuel duration horizon) r) :
    (∀ i j a b, i ≤ j → j < r.stamped → r.account.requests[i]? = some a →
      r.account.requests[j]? = some b →
        a.timestampOffset.toNat + (j - i) * interval.toNat ≤ b.timestampOffset.toNat) ∧
      (0 < r.stamped → (r.stamped - 1) * interval.toNat < duration) ∧
      (0 < numRequests → duration ≤ (numRequests - 1) * interval.toNat →
        ∃ request, getClientReq r.account.requests r.account.current = some request) := by
  have hpaced := Paced.of_reachable hwrap h
  exact ⟨fun i j a b hij hj ha hb => hpaced.le_of_le hij hj ha hb,
    fun hpos => (hpaced.elapsed hpos).2, hpaced.exists_request⟩

/-- A client whose mbufs are fit for sending. -/
def fitMbuf : Mbuf := { Mbuf.zeroed with nbSegs := 1 }

theorem smallClient_start (b : Mbuf) : Start ServerRun.smallItems 1000 2 (smallClient b) :=
  ⟨smallClient_init b, fun _ => 0, 1, fun _ => Vector.replicate 32 0, rfl⟩

/-- Its requests are sent, a thousand cycles apart. -/
theorem exists_twoSent : ∃ r, Reachable (Start ServerRun.smallItems 1000 2)
    (Step oneSegmentClient 32 1500 2000) r ∧
      r.account.requests.map ClientRequest.timestampOffset = [10, 1010] ∧ r.stamped = 2 := by
  have hruns : (steps oneSegmentClient 32 [10, 10, 1010, 1010] (smallClient fitMbuf)).map
      (fun r => (r.account.requests.map ClientRequest.timestampOffset, r.stamped)) =
        some ([10, 1010], 2) := by
    decide +kernel
  obtain ⟨r, hr, hstamped⟩ := Option.map_eq_some_iff.mp hruns
  refine ⟨r, reachable_of_steps (.init (smallClient_start fitMbuf)) ?_ ?_ hr, Prod.mk.inj hstamped⟩
  · exact (by decide : ([0, 10, 10, 1010, 1010] : List UInt64).IsChain (· ≤ ·))
  · simp

/-- The second request of the small client is sent a thousand cycles after the first. -/
theorem sends_paced_twoSent : ∃ r : WholeClient, r.stamped = 2 ∧
    r.account.requests.map ClientRequest.timestampOffset = [10, 1010] ∧
      ∀ i j a b, i ≤ j → j < r.stamped → r.account.requests[i]? = some a →
        r.account.requests[j]? = some b →
          a.timestampOffset.toNat + (j - i) * (1000 : UInt64).toNat ≤ b.timestampOffset.toNat := by
  obtain ⟨r, hreach, htimes, hstamped⟩ := exists_twoSent
  exact ⟨r, hstamped, htimes, (sends_paced (by decide) hreach).1⟩

end WholeClient

end Mlx5Netperf
