import Mlx5Netperf.Server.Process

/-!
# The Loop Over a Batch

`buildReplies` as a run: the rounds that built a reply, one after the other, and
then either the end of the batch or the round that failed.
-/

namespace Mlx5Netperf

/-- The loop builds the replies `heads` to `requests`, packets `pktIdx` on. -/
inductive BuildRun (cfg : Config) : ℕ → List Addr → State → List Addr → State → Prop where
  | nil {pktIdx : ℕ} {st : State} : BuildRun cfg pktIdx [] st [] st
  | cons {pktIdx : ℕ} {request m : Addr} {requests heads : List Addr} {st st₁ st' : State}
      (hround : buildReply cfg pktIdx request st = some (.ok m, st₁))
      (hrest : BuildRun cfg (pktIdx + 1) requests st₁ heads st') :
      BuildRun cfg pktIdx (request :: requests) st (m :: heads) st'

/-- What the loop does when the round of packet `heads.length` does not build a reply. -/
inductive BuildStops (cfg : Config) (fuel : ℕ) (request : Addr) (heads : List Addr) (st : State) :
    Option (Except Int32 (List Addr) × State) → Prop where
  /-- A scatter list without segments. -/
  | crash (hround : buildReply cfg heads.length request st = none) :
      BuildStops cfg fuel request heads st none
  /-- No mbuf: earlier packets are freed. -/
  | noMbuf {st₁ : State} (hround : buildReply cfg heads.length request st = some (.error .noMbuf, st₁)) :
      BuildStops cfg fuel request heads st
        ((freePrevious cfg fuel heads st₁).map fun st => (.error enomem, st))
  /-- No buffer: the mbuf of this packet is freed. -/
  | noBuffer {m : Addr} {st₁ : State}
      (hround : buildReply cfg heads.length request st = some (.error (.noBuffer m), st₁)) :
      BuildStops cfg fuel request heads st
        ((mbufFree cfg fuel st₁ (some m)).map fun st => (.error enomem, st))

variable {cfg : Config} {fuel : ℕ}

theorem BuildRun.length_eq {pktIdx : ℕ} {requests heads : List Addr} {st st' : State}
    (h : BuildRun cfg pktIdx requests st heads st') : heads.length = requests.length := by
  induction h with
  | nil => rfl
  | cons _ _ ih => simp [ih]

/-- **The outcomes of the loop over a batch.** -/
theorem buildReplies_cases (cfg : Config) (fuel : ℕ) (requests heads : List Addr) (st : State) :
    (∃ built st', BuildRun cfg heads.length requests st built st' ∧
      buildReplies cfg fuel requests heads st = some (.ok (heads ++ built), st')) ∨
    ∃ done request rest built st', requests = done ++ request :: rest ∧
      BuildRun cfg heads.length done st built st' ∧
      BuildStops cfg fuel request (heads ++ built) st'
        (buildReplies cfg fuel requests heads st) := by
  induction requests generalizing heads st with
  | nil => exact .inl ⟨[], st, .nil, by simp [buildReplies]⟩
  | cons request requests ih =>
    -- the first round crashes, fails or builds a reply
    rcases hround : buildReply cfg heads.length request st with _ | ⟨e | m, st₁⟩
    case none =>
      refine .inr ⟨[], request, requests, [], st, rfl, .nil, ?_⟩
      simp only [buildReplies, hround, List.append_nil]
      exact .crash hround
    case some.error =>
      refine .inr ⟨[], request, requests, [], st, rfl, .nil, ?_⟩
      simp only [buildReplies, hround, List.append_nil]
      cases e with
      | noMbuf => exact .noMbuf hround
      | noBuffer m => exact .noBuffer hround
    case some.ok =>
      have hstep : buildReplies cfg fuel (request :: requests) heads st =
          buildReplies cfg fuel requests (heads ++ [m]) st₁ := by
        simp only [buildReplies, hround]
      rw [hstep]
      -- and the loop goes on behind it
      rcases ih (heads ++ [m]) st₁ with
        ⟨built, st', hrun, hok⟩ | ⟨done, req, rest, built, st', hsplit, hrun, hstop⟩
      · rw [List.length_append, List.length_singleton] at hrun
        exact .inl ⟨m :: built, st', .cons hround hrun, by simpa using hok⟩
      · rw [List.length_append, List.length_singleton] at hrun
        refine .inr ⟨request :: done, req, rest, m :: built, st', by simp [hsplit],
          .cons hround hrun, ?_⟩
        simpa using hstop

/-- The round that stops the loop built no reply. -/
theorem BuildStops.not_built {request : Addr} {heads : List Addr} {st : State}
    {res : Option (Except Int32 (List Addr) × State)} (h : BuildStops cfg fuel request heads st res)
    (m : Addr) (st' : State) : buildReply cfg heads.length request st ≠ some (.ok m, st') := by
  intro hok
  cases h with
  | crash hround => simp [hok] at hround
  | noMbuf hround => simp [hok] at hround
  | noBuffer hround => simp [hok] at hround

/-- The loop that stops crashes or returns `ENOMEM`. -/
theorem BuildStops.result {request : Addr} {heads : List Addr} {st : State}
    {res : Option (Except Int32 (List Addr) × State)}
    (h : BuildStops cfg fuel request heads st res) :
    res = none ∨ ∃ st', res = some (.error enomem, st') := by
  cases h with
  | crash _ => exact .inl rfl
  | @noMbuf st₁ _ =>
    cases freePrevious cfg fuel heads st₁ with
    | none => exact .inl rfl
    | some st' => exact .inr ⟨st', rfl⟩
  | @noBuffer m st₁ _ =>
    cases mbufFree cfg fuel st₁ (some m) with
    | none => exact .inl rfl
    | some st' => exact .inr ⟨st', rfl⟩

/-- A batch of replies was built round by round. -/
theorem buildRun_of_ok {requests heads heads' : List Addr} {st st' : State}
    (h : buildReplies cfg fuel requests heads st = some (.ok heads', st')) :
    ∃ built, BuildRun cfg heads.length requests st built st' ∧ heads' = heads ++ built := by
  rcases buildReplies_cases cfg fuel requests heads st with
    ⟨built, st₁, hrun, hok⟩ | ⟨_, _, _, _, _, -, -, hstop⟩
  · rw [hok, Option.some.injEq, Prod.mk.injEq, Except.ok.injEq] at h
    obtain ⟨rfl, rfl⟩ := h
    exact ⟨built, hrun, rfl⟩
  · rcases hstop.result with hnone | ⟨st₁, herr⟩
    · simp [h] at hnone
    · simp [h] at herr

end Mlx5Netperf
