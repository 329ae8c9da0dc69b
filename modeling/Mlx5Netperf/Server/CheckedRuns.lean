import Mlx5Netperf.Server.ServerCustody

/-!
# Runs That Stay Inside

A run of the server in which no batch goes outside of what was allocated while it is
built does not go outside when it is sent either: every chain that waits for its
completion carries ids whose counts were allocated, so its release finds them.
-/

namespace Mlx5Netperf

open Transition PostRun

namespace PostRun

variable {cfg : Config} {numRefcntArrays : UInt64} {fuel : ℕ} {r : PostRun} {st : State}

/-- The rest of the program leaves the chains that wait alone. -/
theorem ReleasesInside.appStep (h : r.ReleasesInside cfg numRefcntArrays) (hinv : Inv fuel r)
    (hctl : r.ctl = none) (happ : SendRun.AppStep r.run.st st) :
    (r.withState st).ReleasesInside cfg numRefcntArrays := by
  obtain ⟨tail, htrace, hquiet⟩ := happ.trace
  have hout : Event.outstanding st.trace = Event.outstanding r.run.st.trace := by
    rw [htrace, Event.outstanding, Event.outstanding, Event.posts_append, Event.gathers_append,
      Event.posts_eq_nil hquiet, Event.gathers_eq_nil hquiet, List.append_nil, List.append_nil]
  intro m hm
  have hold : m ∈ (Event.outstanding r.run.st.trace).map Send.mbuf := by
    simpa [PostRun.withState, hctl, remaining, hout] using hm
  obtain ⟨s, hs, rfl⟩ := List.mem_map.mp hold
  obtain ⟨nodes, hchain⟩ := chainsEnd_of_inv hinv s hs
  exact (h _ (List.mem_append_left _ hold)).congr hchain fun a ha =>
    .of_eq (happ.heap s hs nodes hchain a ha)

end PostRun

namespace ServerRun

variable {cfg : Config} {numRefcntArrays : UInt64} {fuel : ℕ} {I : Holding} {r r' : ServerRun}

/-- A batch that is built inside asks for nothing outside. -/
theorem repliesInside_of_built {batch heads : List Addr} {st st₁ : State}
    (hready : BatchReady cfg fuel st batch) (hws : WorkingSetPlaced cfg)
    (hprepare : prepareReplies cfg fuel batch st = some (.ok heads, st₁))
    (hinside : PrepareInside cfg numRefcntArrays batch st) (hecho : cfg.echoMode = false) :
    ∀ request ∈ batch, ReplyInside cfg numRefcntArrays st request := by
  rw [prepareReplies, if_neg (ne_true_of_eq_false hecho)] at hprepare
  -- the pools had what the replies took
  have hpools := (buildReplies_isOk_iff hready.nodup hready.fresh).mp ⟨heads, st₁, hprepare⟩
  exact (buildInside_iff hws hready.segments hready.nodup hready.fresh hpools).mp (hinside hecho)

/-- **A batch that is processed** inside is released inside. -/
theorem processBatch_releasesInside {rest batch : List Addr} (hpost : PostRun.Inv fuel r.post)
    (hctl : r.post.ctl = none) (hne : batch ≠ []) (hready : BatchReady cfg fuel r.st batch)
    (hws : WorkingSetPlaced cfg) (hinside : PrepareInside cfg numRefcntArrays batch r.st)
    (h : r.post.ReleasesInside cfg numRefcntArrays)
    (hprocess : processBatch cfg fuel rest batch r = some r') :
    r'.post.ReleasesInside cfg numRefcntArrays := by
  unfold processBatch at hprocess
  split at hprocess
  case h_1 => simp at hprocess
  case h_2 ret st hprepare =>
    obtain ⟨hkeeps, htrace, hctl', -⟩ := finish_keeps hprocess
    -- outside echo mode an error frees the packets twice
    have hecho := echoMode_of_finish hne (prepareReplies_error_ne_zero hprepare) hprocess
    have hechoed : echoRequests cfg batch [] r.st = (.error ret, st) := by
      rw [prepareReplies, if_pos hecho] at hprepare
      exact Option.some.inj hprepare
    have hbuilt := h.appStep hpost hctl (echoRequests_appStep hready hechoed)
    exact hbuilt.congr htrace hkeeps.heap hctl'
  case h_3 heads st hprepare =>
    obtain rfl := Option.some.inj hprocess
    exact releasesInside_call hpost hws hready hprepare
      (repliesInside_of_built hready hws hprepare hinside) h

/-- **Every step that stays inside** leaves chains that are released inside. -/
theorem CheckedStep.releasesInside (hI : I.Distinct) (hsegments : cfg.numSegments.toNat ≤ maxScatters)
    (hfuel : maxScatters ≤ fuel) (hws : WorkingSetPlaced cfg) (hinv : Inv cfg fuel I r)
    (h : r.post.ReleasesInside cfg numRefcntArrays)
    (hstep : CheckedStep cfg numRefcntArrays fuel r r') :
    r'.post.ReleasesInside cfg numRefcntArrays := by
  cases hstep with
  | @reports run' hnic =>
    obtain ⟨⟨run, ctl, batches⟩, taken, received, phase, lost⟩ := r
    cases hnic
    exact h
  | receives hnic =>
    cases hnic
    exact h
  | program hrun hinside =>
    unfold doServerStep at hrun
    split at hrun
    case h_1 hphase =>
      obtain ⟨⟨ms, st⟩, hcall, rfl⟩ := Option.map_eq_some_iff.mp hrun
      have hctl : r.post.ctl = none := hinv.idle (by simp [hphase])
      exact h.appStep hinv.post hctl ((hinv.held_idle hctl).gather hI hcall).2
    case h_2 batch hphase =>
      obtain rfl := Option.some.inj hrun
      exact h
    case h_3 pkt rest batch hphase =>
      have hctl : r.post.ctl = none := hinv.idle (by simp [hphase])
      unfold handlePacket at hrun
      split at hrun
      case h_1 hinvalid =>
        obtain ⟨st, hfree, rfl⟩ := Option.map_eq_some_iff.mp hrun
        have hheap := mbufFree_heap hfree
        exact h.congr rfl hheap rfl
      case h_2 payload hvalid =>
        dsimp only at hrun
        split at hrun
        case isFalse hmore =>
          obtain rfl := Option.some.inj hrun
          exact h
        case isTrue hcomplete =>
          rw [StepInside, hphase] at hinside
          simp only [hvalid, ne_eq, reduceCtorEq, not_false_eq_true, forall_const] at hinside
          have hready := (hinv.held_joined hphase).batchReady hI hsegments hfuel
          exact processBatch_releasesInside hinv.post hctl (by simp) hready hws
            (hinside (by simpa using hcomplete)) h hrun
    case h_4 rest batch hphase =>
      split at hrun
      case h_1 hctl =>
        obtain ⟨hkeeps, htrace, hctl', -⟩ := finish_keeps hrun
        exact h.congr htrace hkeeps.heap hctl'
      case h_2 c hctl =>
        obtain ⟨a, ha, hmap⟩ := Option.bind_eq_some_iff.mp hrun
        obtain ⟨⟨ret, st⟩, hcall, rfl⟩ := Option.map_eq_some_iff.mp hmap
        obtain ⟨⟨⟨st₀, reported⟩, ctl, batches⟩, taken, received, phase, lost⟩ := r
        obtain rfl : ctl = some c := hctl
        exact (h.send hinv.post ha hcall).2

/-- **In every run that stays inside** the chains that wait are released inside. -/
theorem releasesInside_of_reachable (hI : I.Distinct)
    (hsegments : cfg.numSegments.toNat ≤ maxScatters) (hfuel : maxScatters ≤ fuel)
    (hws : WorkingSetPlaced cfg) (h : Reachable (Init I) (CheckedStep cfg numRefcntArrays fuel) r) :
    Inv cfg fuel I r ∧ r.post.ReleasesInside cfg numRefcntArrays := by
  refine Reachable.invariant (P := fun r => Inv cfg fuel I r ∧
    r.post.ReleasesInside cfg numRefcntArrays) (fun r hinit => ⟨hinit.inv, fun m hm => ?_⟩) ?_ h
  · -- nothing was sent
    rw [hinit.post.run.trace, hinit.post.ctl] at hm
    simp [Event.outstanding, Event.posts, remaining] at hm
  · rintro r r' ⟨hinv, hreleases⟩ hstep
    exact ⟨hstep.step.inv hI hsegments hfuel hinv,
      hstep.releasesInside hI hsegments hfuel hws hinv hreleases⟩

end ServerRun

end Mlx5Netperf
