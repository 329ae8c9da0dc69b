import Mathlib.Data.List.TakeWhile
import Mlx5Netperf.Arguments

/-!
# Which Arguments Are Usable

The sizes that `parse_args` accepts flow into divisions and into arrays of
`MAX_SCATTERS` entries, and nothing between the two checks them. What the settings
are after a run is read off the options: the last number given for each, and the
default where none is.
-/

namespace Mlx5Netperf

open Getopt

/-! ## What the settings are used for -/

/-- The divisors that the program takes from its settings. -/
inductive Settings.Divides (s : Settings) : UInt64 → Prop where
  /-- `array_size % segment_size` and `array_size / segment_size`, and the same in `parse_args` -/
  | segmentSize : s.Divides s.segmentSize
  /-- `rand() % (len - i)` for `i < len - 1` in `initialize_pointer_chasing_at_client` -/
  | shuffle (i : UInt64) : i < s.workingSetSize / s.segmentSize - 1 →
      s.Divides (s.workingSetSize / s.segmentSize - i)
  /-- `index % num_total_segments` and `index / num_total_segments` in `server_change_refcnt` -/
  | changeRefcnt : s.Divides s.numTotalSegments

/-- The indices into `segment_offsets`, `segments` and the rows of `send_mbufs`. -/
inductive Settings.Indexes (s : Settings) : UInt64 → Prop where
  /-- the loops over the segments of a request -/
  | segment (i : UInt64) : i < s.numSegments → s.Indexes i
  /-- `send_mbufs[pkt_idx][num_segments - 1]` -/
  | last : s.Indexes (s.numSegments - 1)

/-- Settings that the rest of the program can work with. -/
structure Settings.Usable (s : Settings) : Prop where
  segmentSize : 1 ≤ s.segmentSize.toNat
  workingSetSize : s.segmentSize.toNat ≤ s.workingSetSize.toNat
  ratePps : 1 ≤ s.ratePps.toNat
  numSegments : 1 ≤ s.numSegments.toNat ∧ s.numSegments.toNat ≤ maxScatters
  numTotalSegments : s.numTotalSegments = s.workingSetSize / s.segmentSize
  -- a reply in copy mode fits into its buffer
  copied : s.zeroCopy = false →
    58 + s.numSegments.toNat * s.segmentSize.toNat ≤ dataMbufsSize.toNat
  divisors : ∀ d, s.Divides d → d ≠ 0
  indices : ∀ i, s.Indexes i → i.toNat < maxScatters

/-- What `parse_args` should do with an argument vector: it does not divide by zero
itself, and what it returns with zero is usable. -/
structure AcceptsUsable (env : Environment) (argv : List CString) : Prop where
  divides : parseArgs env argv ≠ .dividedByZero
  usable : ∀ s, parseArgs env argv = .returned s → s.Usable

/-! ## What the options say -/

/-- The number that an option gives. -/
def optionNumber (p : Parsed) : UInt64 := (p.optarg.map optargNumber).getD 0

/-- Options that `parse_args` goes on after: known ones whose argument is there and,
where it is checked, well formed. -/
def accepted (p : Parsed) : Bool :=
  match p.opt with
  | 'm' => p.optarg.any fun s => (parseMode s).isSome
  | 'w' => p.optarg.any fun s => (pciStrToAddr s).isSome
  | 'c' | 'e' => p.optarg.any fun s => (strToMac s).isSome
  | 'i' | 's' => p.optarg.any fun s => (strToIp s).isSome
  | 'k' | 'q' | 'a' | 'y' | 'r' | 't' | 'h' | 'l' | 'f' => p.optarg.isSome
  | 'z' | 'g' | 'd' | 'b' => true
  | _ => false

/-- The number that the last option `c` gives, or `start` when there is none. -/
def lastNumber (c : Char) (start : UInt64) (ps : List Parsed) : UInt64 :=
  ps.foldl (fun n p => if p.opt = c then optionNumber p else n) start

/-- Options that add up to usable settings: none that is read gives a segment size of
zero, and when all are accepted there is one, and the last number of each is in its range. -/
structure UsableOptions (ps : List Parsed) : Prop where
  segmentSize : ∀ p ∈ ps.takeWhile accepted, p.opt = 'q' → optionNumber p ≠ 0
  some : (∀ p ∈ ps, accepted p) → ps ≠ []
  workingSetSize : (∀ p ∈ ps, accepted p) →
    (lastNumber 'q' 1024 ps).toNat ≤ (lastNumber 'a' 16384 ps).toNat
  ratePps : (∀ p ∈ ps, accepted p) → lastNumber 'r' 5000 ps ≠ 0
  numSegments : (∀ p ∈ ps, accepted p) →
    1 ≤ (lastNumber 'k' 1 ps).toNat ∧ (lastNumber 'k' 1 ps).toNat ≤ maxScatters
  copied : (∀ p ∈ ps, accepted p) → (∃ p ∈ ps, p.opt = 'z') →
    58 + (lastNumber 'k' 1 ps).toNat * (lastNumber 'q' 1024 ps).toNat ≤ dataMbufsSize.toNat

/-! ## One option -/

/-- What an accepted option does to the sizes. -/
structure Applied (p : Parsed) (s s' : Settings) : Prop where
  numSegments : s'.numSegments = if p.opt = 'k' then optionNumber p else s.numSegments
  segmentSize : s'.segmentSize = if p.opt = 'q' then optionNumber p else s.segmentSize
  workingSetSize : s'.workingSetSize = if p.opt = 'a' then optionNumber p else s.workingSetSize
  ratePps : s'.ratePps = if p.opt = 'r' then optionNumber p else s.ratePps
  zeroCopy : s'.zeroCopy = if p.opt = 'z' then false else s.zeroCopy

/-- A case of the `switch` goes on exactly when its check succeeds. -/
structure CaseDoes (p : Parsed) (s : Settings) (ok : Bool) (r : Except Stop Settings) : Prop where
  accepts : ok = true → ∃ s', r = .ok s' ∧ Applied p s s'
  rejects : ok = false → ∃ why, r = .error why

section Cases

variable {p : Parsed} {s s' : Settings}

theorem CaseDoes.flag (h : Applied p s s') : CaseDoes p s true (.ok s') where
  accepts := fun _ => ⟨s', rfl, h⟩
  rejects := fun hfalse => by simp at hfalse

theorem CaseDoes.unknown (why : Stop) : CaseDoes p s false (.error why) where
  accepts := fun htrue => by simp at htrue
  rejects := fun _ => ⟨why, rfl⟩

/-- A case that needs an argument and takes any. -/
theorem CaseDoes.string {set : CString → Settings} (h : ∀ arg, Applied p s (set arg)) :
    CaseDoes p s p.optarg.isSome ((readOptarg p).map set) := by
  unfold readOptarg
  cases p.optarg with
  | none => exact .unknown _
  | some arg => exact .flag (h arg)

theorem CaseDoes.number {set : UInt64 → Settings} (h : Applied p s (set (optionNumber p))) :
    CaseDoes p s p.optarg.isSome (storeNumber p set) := by
  unfold storeNumber readOptarg
  unfold optionNumber at h
  cases harg : p.optarg with
  | none => exact .unknown _
  | some arg =>
    rw [harg] at h
    exact .flag h

theorem CaseDoes.convert {α : Type} {convert : CString → Option α} {set : α → Settings}
    (h : ∀ a, Applied p s (set a)) :
    CaseDoes p s (p.optarg.any fun arg => (convert arg).isSome) (convertOptarg p convert set) := by
  unfold convertOptarg readOptarg
  cases p.optarg with
  | none => exact .unknown _
  | some arg =>
    simp only [Except.bind, Option.any_some]
    cases convert arg with
    | none => exact .unknown _
    | some a => exact .flag (h a)

end Cases

/-- **The `switch`, case by case.** -/
theorem applyOption_does (env : Environment) (s : Settings) (p : Parsed) :
    CaseDoes p s (accepted p) (applyOption env s p) := by
  obtain ⟨opt, optarg⟩ := p
  dsimp only [applyOption]
  split
  -- the mode and the addresses
  case h_1 | h_2 | h_3 | h_4 | h_5 | h_6 =>
    apply CaseDoes.convert
    exact fun _ => ⟨rfl, rfl, rfl, rfl, rfl⟩
  -- numbers
  case h_7 | h_8 | h_9 | h_10 | h_13 | h_14 | h_19 =>
    apply CaseDoes.number
    exact ⟨rfl, rfl, rfl, rfl, rfl⟩
  -- flags
  case h_11 | h_12 | h_16 | h_17 =>
    apply CaseDoes.flag
    exact ⟨rfl, rfl, rfl, rfl, rfl⟩
  -- files
  case h_15 | h_18 =>
    apply CaseDoes.string
    exact fun _ => ⟨rfl, rfl, rfl, rfl, rfl⟩
  case h_20 =>
    have hunknown : accepted ⟨opt, optarg⟩ = false := by
      unfold accepted
      split <;> first | rfl | contradiction
    rw [hunknown]
    exact .unknown _

/-! ## All options -/

/-- What a run over accepted options does to the sizes. -/
structure Follows (ps : List Parsed) (s s' : Settings) : Prop where
  numSegments : s'.numSegments = lastNumber 'k' s.numSegments ps
  segmentSize : s'.segmentSize = lastNumber 'q' s.segmentSize ps
  workingSetSize : s'.workingSetSize = lastNumber 'a' s.workingSetSize ps
  ratePps : s'.ratePps = lastNumber 'r' s.ratePps ps
  zeroCopy : s'.zeroCopy = false ↔ s.zeroCopy = false ∨ ∃ p ∈ ps, p.opt = 'z'
  -- the count is made by the loop, so it is the default where there are no options
  numTotalSegments : s'.numTotalSegments =
    if ps = [] then s.numTotalSegments else s'.workingSetSize / s'.segmentSize

section Run

variable {env : Environment} {p : Parsed} {ps : List Parsed} {s s' : Settings}

theorem Follows.nil (s : Settings) : Follows [] s s where
  numSegments := rfl
  segmentSize := rfl
  workingSetSize := rfl
  ratePps := rfl
  zeroCopy := by simp
  numTotalSegments := rfl

/-- One option, the count of the segments, and the other options. -/
theorem Follows.cons {s₁ : Settings} (happlied : Applied p s s₁)
    (hcount : s₁.numTotalSegments = s₁.workingSetSize / s₁.segmentSize) (h : Follows ps s₁ s') :
    Follows (p :: ps) s s' where
  numSegments := by
    rw [h.numSegments, happlied.numSegments]
    rfl
  segmentSize := by
    rw [h.segmentSize, happlied.segmentSize]
    rfl
  workingSetSize := by
    rw [h.workingSetSize, happlied.workingSetSize]
    rfl
  ratePps := by
    rw [h.ratePps, happlied.ratePps]
    rfl
  zeroCopy := by
    rw [h.zeroCopy, happlied.zeroCopy]
    by_cases hz : p.opt = 'z' <;> simp [hz]
  numTotalSegments := by
    rw [h.numTotalSegments, if_neg (List.cons_ne_nil p ps)]
    split
    case isTrue hnil =>
      -- the count after the last option
      subst hnil
      rw [hcount, h.workingSetSize, h.segmentSize]
      rfl
    case isFalse => rfl

/-- Counting the segments leaves the sizes alone. -/
theorem Applied.countSegments {s₁ : Settings} (h : Applied p s s₁) : Applied p s s₁.countSegments :=
  ⟨h.numSegments, h.segmentSize, h.workingSetSize, h.ratePps, h.zeroCopy⟩

/-- The loop on an option that is accepted. -/
theorem parseArgsLoop_accepted (env : Environment) (ps : List Parsed) (hne : s.segmentSize ≠ 0)
    (h : accepted p = true) :
    ∃ s₁, Applied p s s₁ ∧ s₁.numTotalSegments = s₁.workingSetSize / s₁.segmentSize ∧
      (p.opt = 'q' ∧ optionNumber p = 0 → parseArgsLoop env (p :: ps) s = .dividedByZero) ∧
      (¬ (p.opt = 'q' ∧ optionNumber p = 0) → s₁.segmentSize ≠ 0 ∧
        parseArgsLoop env (p :: ps) s = parseArgsLoop env ps s₁) := by
  obtain ⟨s₁, happly, happlied⟩ := (applyOption_does env s p).accepts h
  have hsize := happlied.segmentSize
  refine ⟨s₁.countSegments, happlied.countSegments, rfl, ?_, ?_⟩
  · rintro ⟨hopt, hzero⟩
    rw [if_pos hopt, hzero] at hsize
    rw [parseArgsLoop, happly]
    exact if_pos hsize
  · intro hnot
    have hpos : s₁.segmentSize ≠ 0 := by
      rw [hsize]
      split
      case isTrue hopt => exact fun hzero => hnot ⟨hopt, hzero⟩
      case isFalse => exact hne
    refine ⟨hpos, ?_⟩
    rw [parseArgsLoop, happly]
    exact if_neg hpos

/-- **Where `parse_args` divides by zero**: at an option that makes the segment size zero. -/
theorem parseArgsLoop_dividedByZero_iff (hne : s.segmentSize ≠ 0) :
    parseArgsLoop env ps s = .dividedByZero ↔
      ∃ p ∈ ps.takeWhile accepted, p.opt = 'q' ∧ optionNumber p = 0 := by
  induction ps generalizing s with
  | nil => simp [parseArgsLoop]
  | cons p ps ih =>
    cases haccepted : accepted p with
    | false =>
      obtain ⟨why, happly⟩ := (applyOption_does env s p).rejects haccepted
      simp [parseArgsLoop, happly, haccepted]
    | true =>
      obtain ⟨s₁, -, -, hzero, hgoes⟩ := parseArgsLoop_accepted env ps hne haccepted
      rw [List.takeWhile_cons_of_pos haccepted, List.exists_mem_cons_iff]
      by_cases hq : p.opt = 'q' ∧ optionNumber p = 0
      · simp [hzero hq, hq]
      · obtain ⟨hpos, heq⟩ := hgoes hq
        rw [heq, ih hpos, or_iff_right hq]

/-- **What `parse_args` returns** is read off options that are all accepted. -/
theorem follows_of_returned (hne : s.segmentSize ≠ 0)
    (h : parseArgsLoop env ps s = .returned s') :
    (∀ p ∈ ps, accepted p = true) ∧ s'.segmentSize ≠ 0 ∧ Follows ps s s' := by
  induction ps generalizing s with
  | nil =>
    obtain rfl := Outcome.returned.inj h
    exact ⟨by simp, hne, .nil s⟩
  | cons p ps ih =>
    cases haccepted : accepted p with
    | false =>
      obtain ⟨why, happly⟩ := (applyOption_does env s p).rejects haccepted
      simp [parseArgsLoop, happly] at h
    | true =>
      obtain ⟨s₁, happlied, hcount, hzero, hgoes⟩ := parseArgsLoop_accepted env ps hne haccepted
      by_cases hq : p.opt = 'q' ∧ optionNumber p = 0
      · simp [hzero hq] at h
      · obtain ⟨hpos, heq⟩ := hgoes hq
        obtain ⟨hall, hpos', hfollows⟩ := ih hpos (heq ▸ h)
        exact ⟨List.forall_mem_cons.mpr ⟨haccepted, hall⟩, hpos', hfollows.cons happlied hcount⟩

/-- Options that are all accepted, and never a segment size of zero: `parse_args` returns. -/
theorem exists_returned (env : Environment) (hne : s.segmentSize ≠ 0)
    (hall : ∀ p ∈ ps, accepted p = true) (hsize : ∀ p ∈ ps, p.opt = 'q' → optionNumber p ≠ 0) :
    ∃ s', parseArgsLoop env ps s = .returned s' := by
  induction ps generalizing s with
  | nil => exact ⟨s, rfl⟩
  | cons p ps ih =>
    obtain ⟨haccepted, hall⟩ := List.forall_mem_cons.mp hall
    obtain ⟨hfirst, hsize⟩ := List.forall_mem_cons.mp hsize
    obtain ⟨s₁, -, -, -, hgoes⟩ := parseArgsLoop_accepted env ps hne haccepted
    obtain ⟨hpos, heq⟩ := hgoes fun hq => hfirst hq.1 hq.2
    rw [heq]
    exact ih hpos hall hsize

end Run

/-! ## What the ranges are good for -/

/-- **Settings in their ranges are usable**: no divisor is zero and no index leaves an array. -/
theorem Settings.Usable.of_ranges {s : Settings} (hsize : s.segmentSize ≠ 0)
    (hset : s.segmentSize.toNat ≤ s.workingSetSize.toNat) (hrate : s.ratePps ≠ 0)
    (hsegments : 1 ≤ s.numSegments.toNat ∧ s.numSegments.toNat ≤ maxScatters)
    (hcount : s.numTotalSegments = s.workingSetSize / s.segmentSize)
    (hcopied : s.zeroCopy = false →
      58 + s.numSegments.toNat * s.segmentSize.toNat ≤ dataMbufsSize.toNat) : s.Usable := by
  -- there is at least one region
  have hregions : 1 ≤ (s.workingSetSize / s.segmentSize).toNat := by
    rw [UInt64.toNat_div]
    exact Nat.div_pos hset (WordArith.toNat_pos hsize)
  refine ⟨WordArith.toNat_pos hsize, hset, WordArith.toNat_pos hrate, hsegments, hcount, hcopied,
    ?divisors, ?indices⟩
  case divisors =>
    intro d hd hzero
    cases hd with
    | segmentSize => exact hsize hzero
    | shuffle i hi =>
      rw [UInt64.lt_iff_toNat_lt, UInt64.toNat_sub_of_le _ _ (by
        rw [UInt64.le_iff_toNat_le]; exact hregions), UInt64.toNat_one] at hi
      -- the last round stops short of the last region
      have hle : i ≤ s.workingSetSize / s.segmentSize := by
        rw [UInt64.le_iff_toNat_le]
        omega
      have hrest := congrArg UInt64.toNat hzero
      rw [UInt64.toNat_sub_of_le _ _ hle, UInt64.toNat_zero] at hrest
      omega
    | changeRefcnt =>
      rw [hcount] at hzero
      rw [hzero, UInt64.toNat_zero] at hregions
      omega
  case indices =>
    intro i hi
    cases hi with
    | segment i hlt => exact (UInt64.lt_iff_toNat_lt.mp hlt).trans_le hsegments.2
    | last =>
      rw [UInt64.toNat_sub_of_le _ _ (by rw [UInt64.le_iff_toNat_le]; exact hsegments.1),
        UInt64.toNat_one]
      omega

/-! ## Argument vectors -/

section Vectors

variable {env : Environment} {argv : List CString} {ps : List Parsed}

theorem default_segmentSize_ne : Settings.default.segmentSize ≠ 0 := by decide

/-- When `parse_args` does as it should, the options are usable. -/
theorem AcceptsUsable.usableOptions (h : AcceptsUsable env argv)
    (hps : getoptLong argumentOptions env.posixlyCorrect argv.tail = ps) : UsableOptions ps := by
  have hparse : parseArgs env argv = parseArgsLoop env ps .default := by rw [parseArgs, hps]
  have hsize : ∀ p ∈ ps.takeWhile accepted, p.opt = 'q' → optionNumber p ≠ 0 := by
    intro p hp hopt hzero
    exact h.divides (hparse.trans
      ((parseArgsLoop_dividedByZero_iff default_segmentSize_ne).mpr ⟨p, hp, hopt, hzero⟩))
  -- when all options are accepted, what is returned tells about the last numbers
  have hreturned : (∀ p ∈ ps, accepted p = true) → ∃ s, s.Usable ∧ Follows ps .default s := by
    intro hall
    rw [List.takeWhile_eq_self_iff.mpr hall] at hsize
    obtain ⟨s, hs⟩ := exists_returned env default_segmentSize_ne hall hsize
    exact ⟨s, h.usable s (hparse.trans hs), (follows_of_returned default_segmentSize_ne hs).2.2⟩
  constructor
  case segmentSize => exact hsize
  case some =>
    rintro hall rfl
    obtain ⟨s, husable, hfollows⟩ := hreturned hall
    -- the default count is that of segments of one byte
    have hcount := husable.numTotalSegments
    rw [hfollows.numTotalSegments, hfollows.workingSetSize, hfollows.segmentSize] at hcount
    exact absurd hcount (by decide)
  case workingSetSize =>
    intro hall
    obtain ⟨s, husable, hfollows⟩ := hreturned hall
    have hle := husable.workingSetSize
    rwa [hfollows.segmentSize, hfollows.workingSetSize] at hle
  case ratePps =>
    intro hall hzero
    obtain ⟨s, husable, hfollows⟩ := hreturned hall
    have hrate := husable.ratePps
    rw [hfollows.ratePps, show Settings.default.ratePps = 5000 from rfl, hzero] at hrate
    exact absurd hrate (by decide)
  case numSegments =>
    intro hall
    obtain ⟨s, husable, hfollows⟩ := hreturned hall
    have hsegments := husable.numSegments
    rwa [hfollows.numSegments] at hsegments
  case copied =>
    intro hall hz
    obtain ⟨s, husable, hfollows⟩ := hreturned hall
    have hcopied := husable.copied (hfollows.zeroCopy.mpr (.inr hz))
    rwa [hfollows.numSegments, hfollows.segmentSize] at hcopied

/-- Usable options make `parse_args` do as it should. -/
theorem AcceptsUsable.of_usableOptions (h : UsableOptions ps)
    (hps : getoptLong argumentOptions env.posixlyCorrect argv.tail = ps) :
    AcceptsUsable env argv := by
  have hparse : parseArgs env argv = parseArgsLoop env ps .default := by rw [parseArgs, hps]
  constructor
  case divides =>
    rw [hparse, ne_eq, parseArgsLoop_dividedByZero_iff default_segmentSize_ne]
    rintro ⟨p, hp, hopt, hzero⟩
    exact h.segmentSize p hp hopt hzero
  case usable =>
    intro s hs
    rw [hparse] at hs
    obtain ⟨hall, hpos, hfollows⟩ := follows_of_returned default_segmentSize_ne hs
    apply Settings.Usable.of_ranges hpos
    case hset =>
      rw [hfollows.segmentSize, hfollows.workingSetSize]
      exact h.workingSetSize hall
    case hrate =>
      rw [hfollows.ratePps]
      exact h.ratePps hall
    case hsegments =>
      rw [hfollows.numSegments]
      exact h.numSegments hall
    case hcount =>
      rw [hfollows.numTotalSegments, if_neg (h.some hall)]
    case hcopied =>
      intro hcopy
      have hz := (hfollows.zeroCopy.mp hcopy).resolve_left (by decide)
      rw [hfollows.numSegments, hfollows.segmentSize]
      exact h.copied hall hz

end Vectors

/-- **Which argument vectors `parse_args` handles as it should.** -/
theorem accepts_usable_iff (env : Environment) (argv : List CString) :
    AcceptsUsable env argv ↔
      UsableOptions (getoptLong argumentOptions env.posixlyCorrect argv.tail) :=
  ⟨fun h => h.usableOptions rfl, fun h => .of_usableOptions h rfl⟩

/-- A number of segments that is no number: it counts as zero. -/
theorem not_accepts_usable_malformed :
    ¬ AcceptsUsable ⟨false, fun _ => 0⟩ ["mlx5-netperf".toList, "--num_segments=abc".toList] := by
  intro hclaim
  have hreturned : parseArgs ⟨false, fun _ => 0⟩
      ["mlx5-netperf".toList, "--num_segments=abc".toList] =
        .returned { Settings.default with numSegments := 0, numTotalSegments := 16 } := by
    decide
  exact absurd (hclaim.usable _ hreturned).numSegments.1 (by decide)

end Mlx5Netperf
