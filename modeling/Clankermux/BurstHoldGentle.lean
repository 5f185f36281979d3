import Clankermux.BurstHold

/-! What a hold of the cache account keeps through a burst throttle, and the wait it forgets about: the breaker and the
weekly memo are read before a sleep and not again before the probe that follows it. -/
namespace Clankermux.BurstHold
open OverloadBreaker

structure Probe.Gentle (q : Request) (p : Probe) : Prop where
  cooled : ∀ deadline ∈ p.rateLimitedUntil, (deadline : ℚ) ≤ p.time
  budgeted : p.held ≤ q.tuning.maxHoldMs
  present : p.aborted = false
  closed : p.overloadedUntil = none
  allowed : p.exhausted = false

namespace Hold

def Stands (q : Request) (s : Hold) : Prop :=
  match s.phase with
  | .before => s.slots = 0 ∧ s.releases = 0 ∧ s.made = 0 ∧ s.attempt = 0
  | .cooling until_ =>
    s.slots = 1 ∧ s.releases = 0 ∧ s.made = s.attempt ∧ s.attempt < q.maxAttempts ∧ s.aborted = false ∧
      (∀ deadline ∈ s.account.rateLimitedUntil, (deadline : ℚ) ≤ until_) ∧ until_ < s.start + q.tuning.maxHoldMs + 1
  | .probing => s.slots = 1 ∧ s.releases = 0 ∧ s.made = s.attempt ∧ s.attempt < q.maxAttempts
  | .polling _ => s.slots = 1 ∧ s.releases = 0 ∧ s.made = s.attempt ∧ s.attempt ≤ q.maxAttempts
  | .done .overflow => s.slots = 0 ∧ s.releases = 0 ∧ s.made = 0
  | .done _ => s.slots = 0 ∧ s.releases = 1 ∧ s.made ≤ q.maxAttempts

structure Kept (q : Request) (s : Hold) : Prop where
  gentle : ∀ p ∈ s.probes, p.Gentle q
  stands : s.Stands q

structure Looping (q : Request) (s : Hold) : Prop where
  gentle : ∀ p ∈ s.probes, p.Gentle q
  slot : s.slots = 1
  unreleased : s.releases = 0
  counted : s.made = s.attempt
  within : s.attempt ≤ q.maxAttempts

variable {q : Request} {s : Hold}

theorem Looping.finished (loop : s.Looping q) {result : Result} (entered : result ≠ .overflow) : (s.finish result).Kept q := by
  refine ⟨loop.gentle,?_⟩
  cases result with
  | overflow => exact absurd rfl entered
  | response | gaveUp | threw =>
    exact ⟨by simp [finish,loop.slot],by simp [finish,loop.unreleased],by simp [finish,loop.counted,loop.within]⟩

theorem Looping.probed (loop : s.Looping q) (left : s.attempt < q.maxAttempts)
    (gentle : (⟨s.time,s.now - s.start,s.account.rateLimitedUntil,s.aborted,s.overloadedUntil q,s.exhausted q⟩ : Probe).Gentle q) :
    (s.reprobe q).Kept q :=
  ⟨List.forall_mem_cons.mpr ⟨gentle,loop.gentle⟩,loop.slot,loop.unreleased,loop.counted,left⟩

theorem floorLe (s : Hold) : (s.now : ℚ) ≤ s.time := Int.floor_le s.time
theorem ltFloor (s : Hold) : s.time < s.now + 1 := Int.lt_floor_add_one s.time

theorem Looping.turned (loop : s.Looping q) {random : ℚ} (fraction : Fraction random) : (s.turn q random).Kept q := by
  have gaveUp : (s.finish .gaveUp).Kept q := loop.finished (by decide)
  unfold turn
  split
  · exact gaveUp
  rename_i attempts
  have left : s.attempt < q.maxAttempts := by simpa using attempts
  split
  · exact gaveUp
  rename_i present
  have present : s.aborted = false := by simpa using present
  split
  · exact gaveUp
  rename_i allowed
  split
  · exact gaveUp
  rename_i closed
  split
  · exact gaveUp
  rename_i budget
  split
  · exact gaveUp
  rename_i early
  have budget : 0 < s.remaining q := not_le.mp budget
  have early : s.cooldownWait ≤ s.remaining q := not_lt.mp early
  have jitter : 0 ≤ random * q.tuning.jitterMs := mul_nonneg fraction.1 (by exact_mod_cast q.tuning.jittered)
  have cooldown : ∀ deadline ∈ s.account.rateLimitedUntil, (deadline : ℚ) ≤ s.time + s.cooldownWait := by
    intro deadline known
    have ahead : deadline ≤ s.now + s.cooldownWait := by
      simp only [cooldownWait,Option.mem_def.mp known,Option.getD_some]
      omega
    have : (deadline : ℚ) ≤ s.now + s.cooldownWait := by exact_mod_cast ahead
    linarith [s.floorLe]
  have slept : (s.cooldownWait : ℚ) ≤ min (s.cooldownWait + random * q.tuning.jitterMs) (s.remaining q) :=
    le_min (by linarith) (by exact_mod_cast early)
  dsimp only
  split
  · refine ⟨loop.gentle,loop.slot,loop.unreleased,loop.counted,left,present,?_,?_⟩
    · intro deadline known
      linarith [cooldown deadline known]
    · have room : ((s.remaining q : Int) : ℚ) = q.tuning.maxHoldMs - (s.now - s.start) := by simp [remaining]
      have most := min_le_right (s.cooldownWait + random * q.tuning.jitterMs) (s.remaining q : ℚ)
      linarith [s.ltFloor]
  · rename_i immediate
    refine loop.probed left ⟨?_,?_,present,by simpa using closed,by simpa using allowed⟩
    · intro deadline known
      linarith [cooldown deadline known]
    · show s.now - s.start ≤ q.tuning.maxHoldMs
      simp only [remaining] at budget
      omega

theorem settled (kept : s.Kept q) (probing : s.phase = .probing) {random again : ℚ} (fraction : Fraction again)
    (outcome : Outcome) (rateLimitedUntil : Option Int) : (s.settle q outcome rateLimitedUntil random again).Kept q := by
  obtain ⟨gentle,stands⟩ := kept
  simp only [Stands,probing] at stands
  obtain ⟨slot,unreleased,counted,left⟩ := stands
  -- An answered probe is counted whether or not it was good for anything.
  have answered (moved : Account) {result : Result} (attempt : Nat) (entered : result ≠ .overflow) :
      ({ s with account := moved, made := s.made + 1, attempt := attempt }.finish result).Kept q := by
    refine ⟨gentle,?_⟩
    cases result with
    | overflow => exact absurd rfl entered
    | response | gaveUp | threw => exact ⟨by simp [finish,slot],by simp [finish,unreleased],by simp only [finish]; omega⟩
  have unanswered (moved : Account) : { s with account := moved }.Looping q := ⟨gentle,slot,unreleased,counted,left.le⟩
  have threw : Result.threw ≠ .overflow := by decide
  have gaveUp : Result.gaveUp ≠ .overflow := by decide
  have response : Result.response ≠ .overflow := by decide
  cases outcome with
  | response => exact answered _ _ response
  | declined => exact answered _ _ gaveUp
  | threw => exact answered _ _ threw
  | throttled =>
    unfold settle
    dsimp only
    split
    · exact answered _ _ gaveUp
    · have next : ({ s with account := ⟨s.account.id,s.account.provider,rateLimitedUntil⟩, made := s.made + 1,
                            attempt := s.attempt + 1 } : Hold).Looping q :=
        ⟨gentle,slot,unreleased,congrArg (· + 1) counted,left⟩
      exact next.turned fraction
  | suppressed =>
    unfold settle
    dsimp only
    split
    · exact (unanswered _).finished gaveUp
    split
    · exact (unanswered _).finished gaveUp
    split
    · exact (unanswered _).finished gaveUp
    · exact ⟨gentle,slot,unreleased,counted,left.le⟩

end Hold

def Quiet (q : Request) (s : Hold) : Event → Bool
  | .wake _ =>
    match s.phase with
    | .cooling _ => (s.overloadedUntil q).isNone && !s.exhausted q
    | _ => true
  | _ => true
variable {q : Request}

theorem Hold.Kept.woken {s : Hold} {until_} (kept : s.Kept q) (cooling : s.phase = .cooling until_)
    (over_ : s.time = until_) (closed : s.overloadedUntil q = none) (allowed : s.exhausted q = false) : (s.reprobe q).Kept q := by
  obtain ⟨gentle,stands⟩ := kept
  simp only [Hold.Stands,cooling] at stands
  obtain ⟨slot,unreleased,counted,left,present,cooled,budget⟩ := stands
  have loop : s.Looping q := ⟨gentle,slot,unreleased,counted,left.le⟩
  refine loop.probed left ⟨by rw [over_]; exact cooled,?_,present,closed,allowed⟩
  have early : (s.now : ℚ) < s.start + q.tuning.maxHoldMs + 1 := by linarith [s.floorLe]
  have : s.now < s.start + q.tuning.maxHoldMs + 1 := by exact_mod_cast early
  show s.now - s.start ≤ q.tuning.maxHoldMs
  omega

theorem Hold.Kept.abandoned {s t : Hold} (kept : s.Kept q) (step : step q s .abort = some t) : t.Kept q := by
  obtain ⟨gentle,stands⟩ := kept
  simp only [BurstHold.step] at step
  split at step
  · rename_i until_ cooling
    simp only [Hold.Stands,cooling] at stands
    obtain ⟨slot,unreleased,counted,left,-⟩ := stands
    have loop : { s with aborted := true }.Looping q := ⟨gentle,slot,unreleased,counted,left.le⟩
    cases step
    exact loop.finished (by decide)
  · rename_i until_ polling
    simp only [Hold.Stands,polling] at stands
    obtain ⟨slot,unreleased,counted,within⟩ := stands
    have loop : { s with aborted := true }.Looping q := ⟨gentle,slot,unreleased,counted,within⟩
    cases step
    exact loop.finished (by decide)
  · rename_i awake polling
    cases step
    refine ⟨gentle,?_⟩
    unfold Hold.Stands at stands ⊢
    split at stands
    · simp_all
    · exact absurd ‹_› (awake _)
    · simp_all
    · exact absurd ‹_› (polling _)
    · simp_all
    · simp_all

theorem Hold.Kept.entered {s t slot random} (kept : s.Kept q)
    (step : step q s (.enter slot random) = some t) : t.Kept q := by
  obtain ⟨gentle,stands⟩ := kept
  simp only [BurstHold.step] at step
  split at step
  · rename_i before
    simp only [Hold.Stands,before] at stands
    obtain ⟨free,unreleased,unmade,fresh⟩ := stands
    split at step
    · rename_i fraction
      split at step
      · have loop : { s with slots := s.slots + 1, start := s.now }.Looping q :=
          ⟨gentle,by simp [free],unreleased,unmade.trans fresh.symm,by simp [fresh]⟩
        cases step
        exact loop.turned fraction
      · cases step
        exact ⟨gentle,free,unreleased,unmade⟩
    · cases step
  · cases step

theorem stepKept {s t : Hold} {e} (kept : s.Kept q) (quiet : Quiet q s e = true)
    (step : step q s e = some t) : t.Kept q := by
  cases e with
  | abort => exact kept.abandoned step
  | enter slot random => exact kept.entered step
  | pass elapsed =>
    simp only [BurstHold.step] at step
    split at step
    · cases step
      exact ⟨kept.gentle,kept.stands⟩
    · cases step
  | breaker next =>
    cases step
    exact ⟨kept.gentle,kept.stands⟩
  | memo next =>
    cases step
    exact ⟨kept.gentle,kept.stands⟩
  | wake random =>
    simp only [BurstHold.step] at step
    split at step
    · rename_i until_ cooling
      split at step
      · rename_i over_
        simp only [Quiet,cooling,Bool.and_eq_true,Option.isNone_iff_eq_none,Bool.not_eq_true'] at quiet
        cases step
        exact kept.woken cooling over_ quiet.1 quiet.2
      · cases step
    · rename_i until_ polling
      split at step
      · rename_i woken
        obtain ⟨gentle,stands⟩ := kept
        simp only [Hold.Stands,polling] at stands
        obtain ⟨slot,unreleased,counted,within⟩ := stands
        have loop : s.Looping q := ⟨gentle,slot,unreleased,counted,within⟩
        cases step
        exact loop.turned woken.2
      · cases step
    · cases step
  | outcome outcome rateLimitedUntil random again =>
    simp only [BurstHold.step] at step
    split at step
    · rename_i probing
      split at step
      · rename_i fraction
        cases step
        exact Hold.settled kept probing fraction.2 outcome rateLimitedUntil
      · cases step
    · cases step

theorem startKept {s : Hold} (init : (machine q).init s) : s.Kept q := by
  obtain ⟨before,fresh,free,unreleased,unprobed,unmade⟩ := init
  refine ⟨by simp [unprobed],?_⟩
  simp only [Hold.Stands,before]
  exact ⟨free,unreleased,unmade,fresh⟩

theorem Hold.Kept.counted {s : Hold} (kept : s.Kept q) : s.made ≤ q.maxAttempts := by
  have stands := kept.stands
  unfold Hold.Stands at stands
  split at stands <;> omega

structure ProbesGently (q : Request) (s : Hold) : Prop where
  probes : ∀ p ∈ s.probes, p.Gentle q
  attempts : s.made ≤ q.maxAttempts
  released : ∀ result, s.phase = .done result → s.slots = 0 ∧ s.releases = if result = .overflow then 0 else 1
  held : (∀ result, s.phase ≠ .done result) → s.releases = 0

theorem quietHoldsProbeGently (q : Request) (s : Hold)
    (reach : (machine q).ReachableUnder (fun s e => Quiet q s e = true) s) : ProbesGently q s := by
  have kept := reach.invariant (fun s => startKept) (fun s e t kept quiet step => stepKept kept quiet step)
  refine ⟨kept.gentle,kept.counted,?_,?_⟩
  · intro result done
    have stands := kept.stands
    simp only [Hold.Stands] at stands
    cases result <;> simp_all
  · intro running
    have stands := kept.stands
    unfold Hold.Stands at stands
    split at stands <;> first | exact stands.2.1 | exact absurd ‹_› (running _)

def throttled : Hold :=
  ⟨0,false,Breaker.empty,[],⟨"a","anthropic",some 5000⟩,0,0,.before,0,0,[],0⟩

def fable : Request := ⟨.fresh_headroom,some "claude-fable-5",BURST_RETRY⟩

def sleepThrough (landing : List Event) : List Event := [.enter true 0] ++ landing ++ [.pass 5000,.wake 0]

theorem throttledStarts (q : Request) : (machine q).init throttled := ⟨rfl,rfl,rfl,rfl,rfl,rfl⟩

theorem breakerForgottenAsleep : ¬ ∀ (q : Request) (s : Hold), (machine q).Reachable s → ProbesGently q s := by
  intro claim
  have outcome : ((machine fable).run throttled (sleepThrough [.breaker ⟨[("anthropic-upstream",⟨60000,1,none⟩)],1,0,0⟩])).map
      (fun s => s.probes.map (·.overloadedUntil)) = some [some 60000] := by decide +kernel
  obtain ⟨s,done,probed⟩ := Option.map_eq_some_iff.mp outcome
  have gentle := (claim fable s (Machine.runReachable _ (throttledStarts fable) done)).probes
  cases sent : s.probes with
  | nil => simp [sent] at probed
  | cons p rest =>
    have closed := (gentle p (by simp [sent])).closed
    simp [sent,closed] at probed

theorem quietHoldProbes :
    ∃ s, (machine fable).runUnder (Quiet fable) throttled (sleepThrough []) = some s ∧ s.probes.length = 1 ∧
      ProbesGently fable s := by
  have outcome : ((machine fable).runUnder (Quiet fable) throttled (sleepThrough [])).map (·.probes.length) = some 1 := by
    decide +kernel
  obtain ⟨s,done,probed⟩ := Option.map_eq_some_iff.mp outcome
  exact ⟨s,done,probed,quietHoldsProbeGently fable s (Machine.runReachableUnder _ (throttledStarts fable) done)⟩

end Clankermux.BurstHold
