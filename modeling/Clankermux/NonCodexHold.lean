import Clankermux.SoftDemotionAbsorbed

/-! The hold that waits for accounts to recover. Each pass reads the pool, the breaker and the clock anew, and with each
sleep it is kept what the pass attempted. The ids of a selection are distinct, as in the table it is read from, so that
what a candidate finds when its turn comes is a function of the account. Log lines are left out. -/
namespace Clankermux.NonCodexHold
open LoadBalancer OverloadBreaker SoftDemotion

def OVERLOAD_HOLD_PROBE_POLL_MS : Int := 1500

inductive Outcome where
  | retryable_429 | hard_429 | model_quota_exhausted | auth | org_permission_denied | overload_529 | overload_suppressed
  | model_not_found | model_route_restricted | model_not_entitled | model_substituted | server_error | network_error
  | invalid_request | sdk_bridge_unavailable | sdk_bridge_extra_usage | sdk_bridge_version_too_old | other
  deriving DecidableEq

def isOrdinaryAttemptFailure (outcome : Outcome) : Bool := outcome ≠ .overload_suppressed ∧ outcome ≠ .overload_529

inductive Answer where | response | clientAbort | threw

inductive GatedAttempt where
  | suppressed
  | threw
  | made (outcomes : List Outcome) (response aborted : Bool)

structure Visit where
  now : Int
  breaker : Breaker
  gated : GatedAttempt

/-- `attempted` is what went upstream, newest first. -/
structure AttemptRound where
  response : Option Answer
  sawOverloadSuppression : Bool
  sawRetrip : Bool
  probeSuppressedAccountIds : List String
  ordinaryFailedAccountIds : List String
  budgetAborted : Bool
  attempted : List Account

def AttemptRound.empty : AttemptRound := ⟨none,false,false,[],[],false,[]⟩

def AttemptRound.onOutcome (candidate : Account) (round : AttemptRound) (outcome : Outcome) : AttemptRound :=
  if outcome = .overload_suppressed then { round with sawOverloadSuppression := true }
  else if outcome = .overload_529 then { round with sawRetrip := true }
  else if isOrdinaryAttemptFailure outcome then
    { round with ordinaryFailedAccountIds := candidate.id::round.ordinaryFailedAccountIds }
  else round

def AttemptRound.suppress (round : AttemptRound) (candidate : Account) : AttemptRound :=
  { round with probeSuppressedAccountIds := candidate.id::round.probeSuppressedAccountIds }

def AttemptRound.attempt (round : AttemptRound) (candidate : Account) (outcomes : List Outcome) : AttemptRound :=
  outcomes.foldl (AttemptRound.onOutcome candidate) { round with attempted := candidate::round.attempted }

def refused (model : Account → String) (visit : Account → Visit) (candidate : Account) : Bool :=
  let overload := inspectProviderOverload (visit candidate).breaker candidate.provider (some (model candidate)) (visit candidate).now
  overload.state = .open || overload.probeActive

section Attempt
variable (model : Account → String) (visit : Account → Visit) (signal : Option (Account → Bool))

def attemptCandidates (round : AttemptRound) : List Account → AttemptRound
  | [] => round
  | candidate::rest =>
    if refused model visit candidate then attemptCandidates (round.suppress candidate) rest
    else
      match (visit candidate).gated with
      | .suppressed => attemptCandidates (round.suppress candidate) rest
      | .threw => { round with attempted := candidate::round.attempted, response := some .threw }
      | .made outcomes response aborted =>
        let round := round.attempt candidate outcomes
        if response then { round with response := some .response }
        -- The client going wins over the budget running out.
        else if aborted then { round with response := some .clientAbort }
        else if signal.any (· candidate) then { round with budgetAborted := true }
        else attemptCandidates round rest

end Attempt

structure Request where
  budgetMs : Int
  nonCodexJitterMs : Int
  eligible : Option (Account → Bool)
  modelForAccount : Account → String
  isSyntheticProbeRequest : Bool

structure Selection where
  accounts : List Account
  unique : (accounts.map (·.id)).Nodup

/-- `throttled` and `heldWeekly` are what the gates of the usage windows and of the weekly window of the family say. -/
structure Pass where
  now : Int
  allAccs : List Account
  breaker : Breaker
  random : ℚ
  completed : Bool
  reSelected : Selection
  gatesNow : Int
  gatesBreaker : Breaker
  throttled : Account → Bool
  heldWeekly : Account → Bool
  memosNow : Int
  memos : FailureMemos
  visit : Account → Visit

section Hold
variable (q : Request)

def isEligible (account : Account) : Bool :=
  account.rateLimitedReason ≠ some .orgPermissionDenied && q.eligible.elim (decide (account.provider ≠ "codex")) (· account)

def applyProviderOverloadGate (pass : Pass) (accounts : List Account) : List Account :=
  accounts.filter (fun account =>
    !(getProviderOverloadUntil pass.gatesBreaker account.provider pass.gatesNow (some (q.modelForAccount account))).any (· ≠ 0))

def applyUsageThrottling (pass : Pass) (accounts : List Account) : List Account :=
  if q.isSyntheticProbeRequest then accounts else accounts.filter (!pass.throttled ·)

def applyFamilyWeeklyGate (pass : Pass) (candidates : List Account) : List Account :=
  candidates.filter (fun account => account.provider ≠ "anthropic" || !pass.heldWeekly account)

def candidates (pass : Pass) : List Account :=
  let reAvailable := applyProviderOverloadGate q pass pass.reSelected.accounts
  let rePostThrottle := applyUsageThrottling q pass reAvailable
  applyFailureMemoDemotion pass.memos q.modelForAccount q.isSyntheticProbeRequest pass.memosNow
    (applyFamilyWeeklyGate pass (rePostThrottle.filter (isEligible q)))

def availableAt (pass : Pass) (account : Account) : Int :=
  let rl := (account.rateLimitedUntil.filter (fun until_ => until_ ≠ 0 ∧ until_ > pass.now)).getD 0
  let ov := (getProviderOverloadUntil pass.breaker account.provider pass.now (some (q.modelForAccount account))).getD 0
  max rl ov

def unavailable (pass : Pass) : List Account :=
  (pass.allAccs.filter (fun account => !account.paused && isEligible q account)).filter (availableAt q pass · > pass.now)

def cooldownWaitMs (pass : Pass) : Option Int :=
  ((unavailable q pass).map (availableAt q pass)).min?.map (fun soonest => max 0 (soonest - pass.now))

structure Sleep where
  pass : Pass
  waitMs : Int
  polling : Bool
  attemptList : List Account
  round : AttemptRound

inductive Result where | null | answer (answer : Answer)

structure Hold where
  holdStart : Int
  probeSuppressedIds : List String
  sleeps : List Sleep
  result : Option Result

def Hold.began (holdStart : Int) : Hold := ⟨holdStart,[],[],none⟩

/-- The wait that is chosen, and whether it is for the verdict of a probe. -/
def chosenWait (probeWaitMs cooldownWaitMs : Option Int) : Option (Bool × Int) :=
  match probeWaitMs,cooldownWaitMs with
  | some probe,none => some (true,probe)
  | some probe,some cooldown => if probe < cooldown then some (true,probe) else some (false,cooldown)
  | none,some cooldown => some (false,cooldown)
  | none,none => none

def attemptList (h : Hold) (pass : Pass) (polling : Bool) : List Account :=
  let candidates := candidates q pass
  if polling then candidates.filter (·.id ∈ h.probeSuppressedIds) else candidates

def wake (h : Hold) (pass : Pass) (waitMs : Int) (polling : Bool) : Hold :=
  let slept := fun attemptList round => (⟨pass,waitMs,polling,attemptList,round⟩ : Sleep)::h.sleeps
  if pass.completed = false then { h with sleeps := slept [] .empty, result := some (.answer .clientAbort) }
  else
    let attemptList := attemptList q h pass polling
    if attemptList.length = 0 then { h with sleeps := slept [] .empty, probeSuppressedIds := [] }
    else
      let round := attemptCandidates q.modelForAccount pass.visit none .empty attemptList
      match round.response with
      | some answer => { h with sleeps := slept attemptList round, result := some (.answer answer) }
      | none => { h with sleeps := slept attemptList round, probeSuppressedIds := round.probeSuppressedAccountIds }

def turn (h : Hold) (pass : Pass) : Hold :=
  let elapsed := pass.now - h.holdStart
  if elapsed ≥ q.budgetMs then { h with result := some .null }
  else
    let remaining := q.budgetMs - elapsed
    let probeWaitMs := if h.probeSuppressedIds.length > 0 then some OVERLOAD_HOLD_PROBE_POLL_MS else none
    let jitterMs := (pass.random * q.nonCodexJitterMs).floor
    match chosenWait probeWaitMs (cooldownWaitMs q pass) with
    | none => { h with result := some .null }
    | some (polling,chosen) =>
      let waitMs := chosen + jitterMs
      if waitMs > remaining then { h with result := some .null } else wake q h pass waitMs polling

/-- A history that stops stands for a hold that is still waiting, or for one whose selection threw. -/
def holdForNonCodexRecovery (h : Hold) : List Pass → Hold
  | [] => h
  | pass::rest =>
    let h := turn q h pass
    if h.result.isSome then h else holdForNonCodexRecovery h rest

end Hold

def Suppressed (q : Request) (pass : Pass) (account : Account) : Prop :=
  refused q.modelForAccount pass.visit account = true ∨ (pass.visit account).gated = .suppressed

/-- The round before could not attempt the account. -/
def PendingIn (q : Request) (id : String) : List Sleep → Prop
  | [] => False
  | last::_ => ∃ held ∈ last.attemptList, held.id = id ∧ Suppressed q last.pass held

def Cooling (q : Request) (pass : Pass) : Prop :=
  ∃ account ∈ pass.allAccs, account.paused = false ∧ isEligible q account = true ∧ pass.now < availableAt q pass account

structure Slept (q : Request) (holdStart : Int) (sleep : Sleep) (earlier : List Sleep) : Prop where
  inBudget : sleep.pass.now + sleep.waitMs ≤ holdStart + q.budgetMs
  cooling : sleep.polling = false → Cooling q sleep.pass
  pending : sleep.polling = true → ∃ id, PendingIn q id earlier
  verdict : sleep.polling = true → ∀ account ∈ sleep.attemptList, PendingIn q account.id earlier
  failed : ∀ between last before, earlier = between ++ last::before → (∀ other ∈ sleep::between, other.polling = true) →
    ∀ account ∈ sleep.attemptList, account.id ∉ last.round.ordinaryFailedAccountIds
  once : (sleep.attemptList.map (·.id)).Nodup
  eligible : ∀ account ∈ sleep.attemptList, isEligible q account = true ∧ account.rateLimitedReason ≠ some .orgPermissionDenied
  attempted : ∀ account ∈ sleep.round.attempted, account ∈ sleep.attemptList

structure Round (q : Request) (pass : Pass) (list : List Account) (round : AttemptRound) : Prop where
  suppressed : ∀ id ∈ round.probeSuppressedAccountIds, ∃ account ∈ list, account.id = id ∧ Suppressed q pass account
  failed : ∀ id ∈ round.ordinaryFailedAccountIds, ∃ account ∈ list, account.id = id ∧ ¬ Suppressed q pass account
  attempted : ∀ account ∈ round.attempted, account ∈ list

variable {q : Request} {pass : Pass} {h : Hold} {round : AttemptRound} {list rest : List Account} {candidate : Account}
  {waitMs : Int} {polling : Bool}

theorem Round.onOutcomes (outcomes : List Outcome) (listed : candidate ∈ list) (made : ¬ Suppressed q pass candidate)
    (its : Round q pass list round) : Round q pass list (outcomes.foldl (AttemptRound.onOutcome candidate) round) := by
  induction outcomes generalizing round with
  | nil => exact its
  | cons outcome rest ih =>
    refine ih ?_
    unfold AttemptRound.onOutcome
    split_ifs
    · exact ⟨its.suppressed,its.failed,its.attempted⟩
    · exact ⟨its.suppressed,its.failed,its.attempted⟩
    · exact ⟨its.suppressed,List.forall_mem_cons.mpr ⟨⟨candidate,listed,rfl,made⟩,its.failed⟩,its.attempted⟩
    · exact its

theorem roundIs (signal : Option (Account → Bool)) (within : ∀ account ∈ rest, account ∈ list) (its : Round q pass list round) :
    Round q pass list (attemptCandidates q.modelForAccount pass.visit signal round rest) := by
  induction rest generalizing round with
  | nil => exact its
  | cons candidate rest ih =>
    obtain ⟨listed,within⟩ := List.forall_mem_cons.mp within
    have passed : Suppressed q pass candidate → Round q pass list (round.suppress candidate) := fun held =>
      ⟨List.forall_mem_cons.mpr ⟨⟨candidate,listed,rfl,held⟩,its.suppressed⟩,its.failed,its.attempted⟩
    have asked : Round q pass list { round with attempted := candidate::round.attempted } :=
      ⟨its.suppressed,its.failed,List.forall_mem_cons.mpr ⟨listed,its.attempted⟩⟩
    rw [attemptCandidates]
    split
    · rename_i refused_
      exact ih within (passed (.inl refused_))
    rename_i admitted
    split
    · rename_i gated
      exact ih within (passed (.inr gated))
    · exact ⟨asked.suppressed,asked.failed,asked.attempted⟩
    · rename_i outcomes response aborted gated
      have made : Round q pass list (round.attempt candidate outcomes) :=
        asked.onOutcomes outcomes listed (by simp [Suppressed,admitted,gated])
      dsimp only
      split_ifs
      · exact ⟨made.suppressed,made.failed,made.attempted⟩
      · exact ⟨made.suppressed,made.failed,made.attempted⟩
      · exact ⟨made.suppressed,made.failed,made.attempted⟩
      · exact ih within made

theorem candidatesPerm : ∃ kept, kept.Sublist pass.reSelected.accounts ∧ (candidates q pass).Perm kept ∧
    ∀ account ∈ kept, isEligible q account = true := by
  refine ⟨_,?_,memoIs _ _ _ _ _ ▸ StableSplit.sendBackPerm _ _,fun account inside => ?_⟩
  · refine List.filter_sublist.trans (List.filter_sublist.trans ?_)
    unfold applyUsageThrottling
    split
    · exact List.filter_sublist
    · exact List.filter_sublist.trans List.filter_sublist
  · exact (List.mem_filter.mp (List.mem_filter.mp inside).1).2

theorem cooldownWaits (waits : (cooldownWaitMs q pass).isSome) : Cooling q pass := by
  obtain ⟨account,inside⟩ : ∃ account, account ∈ unavailable q pass := by
    refine List.exists_mem_of_ne_nil _ (fun none_ => ?_)
    simp [cooldownWaitMs,none_] at waits
  obtain ⟨inside,later⟩ := List.mem_filter.mp inside
  obtain ⟨listed,its⟩ := List.mem_filter.mp inside
  exact ⟨account,listed,by simpa using (Bool.and_eq_true_iff.mp its).1,(Bool.and_eq_true_iff.mp its).2,of_decide_eq_true later⟩

structure Waits (q : Request) (h : Hold) : Prop where
  slept : ∀ sleep earlier, sleep::earlier <:+ h.sleeps → Slept q h.holdStart sleep earlier
  aborted : ∀ sleep ∈ h.sleeps, sleep.pass.completed = false → h.result = some (.answer .clientAbort) ∧ h.sleeps.head? = some sleep

structure Kept (q : Request) (h : Hold) : Prop extends Waits q h where
  pending : h.result = none → ∀ id ∈ h.probeSuppressedIds, PendingIn q id h.sleeps
  failed : h.result = none → ∀ between last before, h.sleeps = between ++ last::before → (∀ other ∈ between, other.polling = true) →
    ∀ id ∈ last.round.ordinaryFailedAccountIds, id ∉ h.probeSuppressedIds

theorem wakeKept (kept : Kept q h) (awake : h.result = none) (within : pass.now + waitMs ≤ h.holdStart + q.budgetMs)
    (cools : polling = false → (cooldownWaitMs q pass).isSome) (polls : polling = true → h.probeSuppressedIds ≠ []) :
    Kept q (wake q h pass waitMs polling) := by
  obtain ⟨from_,sub,same,eligible⟩ := @candidatesPerm q pass
  have distinct := ((same.map (·.id)).nodup_iff).mpr (pass.reSelected.unique.sublist (sub.map _))
  have next : ∀ {list round ids result}, list.Sublist (candidates q pass) →
      (polling = true → ∀ account ∈ list, account.id ∈ h.probeSuppressedIds) → Round q pass list round →
      (result = none → ids = round.probeSuppressedAccountIds) → (pass.completed = false → result = some (.answer .clientAbort)) →
      Kept q ⟨h.holdStart,ids,⟨pass,waitMs,polling,list,round⟩::h.sleeps,result⟩ := by
    intro list round ids result listed held its carried aborted
    have slept : Slept q h.holdStart ⟨pass,waitMs,polling,list,round⟩ h.sleeps := by
      refine ⟨within,fun cooled => cooldownWaits (cools cooled),fun polled => ?_,
        fun polled account inside => kept.pending awake _ (held polled account inside),
        fun between last before split polled account inside failed => ?_,distinct.sublist (listed.map _),fun account inside => ?_,its.attempted⟩
      · obtain ⟨id,inside⟩ := List.exists_mem_of_ne_nil _ (polls polled)
        exact ⟨id,kept.pending awake id inside⟩
      · obtain ⟨polled,others⟩ := List.forall_mem_cons.mp polled
        exact kept.failed awake between last before split others _ failed (held polled account inside)
      · have its := eligible account (same.mem_iff.mp (listed.subset inside))
        exact ⟨its,by simpa using (Bool.and_eq_true_iff.mp its).1⟩
    refine ⟨⟨fun other earlier within => ?_,List.forall_mem_cons.mpr ⟨fun gone => ⟨aborted gone,rfl⟩,fun other inside gone => ?_⟩⟩,
      fun going id inside => its.suppressed id (carried going ▸ inside),fun going between last before split polled id failed inside => ?_⟩
    · rcases List.suffix_cons_iff.mp within with same | within
      · cases same
        exact slept
      · exact kept.slept other earlier within
    · cases awake.symm.trans (kept.aborted other inside gone).1
    · obtain ⟨account,there,itsId,yes⟩ := its.suppressed id (carried going ▸ inside)
      cases between with
      | nil =>
        cases split
        obtain ⟨other,listed,same,not_⟩ := its.failed id failed
        exact not_ (List.inj_on_of_nodup_map slept.once there listed (itsId.trans same.symm) ▸ yes)
      | cons first between =>
        obtain ⟨rfl,rest⟩ := List.cons.inj split
        exact slept.failed between last before rest polled account there (itsId ▸ failed)
  have nothing : ∀ {list}, Round q pass list .empty := ⟨List.forall_mem_nil _,List.forall_mem_nil _,List.forall_mem_nil _⟩
  unfold wake
  dsimp only
  split
  · exact next (List.nil_sublist _) (fun _ => List.forall_mem_nil _) nothing nofun (fun _ => rfl)
  rename_i completed
  split
  · exact next (List.nil_sublist _) (fun _ => List.forall_mem_nil _) nothing (fun _ => rfl) (fun gone => absurd gone completed)
  have sub : (attemptList q h pass polling).Sublist (candidates q pass) := by
    cases polling with
    | false => exact .refl _
    | true => exact List.filter_sublist
  have held : polling = true → ∀ account ∈ attemptList q h pass polling, account.id ∈ h.probeSuppressedIds := by
    rintro rfl account inside
    exact of_decide_eq_true (List.mem_filter.mp inside).2
  split
  · exact next sub held (roundIs none (fun _ => id) nothing) nofun (fun gone => absurd gone completed)
  · exact next sub held (roundIs none (fun _ => id) nothing) (fun _ => rfl) (fun gone => absurd gone completed)

theorem chosenIs {probe cooldown : Option Int} {chosen : Int} (its : chosenWait probe cooldown = some (polling,chosen)) :
    (polling = false → cooldown.isSome) ∧ (polling = true → probe.isSome) := by
  unfold chosenWait at its
  split at its <;> grind

theorem turnKept (kept : Kept q h) (awake : h.result = none) : Kept q (turn q h pass) := by
  have null : Kept q { h with result := some .null } :=
    ⟨⟨kept.slept,fun sleep inside gone => (by cases awake.symm.trans (kept.aborted sleep inside gone).1)⟩,nofun,nofun⟩
  unfold turn
  dsimp only
  split
  · exact null
  split
  · exact null
  rename_i polling chosen its
  obtain ⟨cools,polls⟩ := chosenIs its
  split
  · exact null
  · rename_i within
    refine wakeKept kept awake (by omega) cools (fun polled none_ => ?_)
    simpa [none_] using polls polled

theorem runKept (passes : List Pass) (kept : Kept q h) (awake : h.result = none) : Kept q (holdForNonCodexRecovery q h passes) := by
  induction passes generalizing h with
  | nil => exact kept
  | cons pass rest ih =>
    rw [holdForNonCodexRecovery]
    split
    · exact turnKept kept awake
    · rename_i going
      exact ih (turnKept kept awake) (by simpa using going)

theorem nonCodexWaits (q : Request) (holdStart : Int) (passes : List Pass) : Waits q (holdForNonCodexRecovery q (.began holdStart) passes) := by
  have began : Kept q (.began holdStart) :=
    ⟨⟨fun _ _ within => (by cases List.suffix_nil.mp within),List.forall_mem_nil _⟩,fun _ => List.forall_mem_nil _,
      fun _ _ _ _ _ _ _ _ => List.not_mem_nil⟩
  exact (runKept passes began rfl).toWaits

end Clankermux.NonCodexHold
