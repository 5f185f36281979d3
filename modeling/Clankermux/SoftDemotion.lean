import Clankermux.OverloadBreaker
import Clankermux.SessionStrategy

/-! The gates that move accounts to the back of the candidates without taking one away: the
reservation of a shared window for the protected family, the reserve that keeps the pool alive,
and the memos of failures. What they read of an account is a function of the account, since the
ids of the candidates are distinct. Where a NaN may stand the gates first ask whether the figure
is finite, so a figure that is NaN is taken as an infinite one. Log lines are left out. -/
namespace Clankermux.SoftDemotion
open LoadBalancer
open OverloadBreaker (ModelFamily getModelFamily)

def HOUR_MS : ℚ := 3600000

def isFinite : Figure → Option ℚ
  | some (some value) => some value
  | _ => none

def PROTECTED_FAMILY : ModelFamily := .fable

def isProtectedFamily (family : Option ModelFamily) : Bool := family = some PROTECTED_FAMILY

def LIVENESS_RESERVE_HEADROOM_PCT : ℚ := 20
def LIVENESS_RESERVE_PROTECTED_HEADROOM_PCT : ℚ := 10
def LIVENESS_RELEASE_HORIZON_MIN_MS : ℚ := 12*HOUR_MS
def LIVENESS_RELEASE_HORIZON_MAX_MS : ℚ := 36*HOUR_MS
def LIVENESS_DESIGN_SLOPE_PCT_PER_HOUR : ℚ := 66/100

structure PoolLivenessOptions where
  reserveThresholdPct : ℚ
  weeklySlopePctPerHour : Option Figure
  subscriptionEndMs : Option Int

def resolveLivenessReserveThreshold (protectedRequest : Bool) : ℚ :=
  if protectedRequest then LIVENESS_RESERVE_PROTECTED_HEADROOM_PCT else LIVENESS_RESERVE_HEADROOM_PCT

def isAbsorbablePeer (capacity : Option CapacitySignal) (familyReserved owesRecoveryProbe : Bool) (reserveThresholdPct : ℚ) : Bool :=
  match capacity with
  | none => false
  | some capacity =>
    match isFinite capacity.minHeadroom with
    | none => false
    | some minHeadroom => if minHeadroom < reserveThresholdPct then false else !familyReserved && !owesRecoveryProbe

def resolveReleaseHorizonMs (weeklyHeadroom : ℚ) (opts : PoolLivenessOptions) : ℚ :=
  match (opts.weeklySlopePctPerHour.bind isFinite).filter (0 < ·) with
  | some slope => min LIVENESS_RELEASE_HORIZON_MAX_MS (max LIVENESS_RELEASE_HORIZON_MIN_MS (weeklyHeadroom/slope*HOUR_MS))
  | none => opts.reserveThresholdPct/LIVENESS_DESIGN_SLOPE_PCT_PER_HOUR*HOUR_MS

def resolvePoolLivenessDemotion (capacity : Option CapacitySignal) (absorbablePeerCount : Nat) (now : Int) (opts : PoolLivenessOptions) : Bool :=
  match capacity with
  | none => false
  | some capacity =>
    match isFinite capacity.weeklyHeadroom with
    | none => false
    | some weeklyHeadroom =>
      if opts.reserveThresholdPct ≤ weeklyHeadroom then false
      else if absorbablePeerCount < 1 then false
      else
        match capacity.bindingWeeklyResetMs.bind isFinite with
        | none => false
        | some bindingWeeklyResetMs =>
          let lostAt : ℚ := opts.subscriptionEndMs.elim bindingWeeklyResetMs (fun end_ => min bindingWeeklyResetMs end_)
          decide (resolveReleaseHorizonMs weeklyHeadroom opts < lostAt - now)

def WEEKLY_SLOPE_MAX_AGE_MS : ℚ := 15*60*1000
def WEEKLY_SLOPE_RESET_MATCH_TOLERANCE_MS : ℚ := 5*60*1000

structure WeeklyBurnSlopeRecord where
  slopePctPerHour : Figure
  lowConfidence : Bool
  observedAt : Figure
  windowResetMs : Figure

structure WeeklyBurnSlopeEntry where
  slopePctPerHour : Figure
  windowResetMs : Figure

def getWeeklyBurnSlope (entry : Option WeeklyBurnSlopeRecord) (now : Int) : Option WeeklyBurnSlopeEntry := do
  let entry ← entry
  if entry.lowConfidence then none
  else
    let _ ← isFinite entry.slopePctPerHour
    let observedAt ← isFinite entry.observedAt
    if WEEKLY_SLOPE_MAX_AGE_MS < now - observedAt then none else some ⟨entry.slopePctPerHour,entry.windowResetMs⟩

def resolveEffectiveWeeklySlope (slope : Option WeeklyBurnSlopeRecord) (capacity : Option CapacitySignal) (now : Int) : Option Figure := do
  let capacity ← capacity
  let bindingReset ← capacity.bindingWeeklyResetMs.bind isFinite
  let entry ← getWeeklyBurnSlope slope now
  let windowResetMs ← isFinite entry.windowResetMs
  if WEEKLY_SLOPE_RESET_MATCH_TOLERANCE_MS < |windowResetMs - bindingReset| then none else some entry.slopePctPerHour

def SESSION_RESERVE_HEADROOM_PCT : ℚ := 25
def WEEKLY_RESERVE_HEADROOM_PCT : ℚ := 40
def PROTECTED_FAMILY_DEMAND_LOOKBACK_MS : Int := 43200000
def WEEKLY_HARVEST_YIELD_HORIZON_MS : ℚ := 7200000

/-- `exhausted` are the families that `getExhaustedFamilies` finds in the usage of the account. -/
def resolveReservationDemotion (account : Account) (modelForGate : String) (exhausted : List ModelFamily) (capacity : Option CapacitySignal)
    (lastProtectedDemandMs : Option Int) (now : Int) : Bool :=
  match getModelFamily modelForGate,capacity with
  | some family,some capacity =>
    if isProtectedFamily (some family) then false
    else if account.provider ≠ "anthropic" then false
    else if PROTECTED_FAMILY ∈ exhausted then false
    else if (isFinite capacity.sessionHeadroom).any (· < SESSION_RESERVE_HEADROOM_PCT) then true
    else if (isFinite capacity.weeklyHeadroom).any (· < WEEKLY_RESERVE_HEADROOM_PCT) then
      let recentDemand := lastProtectedDemandMs.any (now - · ≤ PROTECTED_FAMILY_DEMAND_LOOKBACK_MS)
      let nearReset := (capacity.bindingWeeklyResetMs.bind isFinite).all (· - now ≤ WEEKLY_HARVEST_YIELD_HORIZON_MS)
      recentDemand && !nearReset
    else false
  | _,_ => false

structure Readings where
  modelForAccount : Account → String
  capacity : Account → Option CapacitySignal
  exhaustedFamilies : Account → List ModelFamily
  lastProtectedFamilyDemand : Account → Option Int
  weeklyBurnSlope : Account → Option WeeklyBurnSlopeRecord
  capacityRestoredProbePending : Account → Bool

inductive Reason where
  | both
  | familyReservation
  | poolLiveness
  deriving DecidableEq

def Reason.label : Reason → String
  | .both => "both"
  | .familyReservation => "family reservation"
  | .poolLiveness => "pool liveness"

structure Reorder where
  kept : List Account
  demoted : List Account
  reasons : List (String × Reason)
  heldAtEveryTier : List String

section Reorder
variable (pool : Readings) (candidates : List Account) (now : Int)

def familyDemote (account : Account) : Bool :=
  resolveReservationDemotion account (pool.modelForAccount account) (pool.exhaustedFamilies account) (pool.capacity account)
    (pool.lastProtectedFamilyDemand account) now

def livenessThreshold (account : Account) : ℚ :=
  resolveLivenessReserveThreshold (isProtectedFamily (getModelFamily (pool.modelForAccount account)))

def absorbable (threshold : ℚ) (peer : Account) : Bool :=
  isAbsorbablePeer (pool.capacity peer) (familyDemote pool now peer) (pool.capacityRestoredProbePending peer) threshold

def countAbsorbablePeers (account : Account) (threshold : ℚ) : Nat :=
  (candidates.filter (fun peer => peer.id ≠ account.id)).countP (absorbable pool now threshold)

def livenessDemotes (account : Account) (threshold : ℚ) : Bool :=
  resolvePoolLivenessDemotion (pool.capacity account) (countAbsorbablePeers pool candidates now account threshold) now
    { reserveThresholdPct := threshold
      weeklySlopePctPerHour := resolveEffectiveWeeklySlope (pool.weeklyBurnSlope account) (pool.capacity account) now
      subscriptionEndMs := nonRenewingSubscriptionEnd account now }

def livenessDemote (account : Account) : Bool := livenessDemotes pool candidates now account (livenessThreshold pool account)

def reasonOf (family liveness : Bool) : Option Reason :=
  match family,liveness with
  | true,true => some .both
  | true,false => some .familyReservation
  | false,true => some .poolLiveness
  | false,false => none

def reorderOne (reorder : Reorder) (account : Account) : Reorder :=
  let threshold := livenessThreshold pool account
  let liveness := livenessDemotes pool candidates now account threshold
  let held := liveness && (threshold = LIVENESS_RESERVE_PROTECTED_HEADROOM_PCT ||
    livenessDemotes pool candidates now account LIVENESS_RESERVE_PROTECTED_HEADROOM_PCT)
  let reorder := { reorder with heldAtEveryTier := if held then reorder.heldAtEveryTier ++ [account.id] else reorder.heldAtEveryTier }
  match reasonOf (familyDemote pool now account) liveness with
  | some reason => { reorder with reasons := reorder.reasons ++ [(account.id,reason)], demoted := reorder.demoted ++ [account] }
  | none => { reorder with kept := reorder.kept ++ [account] }

def applySoftDemotionReorder : Reorder := candidates.foldl (reorderOne pool candidates now) ⟨[],[],[],[]⟩

end Reorder

def Reorder.softDemotionHead (reorder : Reorder) : Option Account := reorder.kept.head?

def Reorder.order (reorder : Reorder) : List Account := reorder.kept ++ reorder.demoted

structure FailureMemos where
  codexTransient : Account → Option Int
  familyWeekly : Account → ModelFamily → Option Int

def getCodexTransientFailureUntil (memos : FailureMemos) (account : Account) (now : Int) : Option Int :=
  (memos.codexTransient account).filter (now < ·)

def getFamilyWeeklyExhaustedUntil (memos : FailureMemos) (account : Account) (family : ModelFamily) (now : Int) : Option Int :=
  (memos.familyWeekly account family).filter (now < ·)

section Memo
variable (memos : FailureMemos) (modelForAccount : Account → String) (isSyntheticProbeRequest : Bool) (now : Int)

def memoDemotes (account : Account) : Bool :=
  let transientUntil := if account.provider = "codex" ∧ isSyntheticProbeRequest = false then getCodexTransientFailureUntil memos account now else none
  let family := if account.provider = "anthropic" then getModelFamily (modelForAccount account) else none
  let resetAt := family.bind (getFamilyWeeklyExhaustedUntil memos account · now)
  transientUntil.isSome || resetAt.isSome

def memoOne (groups : List Account × List Account) (account : Account) : List Account × List Account :=
  if memoDemotes memos modelForAccount isSyntheticProbeRequest now account then (groups.1,groups.2 ++ [account]) else (groups.1 ++ [account],groups.2)

def applyFailureMemoDemotion (candidates : List Account) : List Account :=
  let (kept,demoted) := candidates.foldl (memoOne memos modelForAccount isSyntheticProbeRequest now) ([],[])
  if 0 < demoted.length then kept ++ demoted else candidates

end Memo

end Clankermux.SoftDemotion
