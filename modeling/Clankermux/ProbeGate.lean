import Clankermux.InsertionMap
import Clankermux.Machine
import Clankermux.History

/-! The account-scoped recovery-probe gate and the cooldowns that arm it. A lease is
known by its identity and a reservation by its generation, which the counter gives to
no other. The slot of an account holds the reservation in it followed by those it
displaced, each linked to the next; which of them were rolled back is kept beside. -/
namespace Clankermux.RateLimitCooldown
open InsertionMap

inductive RateLimitReason where
  | upstream_429_with_reset
  | upstream_429_no_reset_probe_cooldown
  | model_fallback_429
  | all_models_exhausted_429
  | upstream_529_overloaded_with_reset
  | upstream_529_overloaded_no_reset
  | out_of_credits
  | org_permission_denied
  | family_weekly_exhausted_429
  | weekly_exhausted_429
  | session_exhausted_429
  deriving DecidableEq

def QUOTA_DERIVED_RATE_LIMIT_REASONS : List RateLimitReason := [.weekly_exhausted_429,.session_exhausted_429]

def isQuotaDerivedRateLimitReason (value : Option RateLimitReason) : Bool :=
  value.any (fun reason => decide (reason ∈ QUOTA_DERIVED_RATE_LIMIT_REASONS))

structure Account where
  id : String
  provider : String
  refreshToken : String
  consecutiveRateLimits : Nat
  rateLimitedUntil : Option Int
  rateLimitedReason : Option RateLimitReason
  rateLimitedAt : Option Int
  deriving DecidableEq

def supportsUsageTracking (provider : String) : Bool :=
  decide (provider ∈ ["devin","anthropic","zai","minimax","kilo","qwen","grok-subscription"])

def isOAuthAnthropicAccount (account : Account) : Bool :=
  account.provider == "anthropic" && supportsUsageTracking account.provider && decide (account.refreshToken.length > 0)

def RATE_LIMIT_BACKOFF_BASE_MS : Int := 30 * 1000
def RATE_LIMIT_BACKOFF_MAX_MS : Int := 5 * 60 * 1000

def computeRateLimitBackoffMs (consecutiveCount : Nat) : Int :=
  let n := max 1 consecutiveCount
  min (RATE_LIMIT_BACKOFF_BASE_MS * 2 ^ min (n - 1) 30) RATE_LIMIT_BACKOFF_MAX_MS

def MATURE_COOLDOWN_STREAK : Nat := 5
def PROBE_LEASE_MS : Int := 2 * 60 * 1000
def MAX_PROBE_GATES : Nat := 10000

structure RateLimitProbeLease where
  identity : Nat
  accountId : String
  leaseUntil : Int
  capacityGeneration : Option Nat
  deriving DecidableEq

inductive RateLimitProbeAdmission where
  | not_required
  | suppressed
  | admitted (lease : RateLimitProbeLease)
  deriving DecidableEq

structure CapacityProbeReservation where
  accountId : String
  generation : Nat
  cooldownUntil : Option Int
  deriving DecidableEq

structure Gates where
  probeLeases : InsertionMap String RateLimitProbeLease
  leaseIdentities : Nat
  capacityRestoredPending : String → List CapacityProbeReservation
  rolledBack : List CapacityProbeReservation
  capacityGenerationCounter : Nat

def Gates.empty : Gates := ⟨[],0,fun _ => [],[],0⟩

def Gates.reservation (g : Gates) (accountId : String) : Option CapacityProbeReservation :=
  (g.capacityRestoredPending accountId).head?

def Gates.setPending (g : Gates) (accountId : String) (slot : List CapacityProbeReservation) : Gates :=
  { g with capacityRestoredPending := fun id => if id = accountId then slot else g.capacityRestoredPending id }

def firstLiveReservation (rolledBack : List CapacityProbeReservation) (slot : List CapacityProbeReservation) :
    List CapacityProbeReservation := slot.dropWhile (fun node => decide (node ∈ rolledBack))

def markCapacityRestoredProbePending (g : Gates) (accountId : String) : Gates × CapacityProbeReservation :=
  let generation := g.capacityGenerationCounter + 1
  let reservation := ⟨accountId,generation,none⟩
  ({ g.setPending accountId (reservation::g.capacityRestoredPending accountId) with
      capacityGenerationCounter := generation },reservation)

-- Armed without a predecessor.
def armBurstRecoveryProbe (g : Gates) (accountId : String) (cooldownUntil : Int) : Gates :=
  let generation := g.capacityGenerationCounter + 1
  { g.setPending accountId [⟨accountId,generation,some cooldownUntil⟩] with capacityGenerationCounter := generation }

def rollbackCapacityRestoredProbePending (g : Gates) (reservation : CapacityProbeReservation) : Gates :=
  let g := { g with rolledBack := reservation::g.rolledBack }
  match g.capacityRestoredPending reservation.accountId with
  | [] => g
  | owner::previous =>
    if owner = reservation then g.setPending reservation.accountId (firstLiveReservation g.rolledBack previous)
    else g

def evictOldest : InsertionMap String RateLimitProbeLease → InsertionMap String RateLimitProbeLease
  | [] => []
  | oldest::rest => if MAX_PROBE_GATES ≤ (oldest::rest).length then evictOldest rest else oldest::rest

def pruneProbeLeases (probeLeases : InsertionMap String RateLimitProbeLease) (now : Int) :
    InsertionMap String RateLimitProbeLease :=
  evictOldest (probeLeases.filter (fun entry => ¬ entry.2.leaseUntil ≤ now))

structure ProbeGateInspection where
  gatingRequired : Bool
  capacityGeneration : Option Nat
  coolingDown : Bool

def inspectProbeGate (g : Gates) (account : Account) (now : Int) : ProbeGateInspection :=
  let expiredMatureCooldown := decide (account.consecutiveRateLimits ≥ MATURE_COOLDOWN_STREAK) &&
    account.rateLimitedUntil.any (fun deadline => deadline ≤ now)
  let reservation := g.reservation account.id
  let capacityGeneration := reservation.map (·.generation)
  { gatingRequired := expiredMatureCooldown || capacityGeneration.isSome ||
      (account.rateLimitedReason == some .org_permission_denied &&
        account.rateLimitedUntil.all (fun deadline => deadline = 0 ∨ deadline ≤ now))
    capacityGeneration := capacityGeneration
    coolingDown := decide (((reservation.bind (·.cooldownUntil)).getD 0) > now) }

def getRateLimitProbeAdmission (g : Gates) (account : Account) (now : Int) (reprobe : Bool) :
    Gates × RateLimitProbeAdmission :=
  let inspected := inspectProbeGate g account now
  if ¬ inspected.gatingRequired then (g,.not_required)
  else if inspected.coolingDown ∧ ¬ reprobe then (g,.suppressed)
  else
    let probeLeases := pruneProbeLeases g.probeLeases now
    let g := { g with probeLeases := probeLeases }
    if (get probeLeases account.id).any (fun existing => existing.leaseUntil > now) then (g,.suppressed)
    else
      let lease := ⟨g.leaseIdentities,account.id,now + PROBE_LEASE_MS,inspected.capacityGeneration⟩
      ({ g with
          probeLeases := set probeLeases account.id lease
          leaseIdentities := g.leaseIdentities + 1 },.admitted lease)

inductive ProbeOutcome where | recovered | cooldown_reapplied | abandoned deriving DecidableEq

def releaseProbeLease (g : Gates) (account : Account) (outcome : ProbeOutcome) (lease : RateLimitProbeLease) : Gates :=
  let g := { g with probeLeases := delete g.probeLeases account.id }
  if outcome = .recovered ∧ lease.capacityGeneration ≠ none ∧
      (g.reservation account.id).map (·.generation) = lease.capacityGeneration then
    g.setPending account.id []
  else g

def completeRateLimitProbe (g : Gates) (account : Account) (outcome : ProbeOutcome) (lease : Option RateLimitProbeLease) :
    Gates :=
  match lease with
  | none => g
  | some lease => if get g.probeLeases account.id = some lease then releaseProbeLease g account outcome lease else g

def wouldSuppressProbe (g : Gates) (account : Account) (now : Int) : Bool :=
  let inspected := inspectProbeGate g account now
  if ¬ inspected.gatingRequired then false
  else if inspected.coolingDown then true
  else (get g.probeLeases account.id).any (fun existing => existing.leaseUntil > now)

structure RateLimitInfo where
  resetTime : Option Int
  reason : Option RateLimitReason
  floorUntil : Option Int
  deriving DecidableEq

-- A number that is absent or zero is falsy.
def truthy (value : Option Int) : Option Int := value.filter (fun n => n ≠ 0)

inductive CooldownWrite where
  | markAccountRateLimited (id : String) (cooldownUntil : Int) (reason : RateLimitReason)
  | markAccountRateLimitedDeadlineOnly (id : String) (cooldownUntil : Int) (reason : RateLimitReason)

structure CooldownApplied where
  gates : Gates
  account : Account
  write : Option CooldownWrite

def armsBurstProbe (account : Account) (reason : RateLimitReason) : Bool :=
  reason == .model_fallback_429 && isOAuthAnthropicAccount account

def applyRateLimitCooldown (g : Gates) (account : Account) (info : RateLimitInfo) (now : Int) (reprobe : Bool)
    (probeLease : Option RateLimitProbeLease) : CooldownApplied :=
  if reprobe then
    match (truthy info.resetTime).filter (fun reset => reset > now) with
    | some reset => ⟨g,{ account with rateLimitedUntil := some reset },none⟩
    | none => ⟨g,account,none⟩
  else
    let g := completeRateLimitProbe g account .cooldown_reapplied probeLease
    match (truthy info.resetTime).filter (fun reset => reset > now ∧ truthy info.floorUntil = none) with
    | some reset =>
      -- The server said when to retry: the streak is left as it is.
      let reason := info.reason.getD .upstream_429_with_reset
      let account := { account with
        rateLimitedUntil := some reset
        rateLimitedAt := some now
        rateLimitedReason := some reason }
      ⟨if armsBurstProbe account reason then armBurstRecoveryProbe g account.id reset else g,account,
        some (.markAccountRateLimitedDeadlineOnly account.id reset reason)⟩
    | none =>
      let nextCount := account.consecutiveRateLimits + 1
      let candidateUntil := now + computeRateLimitBackoffMs nextCount
      let capped := match truthy info.resetTime with
        | some reset => min reset candidateUntil
        | none => candidateUntil
      let cooldownUntil := match truthy info.floorUntil with
        | some floor => if floor > capped then floor else capped
        | none => capped
      let reason := info.reason.getD
        (if (truthy info.resetTime).isSome then .upstream_429_with_reset else .upstream_429_no_reset_probe_cooldown)
      let account := { account with
        rateLimitedUntil := some cooldownUntil
        rateLimitedReason := some reason
        rateLimitedAt := some now
        consecutiveRateLimits := nextCount }
      ⟨if armsBurstProbe account reason then armBurstRecoveryProbe g account.id cooldownUntil else g,account,
        some (.markAccountRateLimited account.id cooldownUntil reason)⟩

inductive Call where
  | getRateLimitProbeAdmission (account : Account) (now : Int) (reprobe : Bool)
  | completeRateLimitProbe (account : Account) (outcome : ProbeOutcome) (lease : Option RateLimitProbeLease)
  | applyRateLimitCooldown (account : Account) (info : RateLimitInfo) (now : Int) (reprobe : Bool)
      (probeLease : Option RateLimitProbeLease)
  | markCapacityRestoredProbePending (accountId : String)
  | rollbackCapacityRestoredProbePending (reservation : CapacityProbeReservation)
  deriving DecidableEq

inductive Answer where
  | nothing
  | admission (answer : RateLimitProbeAdmission)
  | reservation (reservation : CapacityProbeReservation)
  deriving DecidableEq

structure Happened where
  call : Call
  answer : Answer
  deriving DecidableEq

def Gates.after (g : Gates) : Call → Gates × Answer
  | .getRateLimitProbeAdmission account now reprobe =>
    let (g,answer) := getRateLimitProbeAdmission g account now reprobe
    (g,.admission answer)
  | .completeRateLimitProbe account outcome lease => (completeRateLimitProbe g account outcome lease,.nothing)
  | .applyRateLimitCooldown account info now reprobe probeLease =>
    ((applyRateLimitCooldown g account info now reprobe probeLease).gates,.nothing)
  | .markCapacityRestoredProbePending accountId =>
    let (g,reservation) := markCapacityRestoredProbePending g accountId
    (g,.reservation reservation)
  | .rollbackCapacityRestoredProbePending reservation => (rollbackCapacityRestoredProbePending g reservation,.nothing)

def Call.accountId : Call → String
  | .getRateLimitProbeAdmission account _ _ => account.id
  | .completeRateLimitProbe account _ _ => account.id
  | .applyRateLimitCooldown account _ _ _ _ => account.id
  | .markCapacityRestoredProbePending accountId => accountId
  | .rollbackCapacityRestoredProbePending reservation => reservation.accountId

def Call.time : Call → Option Int
  | .getRateLimitProbeAdmission _ now _ => some now
  | .applyRateLimitCooldown _ _ now _ _ => some now
  | _ => none

def Call.lease : Call → Option RateLimitProbeLease
  | .completeRateLimitProbe _ _ lease => lease
  | .applyRateLimitCooldown _ _ _ _ probeLease => probeLease
  | _ => none

def Call.reservation : Call → Option CapacityProbeReservation
  | .rollbackCapacityRestoredProbePending reservation => some reservation
  | _ => none

structure World where
  gates : Gates
  clock : Int
  history : List Happened

def HandedOut (history : List Happened) (lease : RateLimitProbeLease) : Prop :=
  ∃ e ∈ history, e.answer = .admission (.admitted lease)

def Reserved (history : List Happened) (reservation : CapacityProbeReservation) : Prop :=
  ∃ e ∈ history, e.answer = .reservation reservation

def Call.Presentable (history : List Happened) (call : Call) : Prop :=
  (∀ lease ∈ call.lease, HandedOut history lease) ∧ ∀ reservation ∈ call.reservation, Reserved history reservation

instance (history : List Happened) (lease : RateLimitProbeLease) : Decidable (HandedOut history lease) :=
  inferInstanceAs (Decidable (∃ e ∈ history, _))

instance (history : List Happened) (reservation : CapacityProbeReservation) : Decidable (Reserved history reservation) :=
  inferInstanceAs (Decidable (∃ e ∈ history, _))

instance (history : List Happened) (call : Call) : Decidable (call.Presentable history) :=
  inferInstanceAs (Decidable (_ ∧ _))

def World.step (w : World) (call : Call) : Option World :=
  if (∀ now ∈ call.time, w.clock ≤ now) ∧ call.Presentable w.history then
    let (gates,answer) := w.gates.after call
    some ⟨gates,call.time.getD w.clock,⟨call,answer⟩::w.history⟩
  else none

def gateMachine : Machine World Call := ⟨fun w => w.gates = .empty ∧ w.history = [],World.step⟩

end Clankermux.RateLimitCooldown
