import Clankermux.BankedResetApplier
import Clankermux.ProbeGate
import Clankermux.SessionStrategy

/-! The rate-limit lock of one account: the row, the writes to it that are under way, and the calls that bring them about.
A call decides on a snapshot of the row that may be of any age. What is logged, and the columns that only responses
write, are left out. -/
namespace Clankermux.RateLimitLock
open RateLimitCooldown BankedReset
open LoadBalancer (present isSelfHealingPauseReason supportsWindowResetUnpause)

structure Row where
  consecutiveRateLimits : Nat
  rateLimitedUntil : Option Int
  rateLimitedReason : Option RateLimitReason
  rateLimitedAt : Option Int
  rateLimitReset : Option Int
  paused : Bool

structure Account extends Row where
  provider : String
  autoFallbackEnabled : Bool
  pauseReason : Option String

structure ObservedWindow where
  resetMs : Int
  utilization : Option Rat

structure CapacityRestoredEvidence where
  fetchStartedAt : Int
  observedWindows : List ObservedWindow

structure Claim where
  cleared : List AnthropicBankedResetWindow
  claimStartedAt : Int

inductive Write where
  | setRateLimited (until_ : Int) (reason : RateLimitReason) (now : Int)
  | setRateLimitedDeadlineOnly (until_ : Int) (reason : RateLimitReason) (now : Int)
  | resetConsecutiveRateLimits (notAfterMs : Int)
  | clearOnSuccess (clearBoundMs : Int)
  | stampObservedRateLimitReset (expectedReset observedAt : Int)

def Row.apply (row : Row) : Write → Row
  | .setRateLimited until_ reason now => { row with
      consecutiveRateLimits := row.consecutiveRateLimits + 1
      rateLimitedUntil := some until_
      rateLimitedReason := some reason
      rateLimitedAt := some now }
  | .setRateLimitedDeadlineOnly until_ reason now => { row with
      rateLimitedUntil := some until_
      rateLimitedReason := some reason
      rateLimitedAt := some now }
  | .resetConsecutiveRateLimits notAfterMs =>
    if row.rateLimitedAt.all (· < notAfterMs) then { row with
      consecutiveRateLimits := 0
      rateLimitedAt := none }
    else row
  | .clearOnSuccess clearBoundMs =>
    if (row.rateLimitedUntil.isSome || row.rateLimitedReason.isSome) && row.rateLimitedAt.all (· < clearBoundMs) then { row with
      rateLimitedUntil := none
      rateLimitedReason := none }
    else row
  | .stampObservedRateLimitReset expectedReset observedAt =>
    if row.rateLimitReset = some expectedReset ∧ observedAt < expectedReset ∧ row.paused then { row with rateLimitReset := some observedAt }
    else row

inductive Evidence where
  | success (startedAt : Int)
  | usageRead (fetchStartedAt : Int)
  | claim (cleared : List AnthropicBankedResetWindow) (claimStartedAt : Int)

def Evidence.startedAt : Evidence → Int
  | .success startedAt => startedAt
  | .usageRead fetchStartedAt => fetchStartedAt
  | .claim _ claimStartedAt => claimStartedAt

structure Restore where
  expectedUntil : Int
  expectedAt : Int
  expectedReason : RateLimitReason
  evidence : Evidence
  reservation : CapacityProbeReservation
  later : List Write

def Row.clearRateLimitOnCapacityRestore (row : Row) (r : Restore) : Option Row :=
  if row.rateLimitedUntil = some r.expectedUntil ∧ row.rateLimitedAt = some r.expectedAt ∧ row.rateLimitedReason = some r.expectedReason ∧
      r.expectedAt < r.evidence.startedAt then
    some { row with
      rateLimitedUntil := none
      rateLimitedReason := none
      rateLimitedAt := none
      consecutiveRateLimits := 0 }
  else none

def RATE_LIMIT_RESET_STABILITY_MS : Int := 5 * 60 * 1000

def applySuccessRateLimitClear (account : Account) (clearBoundMs now : Int) : Account × List Write :=
  if account.rateLimitedAt.any (clearBoundMs ≤ ·) then (account,[])
  else
    let stable := (present account.rateLimitedAt).any (fun at_ => RATE_LIMIT_RESET_STABILITY_MS < now - at_)
    let reset : Account × List Write :=
      if stable then ({ account with consecutiveRateLimits := 0,rateLimitedAt := none },[.resetConsecutiveRateLimits clearBoundMs])
      else (account,[])
    if (present account.rateLimitedUntil).isNone && account.rateLimitedReason.isNone then reset
    else ({ reset.1 with rateLimitedUntil := none,rateLimitedReason := none },reset.2 ++ [.clearOnSuccess clearBoundMs])

def RESET_MATCH_TOLERANCE_MS : Int := 1000

def isStaleRecordedReset (recordedReset : Int) (observedWindows : List ObservedWindow) : Bool :=
  !observedWindows.any (fun w => decide (|w.resetMs - recordedReset| ≤ RESET_MATCH_TOLERANCE_MS) && w.utilization.all (100 ≤ ·))

def stampStaleResetIfStranded (acc : Account) (evidence : CapacityRestoredEvidence) : List Write :=
  let reset := acc.rateLimitReset.getD 0
  if acc.paused && acc.autoFallbackEnabled && supportsWindowResetUnpause acc.provider && isSelfHealingPauseReason acc.pauseReason &&
      decide (evidence.fetchStartedAt < reset) && isStaleRecordedReset reset evidence.observedWindows then
    [.stampObservedRateLimitReset reset evidence.fetchStartedAt]
  else []

def releaseQuotaLockPredating (id : String) (g : Gates) (acc : Account) (until_ : Int) (reason : RateLimitReason) (evidence : Evidence)
    (later : List Write) : Gates × Option Restore :=
  match acc.rateLimitedAt with
  | none => (g,none)
  | some at_ =>
    if evidence.startedAt ≤ at_ then (g,none)
    else
      let marked := markCapacityRestoredProbePending g id
      (marked.1,some ⟨until_,at_,reason,evidence,marked.2,later⟩)

def activeLock (acc : Account) (now : Int) : Option Int := (present acc.rateLimitedUntil).filter (now < ·)

def clearRateLimitOnCapacityRestored (id : String) (g : Gates) (acc : Option Account) (evidence : CapacityRestoredEvidence) (now : Int) :
    List Write × Gates × Option Restore :=
  match acc with
  | none => ([],g,none)
  | some acc =>
    match activeLock acc now,acc.rateLimitedReason with
    | none,_ => (stampStaleResetIfStranded acc evidence,g,none)
    | some until_,some reason =>
      if isQuotaDerivedRateLimitReason (some reason) then
        ([],releaseQuotaLockPredating id g acc until_ reason (.usageRead evidence.fetchStartedAt) (stampStaleResetIfStranded acc evidence))
      else ([],g,none)
    | some _,none => ([],g,none)

def BANKED_RESET_WINDOWS_BY_REASON : RateLimitReason → List AnthropicBankedResetWindow
  | .weekly_exhausted_429 => [.sevenDay,.sevenDayOverageIncluded]
  | .session_exhausted_429 => [.fiveHour]
  | _ => []

def clearRateLimitOnBankedReset (id : String) (g : Gates) (acc : Option Account) (claim : Claim) (now : Int) : Gates × Option Restore :=
  match acc with
  | none => (g,none)
  | some acc =>
    match activeLock acc now,acc.rateLimitedReason with
    | some until_,some reason =>
      if isQuotaDerivedRateLimitReason (some reason) && (BANKED_RESET_WINDOWS_BY_REASON reason).any (fun w => decide (w ∈ claim.cleared)) then
        releaseQuotaLockPredating id g acc until_ reason (.claim claim.cleared claim.claimStartedAt) []
      else (g,none)
    | _,_ => (g,none)

/-! Runs. The writes under way reach the row one at a time, in any order, or throw. Beside the row it is kept when the lock in
place was written, and what has been processed. -/

inductive Job where
  | write (write : Write)
  | restore (restore : Restore)

structure State where
  row : Row
  jobs : List Job
  gates : Gates
  locked : Option Int
  processed : List Evidence

inductive Event where
  | limit (until_ : Int) (reason : RateLimitReason) (now : Int) (deadlineOnly : Bool)
  | success (account : Account) (clearBoundMs now : Int)
  | capacityRestored (acc : Option Account) (evidence : CapacityRestoredEvidence) (now : Int)
  | bankedReset (acc : Option Account) (claim : Claim) (now : Int)
  | execute (place : Nat)
  | throw (place : Nat)

def Write.locks : Write → Option Int
  | .setRateLimited _ _ now => some now
  | .setRateLimitedDeadlineOnly _ _ now => some now
  | _ => none

def State.execute (s : State) : Job → State
  | .write write => { s with
      row := s.row.apply write
      locked := write.locks.or s.locked }
  | .restore r =>
    match s.row.clearRateLimitOnCapacityRestore r with
    | some row => { s with
        row := row
        jobs := s.jobs ++ r.later.map .write }
    | none => { s with gates := rollbackCapacityRestoredProbePending s.gates r.reservation }

def State.throw (s : State) : Job → State
  | .write _ => s
  | .restore r => { s with gates := rollbackCapacityRestoredProbePending s.gates r.reservation }

def State.take (s : State) (place : Nat) : Option (Job × State) :=
  match s.jobs.drop place with
  | [] => none
  | job::after => some (job,{ s with jobs := s.jobs.take place ++ after })

def State.processes (s : State) (evidence : Evidence) (writes : List Write) (released : Gates × Option Restore) : State :=
  { s with
    gates := released.1
    jobs := s.jobs ++ (writes.map .write ++ (released.2.map Job.restore).toList)
    processed := evidence::s.processed }

def State.step (id : String) (s : State) : Event → Option State
  | .limit until_ reason now deadlineOnly => some { s with
      jobs := s.jobs ++ [.write (if deadlineOnly then .setRateLimitedDeadlineOnly until_ reason now else .setRateLimited until_ reason now)] }
  | .success account clearBoundMs now =>
    some (s.processes (.success clearBoundMs) (applySuccessRateLimitClear account clearBoundMs now).2 (s.gates,none))
  | .capacityRestored acc evidence now =>
    let called := clearRateLimitOnCapacityRestored id s.gates acc evidence now
    some (s.processes (.usageRead evidence.fetchStartedAt) called.1 called.2)
  | .bankedReset acc claim now =>
    some (s.processes (.claim claim.cleared claim.claimStartedAt) [] (clearRateLimitOnBankedReset id s.gates acc claim now))
  | .execute place => (s.take place).map (fun taken => taken.2.execute taken.1)
  | .throw place => (s.take place).map (fun taken => taken.2.throw taken.1)

def lockMachine (id : String) : Machine State Event where
  init s := s.jobs = [] ∧ s.gates = .empty ∧ s.locked = s.row.rateLimitedAt ∧ (s.row.rateLimitedUntil.isSome → s.row.rateLimitedAt.isSome)
  step := State.step id

end Clankermux.RateLimitLock
