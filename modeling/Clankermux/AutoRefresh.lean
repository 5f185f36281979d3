import Clankermux.InsertionMap
import Clankermux.Machine

/-! The scheduler that primes accounts whose window has reset. A cycle runs without
interruption from one await to the next; between two of them any other writer may change the
rows of the accounts. What the token refreshes of a cycle write counts as other writers'. -/
namespace Clankermux.AutoRefreshScheduler
open InsertionMap

def FAILURE_THRESHOLD : Nat := 5
def WEEKLY_PRIME_COOLDOWN_MS : Int := 15 * 60 * 1000
def USAGE_CACHE_TTL_MS : Int := 10 * 60 * 1000
def FIVE_HOUR_PRIME_COOLDOWN_MS : Int := USAGE_CACHE_TTL_MS / 2

structure Row where
  provider : String
  refreshToken : String
  disabled : Bool
  autoRefreshEnabled : Bool
  rateLimitReset : Option Int
  rateLimitedUntil : Option Int
  rateLimitStatus : Option String
  rateLimitRemaining : Option Int
  paused : Bool
  pauseReason : Option String
  autoPauseOnOverageEnabled : Bool
  peakHoursPauseEnabled : Bool
  deriving DecidableEq

abbrev TaskId := Nat

inductive Reason where | fiveHour | weekly deriving DecidableEq

structure Response where
  ok : Bool
  status : Nat
  resetTime : Option Int
  statusHeader : Option String
  remaining : Option Int
  deriving DecidableEq

/-- What the coordinator says of a native prime; `onCredits` is read off the usage cache. -/
inductive SpendResult where
  | skipped
  | failed
  | completed (responseOk : Bool) (responseStatus : Nat) (earliestResetMs : Option Int) (onCredits : Bool)
  deriving DecidableEq

structure Prime where
  reason : Reason
  id : String
  row : Row
  deriving DecidableEq

structure Batch where
  accounts : List (String × Row)
  rest : List (String × Row)
  owned : List String
  deriving DecidableEq

/-- Where a prime is suspended. `started` numbers the step that dispatched it. -/
inductive Stage where
  | observing
  | codexResuming
  | rereading
  | reread (autoRefreshEnabled : Option Bool)
  | dispatching (attempt started : Nat) (response : Option Response)
  | clearing (started : Nat) (response : Response)
  | statusWriting (response : Response)
  | remainingWriting (response : Response)
  | resuming
  | usageReading
  | pausing
  deriving DecidableEq

inductive Frame where
  | cleanup
  | peakSelect (inPeak : Bool)
  | peakUpdate (inPeak : Bool) (rest : List String)
  | tokens
  | select
  | prime (batch : Batch) (p : Prime) (stage : Stage)
  deriving DecidableEq

structure Cycle where
  now : Int
  frame : Frame

inductive Happened where
  /-- A prime begins; `owned` tells whether the five-hour reason owns the account in this cycle. -/
  | primed (cycle : TaskId) (reason : Reason) (id : String) (now : Int) (owned : Bool)
  | dispatched (id : String) (autoRefreshEnabled : Option Bool)
  /-- The cooldown starts, or is lost with the tracking of the account. -/
  | attempted (id : String) (at_ : Int)
  | forgotten (id : String)
  | resumed (id : String) (selected before : Row)
  | peakResumed (id : String) (before : Row)
  | peakPaused (id : String) (before : Row)
  | thresholdPaused (id : String) (before : Row)
  /-- The lock is cleared; `locked` numbers the step that has written it last. -/
  | unlocked (id : String) (started : Nat) (locked : Option Nat)
  deriving DecidableEq

structure Scheduler where
  rows : InsertionMap String Row
  locks : InsertionMap String Nat
  providers : List String
  refreshMutex : Bool
  lastRefreshResetTime : InsertionMap String Int
  consecutiveFailures : InsertionMap String Nat
  lastWeeklyPrimeTime : InsertionMap String Int
  lastFiveHourPrimeTime : InsertionMap String Int
  cycles : InsertionMap TaskId Cycle
  nextTask : TaskId
  steps : Nat
  trace : List Happened

inductive Answer where
  | done
  | threw
  /-- The tracking is cleaned up, or could not be; then the peak hours are looked at. -/
  | cleaned (inPeak : Bool)
  | uncleaned (inPeak : Bool)
  | observed (result : SpendResult)
  | responded (response : Response)
  deriving DecidableEq

inductive Action where
  | checkAndRefresh
  | proceed (task : TaskId) (answer : Answer)
  /-- Another writer inserts, changes or deletes a row, apart from its lock. -/
  | write (id : String) (row : Option Row)
  | lock (id : String) (rateLimitedUntil : Option Int)

/-- Each step reads the clock once; `dormant` is what the usage cache says of the weekly windows then. -/
structure Event where
  now : Int
  dormant : String → Bool
  action : Action

namespace Scheduler

def record (s : Scheduler) (h : Happened) : Scheduler := { s with trace := h::s.trace }

def suspend (s : Scheduler) (task : TaskId) (now : Int) (frame : Frame) : Scheduler :=
  { s with cycles := set s.cycles task ⟨now,frame⟩ }

def update (s : Scheduler) (id : String) (change : Row → Row) (note : Row → Happened) : Scheduler :=
  match get s.rows id with
  | some row => { s with rows := set s.rows id (change row) }.record (note row)
  | none => s

def rewrite (s : Scheduler) (id : String) (change : Row → Row) : Scheduler :=
  match get s.rows id with
  | some row => { s with rows := set s.rows id (change row) }
  | none => s

def finished (s : Scheduler) (task : TaskId) : Scheduler :=
  { s with cycles := delete s.cycles task,refreshMutex := false }

end Scheduler

-- Zero counts as no time.
def truthy (time : Option Int) : Option Int := time.filter (· ≠ 0)

def bindingWindowResetElapsed (row : Row) (now : Int) : Bool := row.rateLimitReset.all (· ≤ now)

def shouldRefreshAccount (s : Scheduler) (dateNow : Int) (id : String) (row : Row) (now : Int) : Bool :=
  match truthy (get s.lastRefreshResetTime id) with
  | none => true
  | some lastResetTime =>
    match truthy row.rateLimitReset with
    | none => false
    | some reset => reset ≤ now || reset > lastResetTime || reset < dateNow - 24 * 60 * 60 * 1000

def fiveHourDue (s : Scheduler) (dateNow : Int) (id : String) (row : Row) (now : Int) : Bool :=
  bindingWindowResetElapsed row now && shouldRefreshAccount s dateNow id row now

def isFiveHourPrimeCoolingDown (s : Scheduler) (id : String) (now : Int) : Bool :=
  (get s.lastFiveHourPrimeTime id).any fun lastPrime => now - lastPrime < FIVE_HOUR_PRIME_COOLDOWN_MS

def lastWeekly (s : Scheduler) (id : String) : Int := (get s.lastWeeklyPrimeTime id).getD 0

def weeklyEligible (s : Scheduler) (dormant : String → Bool) (owned : List String) (now : Int) (account : String × Row) : Bool :=
  !owned.contains account.1 && account.2.provider == "anthropic" && account.2.refreshToken ≠ "" && dormant account.1 &&
    now - lastWeekly s account.1 ≥ WEEKLY_PRIME_COOLDOWN_MS

def weeklyBefore (s : Scheduler) (a b : String × Row) : Bool :=
  if lastWeekly s a.1 ≠ lastWeekly s b.1 then lastWeekly s a.1 < lastWeekly s b.1 else a.1 ≤ b.1

def selectWeeklyPrimeCandidate (s : Scheduler) (dormant : String → Bool) (accounts : List (String × Row)) (owned : List String)
    (now : Int) : Option (String × Row) :=
  ((accounts.filter (weeklyEligible s dormant owned now)).mergeSort (weeklyBefore s)).head?

def overagePaused (row : Row) : Bool :=
  row.autoPauseOnOverageEnabled && row.paused &&
    (row.pauseReason == none || row.pauseReason == some "" || row.pauseReason == some "overage")

def selected (now : Int) (row : Row) : Bool :=
  !row.disabled && row.autoRefreshEnabled && ["anthropic","codex","zai"].contains row.provider &&
    row.rateLimitedUntil.all (· ≤ now) &&
    (!row.paused || row.autoPauseOnOverageEnabled && (row.pauseReason == none || row.pauseReason == some "overage"))

def startPrime (s : Scheduler) (task : TaskId) (now : Int) (batch : Batch) (p : Prime) : Scheduler :=
  (s.record (.primed task p.reason p.id now (batch.owned.contains p.id))).suspend task now
    (.prime batch p (if p.row.provider = "codex" then .observing else .rereading))

def primeWeekly (s : Scheduler) (dormant : String → Bool) (task : TaskId) (now : Int) (batch : Batch) : Scheduler :=
  match selectWeeklyPrimeCandidate s dormant batch.accounts batch.owned now with
  | some account => startPrime s task now batch ⟨.weekly,account.1,account.2⟩
  | none => s.finished task

def primeNext (s : Scheduler) (dormant : String → Bool) (task : TaskId) (now : Int) (batch : Batch) : Scheduler :=
  match batch.rest with
  | account::rest => startPrime s task now { batch with rest } ⟨.fiveHour,account.1,account.2⟩
  | [] => primeWeekly s dormant task now batch

def bookPrime (s : Scheduler) (dateNow : Int) (p : Prime) (attempted : Bool) : Scheduler :=
  match p.reason with
  | .fiveHour =>
    if attempted then
      { s with lastFiveHourPrimeTime := set s.lastFiveHourPrimeTime p.id dateNow }.record (.attempted p.id dateNow)
    else s
  | .weekly => { s with lastWeeklyPrimeTime := set s.lastWeeklyPrimeTime p.id dateNow }

def finishPrime (s : Scheduler) (dateNow : Int) (dormant : String → Bool) (task : TaskId) (now : Int) (batch : Batch) (p : Prime)
    (attempted : Bool) : Scheduler :=
  let s := bookPrime s dateNow p attempted
  match p.reason with
  | .fiveHour => primeNext s dormant task now batch
  | .weekly => s.finished task

def abandonPrime (s : Scheduler) (dateNow : Int) (task : TaskId) (p : Prime) : Scheduler :=
  (bookPrime s dateNow p true).finished task

def recordRefreshFailure (s : Scheduler) (dateNow : Int) (dormant : String → Bool) (task : TaskId) (now : Int) (batch : Batch)
    (p : Prime) : Scheduler :=
  let newFailures := (get s.consecutiveFailures p.id).getD 0 + 1
  let s := { s with consecutiveFailures := set s.consecutiveFailures p.id newFailures }
  if newFailures ≥ FAILURE_THRESHOLD then s.suspend task now (.prime batch p .pausing)
  else finishPrime s dateNow dormant task now batch p true

def pauseAtThreshold (s : Scheduler) (id : String) : Scheduler :=
  let s := if (get s.rows id).any (fun row => !row.paused) then
      s.update id (fun row => { row with paused := true,pauseReason := some "failure_threshold" }) (.thresholdPaused id)
    else s
  { s with consecutiveFailures := delete s.consecutiveFailures id }

def resumeRow (s : Scheduler) (p : Prime) : Scheduler :=
  s.update p.id (fun row => { row with paused := false,pauseReason := none }) (.resumed p.id p.row)

section Stages
variable (s : Scheduler) (dateNow : Int) (dormant : String → Bool) (task : TaskId) (now : Int) (batch : Batch) (p : Prime)

def succeed : Scheduler :=
  finishPrime { s with consecutiveFailures := delete s.consecutiveFailures p.id } dateNow dormant task now batch p true

def handleCodexPrimeOutcome : SpendResult → Scheduler
  | .skipped => finishPrime s dateNow dormant task now batch p false
  | .failed => recordRefreshFailure s dateNow dormant task now batch p
  | .completed responseOk responseStatus earliestResetMs onCredits =>
    if !responseOk then
      if responseStatus = 429 ∨ responseStatus = 529 then finishPrime s dateNow dormant task now batch p true
      else recordRefreshFailure s dateNow dormant task now batch p
    else
      let s := match earliestResetMs with
        | some reset => { s with lastRefreshResetTime := set s.lastRefreshResetTime p.id reset }
        | none => s
      let s := { s with consecutiveFailures := delete s.consecutiveFailures p.id }
      if overagePaused p.row && !onCredits then s.suspend task now (.prime batch p .codexResuming)
      else finishPrime s dateNow dormant task now batch p true

def concludeDispatch (started : Nat) : Option Response → Scheduler
  | none => recordRefreshFailure s dateNow dormant task now batch p
  | some response =>
    if response.ok then s.suspend task now (.prime batch p (.clearing started response))
    else if response.status = 529 then finishPrime s dateNow dormant task now batch p true
    else recordRefreshFailure s dateNow dormant task now batch p

def tryNextModel (attempt started : Nat) (response : Option Response) : Scheduler :=
  if attempt + 1 < 3 then s.suspend task now (.prime batch p (.dispatching (attempt + 1) started response))
  else concludeDispatch s dateNow dormant task now batch p started response

def afterResume : Scheduler :=
  if p.row.provider = "anthropic" then s.suspend task now (.prime batch p .usageReading)
  else succeed s dateNow dormant task now batch p

def afterRemaining : Scheduler :=
  if overagePaused p.row then s.suspend task now (.prime batch p .resuming)
  else afterResume s dateNow dormant task now batch p

def afterStatus (response : Response) : Scheduler :=
  if response.remaining.isSome then s.suspend task now (.prime batch p (.remainingWriting response))
  else afterRemaining s dateNow dormant task now batch p

def afterClear (response : Response) : Scheduler :=
  if (response.statusHeader.filter (· ≠ "")).isSome then s.suspend task now (.prime batch p (.statusWriting response))
  else afterStatus s dateNow dormant task now batch p response

def clearLock (started : Nat) (response : Response) : Scheduler :=
  let cleared := s.update p.id
    (fun row => { row with rateLimitReset := (truthy response.resetTime).or row.rateLimitReset,rateLimitedUntil := none })
    (fun _ => .unlocked p.id started (get s.locks p.id))
  let known := (truthy response.resetTime).getD (p.row.rateLimitReset.getD dateNow)
  { cleared with lastRefreshResetTime := set s.lastRefreshResetTime p.id known }

def advancePrime : Stage → Answer → Option Scheduler
  | .observing,.observed result => some (handleCodexPrimeOutcome s dateNow dormant task now batch p result)
  | .observing,.threw => some (abandonPrime s dateNow task p)
  | .codexResuming,.done => some (finishPrime (resumeRow s p) dateNow dormant task now batch p true)
  | .codexResuming,.threw => some (abandonPrime s dateNow task p)
  | .rereading,.done =>
    some (s.suspend task now (.prime batch p
      (.reread (((get s.rows p.id).filter (fun row => !row.disabled)).map (·.autoRefreshEnabled)))))
  | .reread flag,.done =>
    if flag ≠ some true then some (finishPrime s dateNow dormant task now batch p true)
    else if p.row.provider ∉ s.providers then some (finishPrime s dateNow dormant task now batch p true)
    else some ((s.record (.dispatched p.id flag)).suspend task now (.prime batch p (.dispatching 0 s.steps none)))
  | .dispatching attempt started _,.responded next =>
    if next.ok || next.status ≠ 404 then some (concludeDispatch s dateNow dormant task now batch p started (some next))
    else some (tryNextModel s dateNow dormant task now batch p attempt started (some next))
  | .dispatching attempt started response,.threw => some (tryNextModel s dateNow dormant task now batch p attempt started response)
  | .clearing started response,.done =>
    some (afterClear (clearLock s dateNow p started response) dateNow dormant task now batch p response)
  | .statusWriting response,.done =>
    some (afterStatus (s.rewrite p.id (fun row => { row with rateLimitStatus := response.statusHeader })) dateNow dormant task now batch p
      response)
  | .remainingWriting response,.done =>
    some (afterRemaining (s.rewrite p.id (fun row => { row with rateLimitRemaining := response.remaining })) dateNow dormant task now
      batch p)
  | .resuming,.done => some (afterResume (resumeRow s p) dateNow dormant task now batch p)
  | .usageReading,.done => some (succeed s dateNow dormant task now batch p)
  | .pausing,.done => some (finishPrime (pauseAtThreshold s p.id) dateNow dormant task now batch p true)
  | .pausing,.threw => some (finishPrime s dateNow dormant task now batch p true)
  -- Any other exception of a translated prime counts as a failure.
  | .rereading,.threw => some (recordRefreshFailure s dateNow dormant task now batch p)
  | .clearing _ _,.threw => some (recordRefreshFailure s dateNow dormant task now batch p)
  | .statusWriting _,.threw => some (recordRefreshFailure s dateNow dormant task now batch p)
  | .remainingWriting _,.threw => some (recordRefreshFailure s dateNow dormant task now batch p)
  | .resuming,.threw => some (recordRefreshFailure s dateNow dormant task now batch p)
  | .usageReading,.threw => some (recordRefreshFailure s dateNow dormant task now batch p)
  | _,_ => none

end Stages

def tracked (s : Scheduler) (id : String) : Bool :=
  (get s.rows id).any fun row => !row.disabled && row.autoRefreshEnabled && ["anthropic","codex","zai"].contains row.provider

def cleanupTracking (s : Scheduler) : Scheduler :=
  { s with
    lastRefreshResetTime := s.lastRefreshResetTime.filter (tracked s ·.1)
    consecutiveFailures := s.consecutiveFailures.filter (tracked s ·.1)
    lastWeeklyPrimeTime := s.lastWeeklyPrimeTime.filter (tracked s ·.1)
    lastFiveHourPrimeTime := s.lastFiveHourPrimeTime.filter (tracked s ·.1)
    trace := (((keys s.lastFiveHourPrimeTime).filter (!tracked s ·)).map .forgotten).reverse ++ s.trace }

def peakActs (inPeak : Bool) (row : Row) : Bool :=
  !row.disabled && row.provider == "zai" && row.peakHoursPauseEnabled &&
    (if inPeak then !row.paused else row.paused && row.pauseReason == some "peak_hours")

def peakUpdate (s : Scheduler) (inPeak : Bool) (id : String) : Scheduler :=
  if inPeak then
    if (get s.rows id).any (fun row => !row.paused) then
      s.update id (fun row => { row with paused := true,pauseReason := some "peak_hours" }) (.peakPaused id)
    else s
  else if (get s.rows id).any (fun row => row.pauseReason == some "peak_hours") then
    s.update id (fun row => { row with paused := false,pauseReason := none }) (.peakResumed id)
  else s

def peakNext (s : Scheduler) (task : TaskId) (now : Int) (inPeak : Bool) : List String → Scheduler
  | [] => s.suspend task now .tokens
  | id::rest => s.suspend task now (.peakUpdate inPeak (id::rest))

def selectBatch (s : Scheduler) (dateNow now : Int) : Batch :=
  let accounts := s.rows.filter fun entry => selected now entry.2
  let fiveHourOwned := accounts.filter fun entry => fiveHourDue s dateNow entry.1 entry.2 now
  { accounts
    rest := fiveHourOwned.filter fun entry => !isFiveHourPrimeCoolingDown s entry.1 now
    owned := fiveHourOwned.map Prod.fst }

def advance (s : Scheduler) (dateNow : Int) (dormant : String → Bool) (task : TaskId) (now : Int) : Frame → Answer → Option Scheduler
  | .cleanup,.cleaned inPeak => some ((cleanupTracking s).suspend task now (.peakSelect inPeak))
  | .cleanup,.uncleaned inPeak => some (s.suspend task now (.peakSelect inPeak))
  | .peakSelect inPeak,.done => some (peakNext s task now inPeak (keys (s.rows.filter fun entry => peakActs inPeak entry.2)))
  | .peakUpdate inPeak (id::rest),.done => some (peakNext (peakUpdate s inPeak id) task now inPeak rest)
  | .tokens,.done => some (s.suspend task now .select)
  | .select,.done =>
    let batch := selectBatch s dateNow now
    some (if batch.accounts = [] then s.finished task else primeNext s dormant task now batch)
  | .prime batch p stage,answer => advancePrime s dateNow dormant task now batch p stage answer
  | .peakSelect _,.threw => some (s.finished task)
  | .peakUpdate _ _,.threw => some (s.finished task)
  | .tokens,.threw => some (s.finished task)
  | .select,.threw => some (s.finished task)
  | _,_ => none

def checkAndRefresh (s : Scheduler) (now : Int) : Scheduler :=
  if s.refreshMutex then s
  else { s with refreshMutex := true,nextTask := s.nextTask + 1 }.suspend s.nextTask now .cleanup

def writeRow (s : Scheduler) (id : String) : Option Row → Scheduler
  | none => { s with rows := delete s.rows id }
  | some row =>
    let lock := (get s.rows id).bind (·.rateLimitedUntil)
    { s with rows := set s.rows id { row with rateLimitedUntil := lock } }

def lockRow (s : Scheduler) (id : String) (rateLimitedUntil : Option Int) : Scheduler :=
  { s.rewrite id (fun row => { row with rateLimitedUntil }) with locks := set s.locks id s.steps }

def act (s : Scheduler) (e : Event) : Option Scheduler :=
  match e.action with
  | .checkAndRefresh => some (checkAndRefresh s e.now)
  | .proceed task answer => (get s.cycles task).bind fun cycle => advance s e.now e.dormant task cycle.now cycle.frame answer
  | .write id row => some (writeRow s id row)
  | .lock id rateLimitedUntil => some (lockRow s id rateLimitedUntil)

def step (s : Scheduler) (e : Event) : Option Scheduler := (act s e).map fun after => { after with steps := s.steps + 1 }

def Scheduler.start (providers : List String) : Scheduler :=
  { rows := [],locks := [],providers,refreshMutex := false,lastRefreshResetTime := [],consecutiveFailures := []
    lastWeeklyPrimeTime := [],lastFiveHourPrimeTime := [],cycles := [],nextTask := 0,steps := 0,trace := [] }

def machine : Machine Scheduler Event where
  init s := ∃ providers, s = .start providers
  step := step

end Clankermux.AutoRefreshScheduler
