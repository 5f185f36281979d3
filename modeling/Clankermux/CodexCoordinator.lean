import Clankermux.InsertionMap
import Clankermux.Machine

/-! The coordinator of Codex usage acquisition: native-ping spends, free usage reads
and reset-credit redemptions of any number of accounts. Each call is a task that
runs without interruption from one await to the next; what it awaits is answered by
the environment in any order. What the applicators do beyond the usage cache, the
request data sent along, the subscription capture and the log are left out. -/
namespace Clankermux.CodexSpendCoordinator
open InsertionMap

def PAUSE_REASON_NEEDS_REAUTH : String := "oauth_invalid_grant"

structure Account where
  name : String
  provider : String
  disabled : Bool
  accessToken : Option String
  refreshToken : Option String
  autoRefreshEnabled : Bool
  paused : Bool
  pauseReason : Option String

def needsReauth (account : Account) : Bool :=
  account.paused && account.pauseReason == some PAUSE_REASON_NEEDS_REAUTH

-- The empty string counts as no token.
def hasTokens (account : Account) : Bool :=
  account.accessToken.any (· ≠ "") || account.refreshToken.any (· ≠ "")

inductive CodexSpendCause where | scheduledPrime | manualRefresh deriving DecidableEq

structure Usage where
  fiveHour : String
  sevenDay : String
  deriving DecidableEq

structure PingResponse where
  ok : Bool
  status : Nat
  isRateLimited : Bool
  usage : Option Usage

structure UsageStatus where
  ok : Bool
  status : Option Nat
  usage : Option Usage
  allowed : Option Bool
  limitReached : Option Bool

inductive ConsumeOutcome where | reset | nothingToReset | noCredit | alreadyRedeemed deriving DecidableEq

structure Observation where
  usage : Option Usage
  isRateLimited : Bool
  responseStatus : Nat
  deriving DecidableEq

inductive SpendResult where
  | completed (responseOk : Bool) (responseStatus : Nat) (accountName : String) (observation : Observation)
  | skipped (reason : String)
  | failed (message : String)
  deriving DecidableEq

structure ReadResult where
  success : Bool
  message : String
  deriving DecidableEq

inductive ConsumeResult where
  | completed (accountName : String) (outcome : ConsumeOutcome)
  | failed (message : String)
  deriving DecidableEq

abbrev TaskId := Nat

structure InflightSpend where
  causes : List CodexSpendCause
  promise : TaskId

structure UsageRead where
  account : Account
  accessToken : String
  tokenGenerations : List (Option String)
  reauthPaused : Bool
  applicationSeq : Nat
  writtenAtBefore : Option Int
  issuedAtMs : Int
  refreshFailureReason : Option String

inductive Frame where
  | observeRow (accountId : String) (cause : CodexSpendCause)
  | spendToken (accountId : String) (account : Account)
  | spendGate (accountId : String) (account : Account) (accessToken : String)
  | spendPing (accountId : String) (account : Account) (applicationSeq : Nat) (issuedAtMs : Int)
  | spendSettled (accountId : String)
  | readRow (accountId : String)
  | readToken (accountId : String) (account : Account)
  | readStatus (accountId : String) (read : UsageRead)
  | readRotation (accountId : String) (read : UsageRead) (rejected : UsageStatus)
  | readRetry (accountId : String) (read : UsageRead)
  | readRecheck (accountId : String) (read : UsageRead) (status : UsageStatus)
  | readSubscription (accountId : String) (result : ReadResult)
  | readSettled (accountId : String)
  | consumeRow (accountId : String)
  | consumeToken (accountId : String) (account : Account)
  | consumeMetadata (accountId : String) (account : Account) (metadataRead : Nat)
  | consumeCall (accountId : String) (account : Account)
  | consumeLedger (result : ConsumeResult)
  | consumeCleanup (result : ConsumeResult)

inductive Result where
  | spend (result : SpendResult)
  | read (result : ReadResult)
  | consume (result : ConsumeResult)
  deriving DecidableEq

inductive Happened where
  | issued (accountId : String) (seq : Nat)
  | claimed (accountId : String) (seq : Nat)
  | redeemed (accountId : String) (seq : Nat)
  | applied (accountId : String) (seq : Nat)
  | joined (caller promise : TaskId)
  | finished (task : TaskId) (result : Result)
  deriving DecidableEq

structure Coordinator where
  inflight : InsertionMap String InflightSpend
  readInflight : InsertionMap String TaskId
  resetCreditsInflight : InsertionMap String Nat
  applicationSeqCounter : InsertionMap String Nat
  lastAppliedSeq : InsertionMap String Nat
  usageCache : InsertionMap String Int
  codexRegistered : Bool
  tasks : InsertionMap TaskId Frame
  nextTask : TaskId
  trace : List Happened

namespace Coordinator

def await (c : Coordinator) (task : TaskId) (frame : Frame) : Coordinator := { c with tasks := set c.tasks task frame }

def record (c : Coordinator) (h : Happened) : Coordinator := { c with trace := h::c.trace }

def finish (c : Coordinator) (task : TaskId) (result : Result) : Coordinator :=
  { c with tasks := delete c.tasks task }.record (.finished task result)

def settleSpend (c : Coordinator) (task : TaskId) (accountId : String) (result : SpendResult) : Coordinator :=
  (c.await task (.spendSettled accountId)).record (.finished task (.spend result))

def settleRead (c : Coordinator) (task : TaskId) (accountId : String) (result : ReadResult) : Coordinator :=
  (c.await task (.readSettled accountId)).record (.finished task (.read result))

def usageCacheWrittenAt (c : Coordinator) (accountId : String) : Option Int := get c.usageCache accountId

end Coordinator

-- A missing entry stands for minus infinity and never reads as advanced.
def advanced (before after : Option Int) : Bool :=
  match before,after with
  | _,none => false
  | none,some _ => true
  | some b,some a => a > b

def sequenceCounter (c : Coordinator) (accountId : String) : Nat := (get c.applicationSeqCounter accountId).getD 0
def lastApplied (c : Coordinator) (accountId : String) : Nat := (get c.lastAppliedSeq accountId).getD 0

def reserveApplicationSeq (c : Coordinator) (accountId : String) : Coordinator × Nat :=
  let next := sequenceCounter c accountId + 1
  ({ c with applicationSeqCounter := set c.applicationSeqCounter accountId next },next)

/-- `none` where a later issue has been applied or claimed already. -/
def claimApplication (c : Coordinator) (accountId : String) (seq : Nat) : Option Coordinator :=
  if seq ≤ lastApplied c accountId then none
  else some { c with lastAppliedSeq := set c.lastAppliedSeq accountId seq,trace := .claimed accountId seq::c.trace }

def writeUsage (c : Coordinator) (now : Int) (accountId : String) (usage : Option Usage) : Coordinator :=
  match usage with
  | some _ => { c with usageCache := set c.usageCache accountId now }
  | none => c

def applyCodexObservation (c : Coordinator) (now : Int) (accountId : String) (seq : Nat) (response : PingResponse) :
    Coordinator × Observation :=
  ((writeUsage c now accountId response.usage).record (.applied accountId seq),
    ⟨response.usage,response.isRateLimited,response.status⟩)

def applyCodexUsageStatus (c : Coordinator) (now : Int) (accountId : String) (seq : Nat) (status : UsageStatus) :
    Coordinator × Observation :=
  ((writeUsage c now accountId status.usage).record (.applied accountId seq),
    ⟨status.usage,status.limitReached == some true || status.allowed == some false,status.status.getD 200⟩)

def observe (c : Coordinator) (accountId : String) (cause : CodexSpendCause) : Coordinator :=
  { c with nextTask := c.nextTask + 1 }.await c.nextTask (.observeRow accountId cause)

def resumeObserveRow (c : Coordinator) (task : TaskId) (accountId : String) (cause : CodexSpendCause) :
    Option Account → Coordinator
  | none => c.finish task (.spend (.skipped ("Account " ++ accountId ++ " not found")))
  | some account =>
    if account.disabled then c.finish task (.spend (.skipped "Account is disabled"))
    else if account.provider ≠ "codex" then
      c.finish task (.spend (.skipped ("Account '" ++ account.name ++ "' is not a Codex account")))
    else if !hasTokens account then
      c.finish task (.spend (.skipped ("Account '" ++ account.name ++ "' has no tokens — please re-authenticate")))
    else if cause = .scheduledPrime ∧ account.autoRefreshEnabled = false then
      c.finish task (.spend (.skipped
        ("Scheduled priming skipped for '" ++ account.name ++ "': auto-refresh disabled")))
    else
      let left := { c with tasks := delete c.tasks task }
      match get c.inflight accountId with
      | some existing =>
        let causes := if cause ∈ existing.causes then existing.causes else existing.causes ++ [cause]
        { left with inflight := set c.inflight accountId { existing with causes } }.record (.joined task existing.promise)
      | none =>
        let promise := c.nextTask
        ({ left with
          nextTask := promise + 1
          inflight := set c.inflight accountId ⟨[cause],promise⟩ }.await promise (.spendToken accountId account)).record
            (.joined task promise)

def sharedCauses (c : Coordinator) (task : TaskId) (accountId : String) : List CodexSpendCause :=
  match get c.inflight accountId with
  | some entry => if entry.promise = task then entry.causes else []
  | none => []

def issuePing (c : Coordinator) (now : Int) (task : TaskId) (accountId : String) (account : Account) : Coordinator :=
  let (reserved,applicationSeq) := reserveApplicationSeq c accountId
  (reserved.record (.issued accountId applicationSeq)).await task (.spendPing accountId account applicationSeq now)

def resumeSpendToken (c : Coordinator) (now : Int) (task : TaskId) (accountId : String) (account : Account) :
    Except String String → Coordinator
  | .error message => c.settleSpend task accountId
      (.failed ("Could not refresh access token for '" ++ account.name ++ "': " ++ message))
  | .ok accessToken =>
    if .manualRefresh ∈ sharedCauses c task accountId then issuePing c now task accountId account
    else c.await task (.spendGate accountId account accessToken)

def resumeSpendGate (c : Coordinator) (now : Int) (task : TaskId) (accountId : String) (account : Account)
    (fresh : Option Account) : Coordinator :=
  if fresh.any (·.disabled) || !fresh.any (·.autoRefreshEnabled) then
    c.settleSpend task accountId
      (.skipped ("Scheduled priming suppressed for '" ++ account.name ++ "': auto-refresh disabled"))
  else issuePing c now task accountId account

def resumeSpendPing (c : Coordinator) (now : Int) (task : TaskId) (accountId : String) (account : Account)
    (applicationSeq : Nat) : Except String PingResponse → Coordinator
  | .error message => c.settleSpend task accountId
      (.failed ("Codex request failed for '" ++ account.name ++ "': " ++ message))
  | .ok response =>
    if !c.codexRegistered then c.settleSpend task accountId (.failed "Codex provider is not registered")
    else
      match claimApplication c accountId applicationSeq with
      | none => c.settleSpend task accountId
          (.completed response.ok response.status account.name ⟨none,response.isRateLimited,response.status⟩)
      | some claimed =>
        let (applied,observation) := applyCodexObservation claimed now accountId applicationSeq response
        applied.settleSpend task accountId (.completed response.ok response.status account.name observation)

def resumeSpendSettled (c : Coordinator) (task : TaskId) (accountId : String) : Coordinator :=
  let left := { c with tasks := delete c.tasks task }
  match get c.inflight accountId with
  | some entry => if entry.promise = task then { left with inflight := delete c.inflight accountId } else left
  | none => left

def readUsageStatus (c : Coordinator) (accountId : String) : Coordinator :=
  let caller := c.nextTask
  match get c.readInflight accountId with
  | some existing => { c with nextTask := caller + 1 }.record (.joined caller existing)
  | none =>
    { c with
      nextTask := caller + 1
      readInflight := set c.readInflight accountId caller }.await caller (.readRow accountId)

def resumeReadRow (c : Coordinator) (task : TaskId) (accountId : String) : Option Account → Coordinator
  | none => c.settleRead task accountId ⟨false,"Account " ++ accountId ++ " not found"⟩
  | some account =>
    if account.disabled then c.settleRead task accountId ⟨false,"Account is disabled"⟩
    else if account.provider ≠ "codex" then
      c.settleRead task accountId ⟨false,"Account '" ++ account.name ++ "' is not a Codex account"⟩
    else if !hasTokens account then
      c.settleRead task accountId ⟨false,"Account '" ++ account.name ++ "' has no tokens — please re-authenticate"⟩
    else c.await task (.readToken accountId account)

def resumeReadToken (c : Coordinator) (now : Int) (task : TaskId) (accountId : String) (account : Account) :
    Except String String → Coordinator
  | .error message => c.settleRead task accountId
      ⟨false,"Could not refresh access token for '" ++ account.name ++ "': " ++ message⟩
  | .ok accessToken =>
    let (reserved,applicationSeq) := reserveApplicationSeq c accountId
    (reserved.record (.issued accountId applicationSeq)).await task (.readStatus accountId
      { account,accessToken,applicationSeq
        tokenGenerations := [account.accessToken,some accessToken]
        reauthPaused := needsReauth account
        writtenAtBefore := c.usageCacheWrittenAt accountId
        issuedAtMs := now
        refreshFailureReason := none })

def failedRead (read : UsageRead) (status : UsageStatus) : ReadResult :=
  let base := "Codex usage read failed for '" ++ read.account.name ++ "' (status " ++
    (status.status.map Nat.repr).getD "network error" ++ ")"
  if status.status = some 401 ∧ read.reauthPaused = true then
    ⟨false,base ++ "; the account needs re-authentication."⟩
  else
    match read.refreshFailureReason with
    | some reason => ⟨false,base ++ "; token refresh failed: " ++ reason⟩
    | none => ⟨false,base ++ "."⟩

def supersededRead (read : UsageRead) : ReadResult :=
  ⟨true,"Usage read for '" ++ read.account.name ++ "' superseded by a newer observation; kept the fresher state."⟩

def concludeRead (c : Coordinator) (task : TaskId) (accountId : String) (read : UsageRead) (status : UsageStatus) :
    Coordinator :=
  if !status.ok then c.settleRead task accountId (failedRead read status)
  else if advanced read.writtenAtBefore (c.usageCacheWrittenAt accountId) then
    c.settleRead task accountId (supersededRead read)
  else
    match claimApplication c accountId read.applicationSeq with
    | none => c.settleRead task accountId (supersededRead read)
    | some claimed => claimed.await task (.readRecheck accountId read status)

def resumeReadStatus (c : Coordinator) (task : TaskId) (accountId : String) (read : UsageRead) (status : UsageStatus) :
    Coordinator :=
  if status.ok = false ∧ status.status = some 401 ∧ read.reauthPaused = false then
    c.await task (.readRotation accountId read status)
  else concludeRead c task accountId read status

def resumeReadRotation (c : Coordinator) (task : TaskId) (accountId : String) (read : UsageRead)
    (rejected : UsageStatus) : Except String String → Coordinator
  | .error failureReason =>
    concludeRead c task accountId { read with refreshFailureReason := some failureReason } rejected
  | .ok refreshed =>
    if refreshed ≠ "" ∧ refreshed ≠ read.accessToken then
      c.await task (.readRetry accountId
        { read with tokenGenerations := read.tokenGenerations ++ [some refreshed] })
    else concludeRead c task accountId read rejected

def refreshedMessage (account : Account) (observation : Observation) (status : UsageStatus) : ReadResult :=
  match observation.usage with
  | none => ⟨false,"Codex returned no usage windows for '" ++ account.name ++ "' (status " ++
      (status.status.map Nat.repr).getD "null" ++ ")."⟩
  | some usage =>
    let windows := "(5h: " ++ usage.fiveHour ++ "%, 7d: " ++ usage.sevenDay ++ "%)."
    if observation.isRateLimited then
      ⟨true,"Usage refreshed for '" ++ account.name ++ "' — account is rate limited " ++ windows⟩
    else ⟨true,"Usage refreshed for '" ++ account.name ++ "' " ++ windows⟩

def resumeReadRecheck (c : Coordinator) (now : Int) (task : TaskId) (accountId : String) (read : UsageRead)
    (status : UsageStatus) (current : Option Account) : Coordinator :=
  if current.all (fun row => row.disabled || !read.tokenGenerations.contains row.accessToken) then
    c.settleRead task accountId ⟨true,"Usage read for '" ++ read.account.name ++
      "' superseded by a credential change; kept the fresher state."⟩
  -- The row was read across an await: a redemption may have claimed meanwhile.
  else if get c.lastAppliedSeq accountId ≠ some read.applicationSeq then
    c.settleRead task accountId (supersededRead read)
  else
    let (applied,observation) := applyCodexUsageStatus c now accountId read.applicationSeq status
    applied.await task (.readSubscription accountId (refreshedMessage read.account observation status))

def resumeReadSettled (c : Coordinator) (task : TaskId) (accountId : String) : Coordinator :=
  let left := { c with tasks := delete c.tasks task }
  if get c.readInflight accountId = some task then { left with readInflight := delete c.readInflight accountId } else left

def consumeResetCredit (c : Coordinator) (accountId : String) : Coordinator :=
  { c with nextTask := c.nextTask + 1 }.await c.nextTask (.consumeRow accountId)

def failResetCreditConsume (c : Coordinator) (task : TaskId) (message : String) : Coordinator :=
  c.await task (.consumeCleanup (.failed message))

def resumeConsumeRow (c : Coordinator) (task : TaskId) (accountId : String) :
    Option Account → Coordinator
  | none => failResetCreditConsume c task ("Account " ++ accountId ++ " not found")
  | some account =>
    if account.disabled then failResetCreditConsume c task ("Account " ++ accountId ++ " not found")
    else if account.provider ≠ "codex" then
      failResetCreditConsume c task ("Account '" ++ account.name ++ "' is not a Codex account")
    else if !hasTokens account then
      failResetCreditConsume c task ("Account '" ++ account.name ++ "' has no tokens — please re-authenticate")
    else c.await task (.consumeToken accountId account)

def resumeConsumeToken (c : Coordinator) (task : TaskId) (accountId : String) (account : Account)
    : Except String String → Coordinator
  | .error message => failResetCreditConsume c task
      ("Could not refresh access token for '" ++ account.name ++ "': " ++ message)
  | .ok _ =>
    match get c.resetCreditsInflight accountId with
    | some metadataRead => c.await task (.consumeMetadata accountId account metadataRead)
    | none => c.await task (.consumeCall accountId account)

def windowsRestored (outcome : ConsumeOutcome) : Bool := outcome == .reset || outcome == .alreadyRedeemed

def restoreWindows (c : Coordinator) (accountId : String) : Coordinator :=
  let (reserved,seq) := reserveApplicationSeq c accountId
  let claimed := (claimApplication reserved accountId seq).getD reserved
  { claimed with usageCache := delete claimed.usageCache accountId }.record (.redeemed accountId seq)

def resumeConsumeCall (c : Coordinator) (task : TaskId) (accountId : String) (account : Account) :
    Except String ConsumeOutcome → Coordinator
  | .error message => failResetCreditConsume c task
      ("Failed to apply a banked reset for '" ++ account.name ++ "': " ++ message)
  | .ok outcome =>
    let known := if windowsRestored outcome then restoreWindows c accountId else c
    known.await task (.consumeLedger (.completed account.name outcome))

inductive Answer where
  | row (account : Option Account)
  | token (result : Except String String)
  | pinged (result : Except String PingResponse)
  | status (status : UsageStatus)
  | consumed (result : Except String ConsumeOutcome)
  | done

inductive Action where
  | observe (accountId : String) (cause : CodexSpendCause)
  | readUsageStatus (accountId : String)
  | consumeResetCredit (accountId : String)
  | creditsRead (accountId : String) (read : Nat)
  | creditsReadSettled (accountId : String)
  | trafficObserved (accountId : String)
  | usageDropped (accountId : String)
  | resume (task : TaskId) (answer : Answer)

structure Event where
  now : Int
  action : Action

def resume (c : Coordinator) (now : Int) (task : TaskId) : Frame → Answer → Option Coordinator
  | .observeRow accountId cause,.row account => some (resumeObserveRow c task accountId cause account)
  | .spendToken accountId account,.token result => some (resumeSpendToken c now task accountId account result)
  | .spendGate accountId account _,.row fresh => some (resumeSpendGate c now task accountId account fresh)
  | .spendPing accountId account seq _,.pinged result => some (resumeSpendPing c now task accountId account seq result)
  | .spendSettled accountId,.done => some (resumeSpendSettled c task accountId)
  | .readRow accountId,.row account => some (resumeReadRow c task accountId account)
  | .readToken accountId account,.token result => some (resumeReadToken c now task accountId account result)
  | .readStatus accountId read,.status status => some (resumeReadStatus c task accountId read status)
  | .readRotation accountId read rejected,.token result =>
    some (resumeReadRotation c task accountId read rejected result)
  | .readRetry accountId read,.status status => some (concludeRead c task accountId read status)
  | .readRecheck accountId read status,.row current =>
    some (resumeReadRecheck c now task accountId read status current)
  | .readSubscription accountId result,.done => some (c.settleRead task accountId result)
  | .readSettled accountId,.done => some (resumeReadSettled c task accountId)
  | .consumeRow accountId,.row account => some (resumeConsumeRow c task accountId account)
  | .consumeToken accountId account,.token result =>
    some (resumeConsumeToken c task accountId account result)
  | .consumeMetadata accountId account metadataRead,.done =>
    if get c.resetCreditsInflight accountId = some metadataRead then none
    else some (c.await task (.consumeCall accountId account))
  | .consumeCall accountId account,.consumed result => some (resumeConsumeCall c task accountId account result)
  | .consumeLedger result,.done => some (c.await task (.consumeCleanup result))
  | .consumeCleanup result,.done => some (c.finish task (.consume result))
  | _,_ => none

def step (c : Coordinator) (e : Event) : Option Coordinator :=
  match e.action with
  | .observe accountId cause => some (observe c accountId cause)
  | .readUsageStatus accountId => some (readUsageStatus c accountId)
  | .consumeResetCredit accountId => some (consumeResetCredit c accountId)
  | .creditsRead accountId read =>
    if (get c.resetCreditsInflight accountId).isSome then none
    else some { c with resetCreditsInflight := set c.resetCreditsInflight accountId read }
  | .creditsReadSettled accountId => some { c with resetCreditsInflight := delete c.resetCreditsInflight accountId }
  | .trafficObserved accountId => some { c with usageCache := set c.usageCache accountId e.now }
  | .usageDropped accountId => some { c with usageCache := delete c.usageCache accountId }
  | .resume task answer => (get c.tasks task).bind (fun frame => resume c e.now task frame answer)

def Coordinator.start (codexRegistered : Bool) : Coordinator :=
  { inflight := [],readInflight := [],resetCreditsInflight := [],applicationSeqCounter := [],lastAppliedSeq := []
    usageCache := [],codexRegistered,tasks := [],nextTask := 0,trace := [] }

def machine : Machine Coordinator Event where
  init c := ∃ codexRegistered, c = .start codexRegistered
  step := step

end Clankermux.CodexSpendCoordinator
