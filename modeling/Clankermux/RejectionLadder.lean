import Clankermux.InsertionMap
import Clankermux.UnifiedClaims

/-! The ladder a refused request (status 429) is classified by, for accounts whose provider
is not Codex: each rung looks at other evidence, the first that finds some decides what is
charged and to whom. The instants one classification reads are taken as equal. -/
namespace Clankermux.RejectionLadder
open UnifiedClaims

inductive ModelFamily where
  | opus
  | haiku
  | sonnet
  | fable
  deriving DecidableEq

/-- Lower case as far as the family words go: besides `A` to `Z` only the Kelvin sign
becomes one of their letters. -/
def toLowerCase (ch : Char) : Char := if ch.val = 0x212A then 'k' else ch.toLower

def includes (text part : List Char) : Bool := text.tails.any (fun rest => part.isPrefixOf rest)

def knownPatterns : List (String × ModelFamily) :=
  [("opus",.opus),("haiku",.haiku),("sonnet",.sonnet),("fable",.fable)]

def getModelFamily (modelId : String) : Option ModelFamily :=
  let normalized := modelId.toList.map toLowerCase
  if includes normalized "mythos".toList then some .fable
  else (knownPatterns.find? (fun pattern => includes normalized pattern.1.toList)).map Prod.snd

inductive RateLimitReason where
  | weeklyExhausted429
  | sessionExhausted429
  | modelFallback429
  | outOfCredits
  | upstream429WithReset
  | upstream429NoResetProbeCooldown
  | other (reason : String)
  deriving DecidableEq

def isQuotaDerivedRateLimitReason : RateLimitReason → Bool
  | .weeklyExhausted429 => true
  | .sessionExhausted429 => true
  | _ => false

structure Account where
  id : String
  provider : String
  customEndpoint : Option String
  refreshToken : Option String
  rateLimitedUntil : Option Number
  rateLimitedAt : Option Nat
  rateLimitedReason : Option RateLimitReason
  consecutiveRateLimits : Nat

def filled : Option String → Bool
  | none => false
  | some text => text ≠ ""

def Account.official (account : Account) : Bool := account.provider == "anthropic" && !filled account.customEndpoint

def isOAuthAnthropicAccount (account : Account) : Bool :=
  account.provider == "anthropic" && filled account.refreshToken

inductive Write where
  | markAccountRateLimited (deadline : Number) (reason : RateLimitReason)
  | markAccountRateLimitedDeadlineOnly (deadline : Number) (reason : RateLimitReason)
  | updateAccountRateLimitMeta (status : String) (reset : Option Number) (remaining : Option Number)

inductive ProbeOutcome where
  | abandoned
  | cooldownReapplied
  deriving DecidableEq

inductive Effect where
  | enqueue (write : Write)
  | refreshNow
  | markDue
  | noteAccountWideCooldown
  | completeRateLimitProbe (outcome : ProbeOutcome)
  | armBurstRecoveryProbe (cooldownUntil : Number)

structure MemoEntry where
  resetAt : ℚ
  observedAt : Nat

structure State where
  account : Account
  burst : Option Nat
  memo : InsertionMap (String × ModelFamily) MemoEntry
  refreshes : Nat
  effects : List Effect

def State.emit (s : State) (effect : Effect) : State := { s with effects := s.effects ++ [effect] }

structure Exhaustion where
  exhausted : Bool
  weekly : Bool
  resetMs : Option ℚ

structure Usage where
  routingCapacity : Nat → Option ℚ
  pollCapacity : Nat → Option ℚ
  namesFamily : ModelFamily → Bool
  exhaustion : Exhaustion
  familyReset : ModelFamily → Option Number
  rateLimitedUntil : Option ℚ

structure World where
  runtime : Runtime
  now : Nat
  usage : Nat → Usage
  refreshed : Bool
  probeLease : Bool

structure Attempt where
  headers : Headers
  requestedModel : Option String
  reprobe : Bool
  internal : Bool
  keepalive : Bool
  autoRefresh : Bool

inductive SyntheticProbeKind where
  | any
  | keepalive
  deriving DecidableEq

def Attempt.isTrustedProbe (attempt : Attempt) (kind : SyntheticProbeKind) : Bool :=
  if !attempt.internal then false
  else match kind with
    | .keepalive => attempt.keepalive
    | .any => attempt.keepalive || attempt.autoRefresh

inductive Confidence where
  | freshHeadroom
  | staleShouldRetry
  deriving DecidableEq

inductive ProxyAttemptOutcome where
  | retryable429 (confidence : Confidence) (cooldownUntil : Number)
  | hard429 (cooldownUntil : Option Number)
  | modelQuotaExhausted
  | other

def familyWeeklyMaxUsageAgeMs : Nat := 180000
def burstRetryMaxUsageAgeMs : Nat := 150000+30000
def burstRetryCooldownCapMs : Nat := 120000-500-30000
def residual429CooldownCapMs : Nat := 24*60*60*1000
def outOfCreditsCooldownMs : Nat := 60*60*1000
def burstRetryMarkerMs : Nat := 120000
def maxMemoEntries : Nat := 1000
def maxMemoHorizonMs : Nat := 14*86400000
def resetToleranceMs : Nat := 60000

def horizonMs : Window → Nat
  | .fiveHour => 5*60*60*1000
  | .sevenDay => 7*24*60*60*1000

def computeRateLimitBackoffMs (consecutiveCount : Nat) : Nat :=
  let n := Nat.max 1 consecutiveCount
  Nat.min (30000*Nat.pow 2 (Nat.min (n-1) 30)) 300000

section
variable (w : World) (attempt : Attempt)

def World.after (ms : Nat) : Number := .finite (w.now+ms)
def World.instant : Number := .finite w.now

inductive CooldownSource where
  | header
  | usageThrottle
  | default
  deriving DecidableEq

def headerDeadline (text : String) : Option Number :=
  let date := match w.runtime.dateTime text with
    | none => none
    | some ms => if w.now < ms then some ((Number.finite ms).latest (w.after 60000)) else none
  match w.runtime.toNumber text with
  | none => date
  | some parsed =>
    if parsed.above (.finite 0) then
      let ms := w.runtime.times parsed 1000
      let epochMs := if parsed.above (.finite 1000000000) then ms
        else match ms with
          | .finite value => w.runtime.rounded (w.now+value)
          | .infinity => .infinity
      if epochMs.above w.instant then some (epochMs.latest (w.after 60000)) else none
    else date

def extractCooldownUntil (usage : Usage) : Number × CooldownSource :=
  let retryAfter := match attempt.headers.get "retry-after" with
    | some text => some text
    | none => attempt.headers.get "x-ratelimit-reset"
  let directed := match retryAfter with
    | none => none
    | some text => if text = "" then none else headerDeadline w text
  match directed with
  | some deadline => (deadline,.header)
  | none => match usage.rateLimitedUntil with
    | none => (w.after 60000,.default)
    | some throttled =>
      if w.now < throttled then ((Number.finite throttled).latest (w.after 60000),.usageThrottle)
      else (w.after 60000,.default)

def clampResetTime (candidate : Number) : Option Number :=
  match candidate with
  | .infinity => none
  | .finite ms => if w.now < ms then some ((Number.finite ms).soonest (w.after (24*60*60*1000))) else none

structure RateLimitInfo where
  resetTime : Option Number
  statusHeader : Option String
  remaining : Option Number

/-- `AnthropicProvider.parseRateLimit` of a 429 that carries a summary status. -/
def parseRateLimit (status : String) : RateLimitInfo :=
  let resetTime := match attempt.headers.get "anthropic-ratelimit-unified-reset" with
    | none => none
    | some text => if text = "" then none else match w.runtime.toNumber text with
      | none => none
      | some sec => clampResetTime w (w.runtime.times sec 1000)
  let remaining := match attempt.headers.get "anthropic-ratelimit-unified-remaining" with
    | none => none
    | some text => if text = "" then none else w.runtime.toNumber text
  ⟨resetTime,if status = "" then none else some status,remaining⟩

def projectScopedRateLimitInfo (account : Account) (info : RateLimitInfo) : RateLimitInfo :=
  if !account.official then info
  else if !isScopedOnlyUnifiedRejection w.runtime attempt.headers then info
  else match getAccountWideClaimHeadroom w.runtime attempt.headers with
    | none => info
    | some headroom =>
      let claim := headroom.fiveHour.getD headroom.sevenDay
      let maxResetMs : Nat := if headroom.fiveHour.isSome then 24*60*60*1000 else (7*24+1)*60*60*1000
      let projected := match claim.resetMs with
        | none => none
        | some resetMs => if resetMs.above w.instant && !resetMs.above (w.after maxResetMs) then some resetMs else none
      { info with
        statusHeader := some claim.status
        resetTime := projected }

def persistRateLimitStatusMeta (s : State) : State :=
  match attempt.headers.get "anthropic-ratelimit-unified-status" with
  | none => s
  | some status =>
    let info := projectScopedRateLimitInfo w attempt s.account (parseRateLimit w attempt status)
    match info.statusHeader with
    | none => s
    | some status => s.emit (.enqueue (.updateAccountRateLimitMeta status info.resetTime info.remaining))

def completeRateLimitProbe (outcome : ProbeOutcome) (s : State) : State :=
  if w.probeLease then s.emit (.completeRateLimitProbe outcome) else s

structure CooldownInfo where
  resetTime : Option Number
  floorUntil : Option Number
  reason : RateLimitReason

def truthy (value : Option Number) : Option Number :=
  match value with
  | none => none
  | some value => if value = .finite 0 then none else some value

def armIfBurst (reason : RateLimitReason) (deadline : Number) (s : State) : State :=
  if reason = .modelFallback429 ∧ isOAuthAnthropicAccount s.account then s.emit (.armBurstRecoveryProbe deadline) else s

/-- `applyRateLimitCooldown` with `reprobe`. -/
def applyReprobeCooldown (resetTime : Option Number) (s : State) : State :=
  match truthy resetTime with
  | none => s
  | some reset =>
    if reset.above w.instant then { s with account := { s.account with rateLimitedUntil := some reset } } else s

def applyServerDirected (deadline : Number) (reason : RateLimitReason) (s : State) : State :=
  let marked := { s with account := { s.account with
    rateLimitedUntil := some deadline
    rateLimitedAt := some w.now
    rateLimitedReason := some reason } }
  (armIfBurst reason deadline marked).emit (.enqueue (.markAccountRateLimitedDeadlineOnly deadline reason))

def applyBackoff (info : CooldownInfo) (s : State) : State :=
  let nextCount := s.account.consecutiveRateLimits+1
  let candidate := w.after (computeRateLimitBackoffMs nextCount)
  let bounded := match truthy info.resetTime with
    | none => candidate
    | some reset => reset.soonest candidate
  let deadline := match truthy info.floorUntil with
    | none => bounded
    | some floor => floor.latest bounded
  let marked := { s with account := { s.account with
    rateLimitedUntil := some deadline
    rateLimitedReason := some info.reason
    rateLimitedAt := some w.now
    consecutiveRateLimits := nextCount } }
  (armIfBurst info.reason deadline marked).emit (.enqueue (.markAccountRateLimited deadline info.reason))

/-- `applyRateLimitCooldown` without `reprobe`. -/
def applyRateLimitCooldown (info : CooldownInfo) (s : State) : State :=
  let s := if s.account.official && isQuotaDerivedRateLimitReason info.reason then s.emit .noteAccountWideCooldown else s
  let s := completeRateLimitProbe w .cooldownReapplied s
  match truthy info.resetTime,truthy info.floorUntil with
  | some reset,none => if reset.above w.instant then applyServerDirected w reset info.reason s else applyBackoff w info s
  | _,_ => applyBackoff w info s

structure AccountQuota429 where
  weekly : Bool
  resetTime : Option Number

def AccountQuota429.reason (quota : AccountQuota429) : RateLimitReason :=
  if quota.weekly then .weeklyExhausted429 else .sessionExhausted429

def rejectedWindows : List (Window × ExtractedClaimReading) :=
  (extractUnifiedClaimReadings w.runtime attempt.headers).filterMap (fun reading =>
    if !rejectingStatuses.contains reading.status then none
    else if reading.claim = "5h" then some (.fiveHour,reading)
    else if reading.claim = "7d" then some (.sevenDay,reading)
    else none)

def usableReset (claim : Window × ExtractedClaimReading) : Option Number :=
  match claim.2.resetMs with
  | none => none
  | some resetMs =>
    if resetMs.above w.instant && !resetMs.above (w.after (horizonMs claim.1+resetToleranceMs)) then some resetMs else none

def latestReset (resets : List Number) : Option Number :=
  resets.foldl (fun latest reset => some ((latest.getD (.finite 0)).latest reset)) none

def resolveLiveAccountQuota429 (account : Account) : Option AccountQuota429 :=
  if !account.official || isAnthropicOutOfCredits attempt.headers then none
  else match rejectedWindows w attempt with
    | [] => none
    | claims => some ⟨claims.any (fun claim => claim.1 = .sevenDay),latestReset (claims.filterMap (usableReset w))⟩

def finishQuotaRejection (quota : AccountQuota429) (s : State) : State × ProxyAttemptOutcome :=
  let s := persistRateLimitStatusMeta w attempt (applyRateLimitCooldown w ⟨quota.resetTime,none,quota.reason⟩ s)
  (s,.hard429 s.account.rateLimitedUntil)

inductive Burst429Classification where
  | retryable (confidence : Confidence)
  | final (reason : String)

def classify429Transient (account : Account) (capacity : Option ℚ) : Burst429Classification :=
  if !isOAuthAnthropicAccount account then .final "not_oauth_anthropic"
  else if isAnthropicHardLimitStatus attempt.headers then .final "hard_limit_status"
  else if hasAccountWideUnifiedRejection attempt.headers then .final "account_quota_rejection"
  else if isScopedOnlyUnifiedRejection w.runtime attempt.headers then .final "scoped_quota_rejection"
  else if (match capacity with | none => false | some minHeadroom => decide (0 < minHeadroom)) then .retryable .freshHeadroom
  else if (match attempt.headers.get "anthropic-ratelimit-unified-status" with
      | none => false
      | some status => rejectingStatuses.contains status) then .final "rejecting_status_no_headroom"
  else if attempt.headers.get "x-should-retry" = some "true" then .retryable .staleShouldRetry
  else .final "no_headroom_no_retry_hint"

def markAnthropicBurstThrottle (s : State) : State :=
  let deadline := w.now+burstRetryMarkerMs
  match s.burst with
  | none => { s with burst := some deadline }
  | some held => { s with burst := some (if held ≤ w.now then deadline else Nat.max held deadline) }

def reprobeRung (s : State) : State × ProxyAttemptOutcome :=
  let usage := w.usage s.refreshes
  let cooldownUntil := (extractCooldownUntil w attempt usage).1.soonest (w.after burstRetryCooldownCapMs)
  match classify429Transient w attempt s.account (usage.routingCapacity burstRetryMaxUsageAgeMs) with
  | .retryable confidence =>
    (applyReprobeCooldown w (some cooldownUntil) (markAnthropicBurstThrottle w s),.retryable429 confidence cooldownUntil)
  | .final _ =>
    (applyRateLimitCooldown w ⟨some cooldownUntil,none,.modelFallback429⟩ s,.hard429 (some cooldownUntil))

def creditsRung (s : State) : State × ProxyAttemptOutcome :=
  let windowReset := match (w.usage s.refreshes).rateLimitedUntil with
    | none => Number.finite 0
    | some reset => if w.now < reset then .finite reset else .finite 0
  let floorUntil := (w.after outOfCreditsCooldownMs).latest windowReset
  (persistRateLimitStatusMeta w attempt (applyRateLimitCooldown w ⟨none,some floorUntil,.outOfCredits⟩ s),
    .hard429 (some floorUntil))

def State.refresh (s : State) : State := { s.emit .refreshNow with refreshes := s.refreshes+1 }

def requestedFamily : Option ModelFamily :=
  match attempt.requestedModel with
  | none => none
  | some model => if model = "" then none else getModelFamily model

def sharedRefresh (s : State) : State × Bool :=
  let usage := w.usage s.refreshes
  let named := match requestedFamily attempt with
    | none => false
    | some family => usage.namesFamily family
  if !attempt.reprobe && !attempt.isTrustedProbe .any &&
      ((usage.routingCapacity familyWeeklyMaxUsageAgeMs).isNone ||
        ((usage.pollCapacity familyWeeklyMaxUsageAgeMs).isNone && named)) then (s.refresh,true)
  else (s,false)

def exhaustionRung (s : State) : Option (State × ProxyAttemptOutcome) :=
  let usage := w.usage s.refreshes
  if ["anthropic","zai","grok-subscription"].contains s.account.provider &&
      !(s.account.official && isScopedOnlyUnifiedRejection w.runtime attempt.headers) &&
      !attempt.reprobe && !attempt.isTrustedProbe .any then
    match usage.exhaustion.exhausted,usage.exhaustion.resetMs with
    | true,some resetMs =>
      if w.now < resetMs then
        let extracted := extractCooldownUntil w attempt usage
        some (finishQuotaRejection w attempt
          ⟨usage.exhaustion.weekly,if extracted.2 = .header then some extracted.1 else none⟩ s)
      else none
    | _,_ => none
  else none

def resolveFamilyWeeklyExclusionFromHeaders (account : Account) : Option (ModelFamily × Option ℚ) :=
  if !account.official then none
  else match requestedFamily attempt with
    | none => none
    | some family =>
      if attempt.headers.get "anthropic-ratelimit-unified-status" ≠ some "rejected" then none
      else if getAccountWideClaimHeadroom w.runtime attempt.headers = none then none
      else match getScopedClaimRejection w.runtime attempt.headers w.now with
        | none => none
        | some rejection => some (family,rejection.soonestResetMs)

def resolveFamilyWeeklyExclusion (usage : Usage) : Option (ModelFamily × Number) :=
  match requestedFamily attempt with
  | none => none
  | some family => match usage.familyReset family with
    | none => none
    | some reset => some (family,reset)

def pruneExpired (memo : InsertionMap (String × ModelFamily) MemoEntry) : InsertionMap (String × ModelFamily) MemoEntry :=
  memo.filter (fun entry => decide (w.now < entry.2.resetAt))

def recordFamilyWeeklyExhausted (id : String) (family : ModelFamily) (resetAt : Number) (s : State) : State × Bool :=
  match resetAt with
  | .infinity => (s,false)
  | .finite reset =>
    if reset ≤ w.now then (s,false)
    else if w.now+maxMemoHorizonMs < reset then (s,false)
    else
      let memo := pruneExpired w s.memo
      let known := (memo.get (id,family)).isSome
      if maxMemoEntries ≤ memo.length ∧ !known then ({ s with memo := memo },false)
      else ({ s with memo := memo.set (id,family) ⟨reset,w.now⟩ },!known)

def exclusionReset (own : Option ℚ) (family : ModelFamily) (cached : Option (ModelFamily × Number)) : Number :=
  match own with
  | some reset => .finite reset
  | none => match cached with
    | some (cachedFamily,.finite reset) => if cachedFamily = family ∧ w.now < reset then .finite reset else w.instant
    | _ => w.instant

def familyRung (headerFamilyExclusion : Option (ModelFamily × Option ℚ)) (s : State) : Option (State × ProxyAttemptOutcome) :=
  if filled attempt.requestedModel && (!attempt.reprobe || headerFamilyExclusion.isSome) && !attempt.isTrustedProbe .any &&
      !isAnthropicHardLimitStatus attempt.headers && !hasAccountWideUnifiedRejection attempt.headers then
    let cached := resolveFamilyWeeklyExclusion attempt (w.usage s.refreshes)
    let exclusion := match headerFamilyExclusion with
      | some (family,own) => some (family,exclusionReset w own family cached)
      | none => cached
    match exclusion with
    | none => none
    | some (family,resetAt) =>
      let recorded := recordFamilyWeeklyExhausted w s.account.id family resetAt s
      let s := if recorded.2 && s.account.provider == "anthropic" then recorded.1.emit .markDue else recorded.1
      some (persistRateLimitStatusMeta w attempt (completeRateLimitProbe w .abandoned s),.modelQuotaExhausted)
  else none

def burstRung (usageRefreshAttempted : Bool) (s : State) : State × Option ProxyAttemptOutcome :=
  if attempt.reprobe || attempt.isTrustedProbe .any then (s,none)
  else
    let capacity := (w.usage s.refreshes).routingCapacity burstRetryMaxUsageAgeMs
    let tried := capacity.isNone && !usageRefreshAttempted
    let s := if tried then s.refresh else s
    let capacity := if tried && w.refreshed then (w.usage s.refreshes).routingCapacity burstRetryMaxUsageAgeMs else capacity
    match classify429Transient w attempt s.account capacity with
    | .final _ => (s,none)
    | .retryable confidence =>
      let cooldownUntil := (extractCooldownUntil w attempt (w.usage s.refreshes)).1.soonest (w.after burstRetryCooldownCapMs)
      (persistRateLimitStatusMeta w attempt
        (applyRateLimitCooldown w ⟨some cooldownUntil,none,.modelFallback429⟩ (markAnthropicBurstThrottle w s)),
        some (.retryable429 confidence cooldownUntil))

def capResidualRung429Cooldown (account : Account) (uncappedUntil : Number) : Option Number :=
  if account.official && isScopedOnlyUnifiedRejection w.runtime attempt.headers then none
  else some (uncappedUntil.soonest (w.after residual429CooldownCapMs))

def residualRung (s : State) : State × ProxyAttemptOutcome :=
  if attempt.isTrustedProbe .keepalive then (s,.other)
  else
    let extracted := extractCooldownUntil w attempt (w.usage s.refreshes)
    match capResidualRung429Cooldown w attempt s.account extracted.1 with
    | none => (persistRateLimitStatusMeta w attempt (completeRateLimitProbe w .abandoned s),.modelQuotaExhausted)
    | some cappedUntil =>
      let resetTime := if extracted.2 = .header then some cappedUntil else none
      let s := applyRateLimitCooldown w ⟨resetTime,none,.modelFallback429⟩ s
      (persistRateLimitStatusMeta w attempt s,.hard429 s.account.rateLimitedUntil)

def classify (s : State) : State × ProxyAttemptOutcome :=
  let liveAccountQuota := if attempt.isTrustedProbe .keepalive then none else resolveLiveAccountQuota429 w attempt s.account
  let liveScopedOnlyRejection := s.account.official && isScopedOnlyUnifiedRejection w.runtime attempt.headers
  let headerFamilyExclusion :=
    if attempt.isTrustedProbe .any then none else resolveFamilyWeeklyExclusionFromHeaders w attempt s.account
  if attempt.reprobe && liveAccountQuota.isNone && !liveScopedOnlyRejection && !isAnthropicOutOfCredits attempt.headers then
    reprobeRung w attempt s
  else if isAnthropicOutOfCredits attempt.headers && !attempt.isTrustedProbe .any then creditsRung w attempt s
  else match liveAccountQuota with
    | some quota => finishQuotaRejection w attempt quota s
    | none =>
      let refreshed := sharedRefresh w attempt s
      match exhaustionRung w attempt refreshed.1 with
      | some decided => decided
      | none => match familyRung w attempt headerFamilyExclusion refreshed.1 with
        | some decided => decided
        | none => match burstRung w attempt refreshed.2 refreshed.1 with
          | (held,some outcome) => (held,outcome)
          | (left,none) => residualRung w attempt left

end

end Clankermux.RejectionLadder
