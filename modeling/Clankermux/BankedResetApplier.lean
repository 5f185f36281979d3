import Clankermux.BankedResetLedger
import Clankermux.CodexResetApplier
import Clankermux.InsertionMap

/-! The applier of Anthropic banked resets: one tick over the candidate accounts, with every
dependency a call that may fail. -/
namespace Clankermux.BankedReset
open Fallible
open CodexReset (Account Candidate weeklyResetCanLiftPause PAUSE_REASON_NEEDS_REAUTH)

def BANKED_RESET_AUTO_APPLY_LEAD_MS : Int := 10 * 60 * 1000
def BANKED_RESET_WEEKLY_LIMIT_COOLDOWN_MS : Int := 60 * 60 * 1000
def BANKED_RESET_WEEKLY_LIMIT_MIN_GAIN_MS : Int := 72 * 60 * 60 * 1000
def BANKED_RESET_CONFIRM_READ_INTERVAL_MS : Int := 5 * 60 * 1000

inductive AnthropicBankedResetWindow where
  | fiveHour
  | sevenDay
  | sevenDayOverageIncluded
  | sevenDayOpus
  | sevenDaySonnet
  | sevenDayCowork
  | sevenDayOmelette
  | sevenDayOauthApps
  deriving DecidableEq

def isWeeklyWindow (window : AnthropicBankedResetWindow) : Bool := window != .fiveHour

def WEEKLY_WINDOWS : List AnthropicBankedResetWindow :=
  [.sevenDay,.sevenDayOverageIncluded,.sevenDayOpus,.sevenDaySonnet,.sevenDayCowork,.sevenDayOmelette,.sevenDayOauthApps]

inductive ModelFamily where
  | fable
  | opus
  | sonnet
  | haiku
  deriving DecidableEq

def FAMILY_PRIORITY : List ModelFamily := [.fable,.opus,.sonnet,.haiku]

def bankedResetWindowFamily : AnthropicBankedResetWindow → Option ModelFamily
  | .sevenDayOpus => some .opus
  | .sevenDaySonnet => some .sonnet
  | _ => none

structure AnthropicBankedResetGrant where
  id : String
  endsAt : Option Int
  clears : List AnthropicBankedResetWindow
  paused : Bool
  usableNow : Bool
  useRequiresLimit : Bool

structure AnthropicBankedResetStatus where
  eligible : Bool
  exhausted : List AnthropicBankedResetWindow
  grants : List AnthropicBankedResetGrant
  nextGrantId : Option String
  weeklyResetsAt : Option Int
  cooldownUntil : Option Int

structure WindowReading where
  utilization : Rat
  resetMs : Option Int

abbrev UsageData := AnthropicBankedResetWindow → Option WindowReading

abbrev FamilyWeeklyMemo := ModelFamily → Option Int

inductive SkipReason where
  | accountDisabled
  | toggleDisabled
  | notAnthropicOauth
  | needsReauth
  | noStatus
  | ineligible
  | noNextGrant
  | grantNotUsable
  | grantPaused
  | grantExpired
  | serverCooldown
  | rearm
  | noWeeklyWindow
  | notNearExpiry
  | notAtLimit
  | weeklyNotExhausted
  | paused
  | cooldown
  | weeklyResetUnknown
  | resetSoon
  | otherAccountAvailable
  deriving DecidableEq

inductive ClaimKind where
  | expiry
  | weeklyLimit (windows : List AnthropicBankedResetWindow) (resetsAt : Int) (lastChance : Bool)

def ClaimKind.cause : ClaimKind → BankedResetApplyCause
  | .expiry => .expiry
  | .weeklyLimit _ _ _ => .weeklyLimit

structure BankedResetClaimDecision where
  grantId : String
  grantEndsAt : Option Int
  kind : ClaimKind

inductive BankedResetApplyDecision where
  | claim (decision : BankedResetClaimDecision)
  | skip (reason : SkipReason)

def naturalResetAt (window : AnthropicBankedResetWindow) (windowResetsAt : AnthropicBankedResetWindow → Option Int)
    (status : Option AnthropicBankedResetStatus) : Option Int :=
  (windowResetsAt window).or (if window = .sevenDay then status.bind (·.weeklyResetsAt) else none)

def isLastChance (grantEndsAt : Option Int) (resets : List (Option Int)) : Bool :=
  grantEndsAt.any (fun endsAt => resets.any (fun resetsAt => resetsAt.any (fun resetsAt => decide (endsAt < resetsAt))))

def latestReset (resets : List (Option Int)) : Option Int := (resets.filterMap id).max?

def nextGrant (status : Option AnthropicBankedResetStatus) : Option AnthropicBankedResetGrant :=
  status.bind (fun status => status.grants.find? (fun grant => some grant.id == status.nextGrantId))

structure DecisionInputs where
  account : Account
  status : Option AnthropicBankedResetStatus
  autoApplyCooldownAnchorAt : Option Int
  rearmAt : Option Int
  windowResetsAt : AnthropicBankedResetWindow → Option Int
  now : Int

namespace DecisionInputs

def expiryTrigger (inputs : DecisionInputs) (status : AnthropicBankedResetStatus) (grant : AnthropicBankedResetGrant) :
    BankedResetApplyDecision :=
  if !grant.endsAt.any (fun endsAt => decide (endsAt - inputs.now ≤ BANKED_RESET_AUTO_APPLY_LEAD_MS)) then .skip .notNearExpiry
  else if grant.useRequiresLimit && !grant.clears.any (fun window => status.exhausted.contains window) then .skip .notAtLimit
  else .claim ⟨grant.id,grant.endsAt,.expiry⟩

def weeklyTrigger (inputs : DecisionInputs) (status : AnthropicBankedResetStatus) (grant : AnthropicBankedResetGrant) :
    BankedResetApplyDecision :=
  let windows := grant.clears.filter (fun window => isWeeklyWindow window && status.exhausted.contains window)
  if windows.isEmpty then .skip .weeklyNotExhausted
  else if !weeklyResetCanLiftPause inputs.account then .skip .paused
  else if inputs.autoApplyCooldownAnchorAt.any
    (fun anchorAt => decide (inputs.now - anchorAt < BANKED_RESET_WEEKLY_LIMIT_COOLDOWN_MS)) then .skip .cooldown
  else
    let resets := windows.map (fun window => naturalResetAt window inputs.windowResetsAt (some status))
    let lastChance := isLastChance grant.endsAt resets
    match latestReset resets with
    | none => .skip .weeklyResetUnknown
    | some resetsAt =>
      if lastChance || decide (resetsAt - inputs.now ≥ BANKED_RESET_WEEKLY_LIMIT_MIN_GAIN_MS)
      then .claim ⟨grant.id,grant.endsAt,.weeklyLimit windows resetsAt lastChance⟩
      else .skip .resetSoon

end DecisionInputs

def decideBankedResetAction (inputs : DecisionInputs) : BankedResetApplyDecision :=
  let account := inputs.account
  let expiryEnabled := account.anthropicAutoApplyBankedResetsEnabled
  let weeklyEnabled := account.anthropicAutoApplyBankedResetOnWeeklyLimitEnabled
  if account.disabled then .skip .accountDisabled
  else if !expiryEnabled && !weeklyEnabled then .skip .toggleDisabled
  else if account.provider != "anthropic" || account.refreshToken == "" then .skip .notAnthropicOauth
  else if account.pauseReason == some PAUSE_REASON_NEEDS_REAUTH then .skip .needsReauth
  else match inputs.status with
    | none => .skip .noStatus
    | some status =>
      if !status.eligible then .skip .ineligible
      else match nextGrant (some status) with
        | none => .skip .noNextGrant
        | some grant =>
          if !grant.usableNow then .skip .grantNotUsable
          else if grant.paused then .skip .grantPaused
          else if grant.endsAt.any (fun endsAt => decide (endsAt ≤ inputs.now)) then .skip .grantExpired
          else if status.cooldownUntil.any (fun until_ => decide (until_ > inputs.now)) then .skip .serverCooldown
          else if inputs.rearmAt.any (fun rearmAt => decide (rearmAt > inputs.now)) then .skip .rearm
          else if !grant.clears.any isWeeklyWindow then .skip .noWeeklyWindow
          else
            let expiry := if expiryEnabled then some (inputs.expiryTrigger status grant) else none
            match expiry with
            | some (.claim decision) => .claim decision
            | expiry =>
              let weekly := if weeklyEnabled then some (inputs.weeklyTrigger status grant) else none
              (weekly.or expiry).getD (.skip .toggleDisabled)

def windowResets (usage : Option UsageData) (memo : FamilyWeeklyMemo) (window : AnthropicBankedResetWindow) : Option Int :=
  if isWeeklyWindow window
  then ((usage.bind (fun usage => usage window)).bind (·.resetMs)).or ((bankedResetWindowFamily window).bind memo)
  else none

def atLimitWeeklyWindows (usage : Option UsageData) (memo : FamilyWeeklyMemo) (status : Option AnthropicBankedResetStatus) :
    List AnthropicBankedResetWindow :=
  WEEKLY_WINDOWS.filter fun window =>
    (usage.bind (fun usage => usage window)).any (fun reading => decide (100 ≤ reading.utilization)) ||
      (bankedResetWindowFamily window).any (fun family => (memo family).isSome) ||
      status.any (fun status => status.exhausted.contains window)

structure WeeklyProposal where
  candidate : Candidate
  resetsAt : Option Int
  grantEndsAt : Option Int

def compareKnownFirst (a b : Option Int) (compare : Int → Int → Int) : Int := match a,b with
  | none,none => 0
  | none,some _ => 1
  | some _,none => -1
  | some x,some y => if x = y then 0 else compare x y

def compareWeeklyProposals (a b : WeeklyProposal) : Int :=
  let byReset := compareKnownFirst a.resetsAt b.resetsAt (fun x y => y - x)
  if byReset ≠ 0 then byReset else compareKnownFirst a.grantEndsAt b.grantEndsAt (fun x y => x - y)

structure ClaimRequest where
  grantId : String
  requestId : String
  ledgerRowId : String
  cause : BankedResetApplyCause
  replay : Bool

inductive Site where
  | visit
  | discovery
  | proposal
  | confirmation
  | ranked
  deriving DecidableEq

inductive Moment where
  | reading
  | deciding
  | claiming
  deriving DecidableEq

structure Deps (σ : Type) where
  listCandidateAccounts : Fallible σ (List Candidate)
  expireStaleAttempts : Fallible σ Nat
  getAccount : Site → String → Fallible σ (Option Account)
  getCachedStatus : Site → String → Fallible σ (Option AnthropicBankedResetStatus)
  refreshStatus : Site → String → Bool → Fallible σ Bool
  getPendingAttempts : String → Fallible σ (List AnthropicBankedResetEventRow)
  getAutoApplyCooldownAnchorAt : Site → String → Fallible σ (Option Int)
  getRearmAt : Site → String → Fallible σ (Option Int)
  statusNeedsRefresh : Site → String → Fallible σ Bool
  getUsage : Site → String → Fallible σ (Option UsageData)
  getFamilyWeeklyMemo : Site → String → Fallible σ FamilyWeeklyMemo
  hasOtherAvailableAccount : Site → String → List AnthropicBankedResetWindow → Fallible σ Bool
  claimAutoAttempt : Site → ClaimInput → Fallible σ (Option AnthropicBankedResetAutoClaim)
  dispatchClaim : Site → String → ClaimRequest → Fallible σ Unit
  now : Site → Moment → String → Fallible σ Int

structure Memory where
  confirmReadAt : InsertionMap String Int
  readThisTick : List String

def lift {σ α : Type} (prog : Fallible σ α) : Fallible (Memory × σ) α := fun s =>
  let done := prog s.2
  (done.1,(s.1,done.2))

def remembered {σ : Type} : Fallible (Memory × σ) Memory := fun s => (.ok s.1,s)

def remember {σ : Type} (memory : Memory) : Fallible (Memory × σ) Unit := fun s => (.ok (),(memory,s.2))

inductive Pass where
  | weeklyHeld
  | proposal (proposal : WeeklyProposal)

inductive Discovery where
  | expiry
  | weekly (windows : List AnthropicBankedResetWindow)

def mayReplay (account : Account) (row : AnthropicBankedResetEventRow) : Bool :=
  if account.disabled || account.provider != "anthropic" || account.refreshToken == "" ||
    account.pauseReason == some PAUSE_REASON_NEEDS_REAUTH then false
  else if row.cause == some .weeklyLimit
  then account.anthropicAutoApplyBankedResetOnWeeklyLimitEnabled && weeklyResetCanLiftPause account
  else account.anthropicAutoApplyBankedResetsEnabled

def discover (account : Account) (status : Option AnthropicBankedResetStatus) (usage : Option UsageData)
    (memo : FamilyWeeklyMemo) (now : Int) : Option Discovery :=
  let grant := nextGrant status
  if account.anthropicAutoApplyBankedResetsEnabled && (grant.bind (·.endsAt)).any
    (fun endsAt => decide (endsAt > now) && decide (endsAt - now ≤ BANKED_RESET_AUTO_APPLY_LEAD_MS)) then some .expiry
  else if !account.anthropicAutoApplyBankedResetOnWeeklyLimitEnabled then none
  else
    let atLimit := atLimitWeeklyWindows usage memo status
    match status with
    | none =>
      -- The forced read fills in the status.
      if !atLimit.isEmpty || FAMILY_PRIORITY.any (fun family => (memo family).isSome) then some (.weekly atLimit) else none
    | some _ =>
      let windows := match grant with
        | some grant => atLimit.filter (fun window => grant.clears.contains window)
        | none => []
      if windows.isEmpty then none else some (.weekly windows)

section
variable {σ : Type} (deps : Deps σ)

def evaluate (site : Site) (accountId : String) : Fallible (Memory × σ) (Option BankedResetApplyDecision) := do
  let account ← lift (deps.getAccount site accountId)
  match account with
  | none => return none
  | some account =>
    let now ← lift (deps.now site .deciding accountId)
    let status ← lift (deps.getCachedStatus site accountId)
    let autoApplyCooldownAnchorAt ← lift (deps.getAutoApplyCooldownAnchorAt site accountId)
    let rearmAt ← lift (deps.getRearmAt site accountId)
    let usage ← lift (deps.getUsage site accountId)
    let memo ← lift (deps.getFamilyWeeklyMemo site accountId)
    let decision := decideBankedResetAction ⟨account,status,autoApplyCooldownAnchorAt,rearmAt,windowResets usage memo,now⟩
    match decision with
    | .claim ⟨_,_,.weeklyLimit windows _ lastChance⟩ =>
      if lastChance then return some decision
      else
        let other ← lift (deps.hasOtherAvailableAccount site accountId windows)
        if other then return some (.skip .otherAccountAvailable) else return some decision
    | _ => return some decision

def readForConfirm (site : Site) (id : String) : Fallible (Memory × σ) Bool := do
  let memory ← remembered
  if memory.readThisTick.contains id then return true
  else
    let now ← lift (deps.now site .reading id)
    if (InsertionMap.get memory.confirmReadAt id).any (fun lastRead => decide (now - lastRead < BANKED_RESET_CONFIRM_READ_INTERVAL_MS))
    then return false
    else
      remember { memory with confirmReadAt := InsertionMap.set memory.confirmReadAt id now }
      let refreshed ← lift (deps.refreshStatus site id true)
      if !refreshed then return false
      else
        remember ⟨InsertionMap.set memory.confirmReadAt id now,id::memory.readThisTick⟩
        return true

def confirm (site : Site) (candidate : Candidate) : Fallible (Memory × σ) (Option BankedResetClaimDecision) := do
  let ready ← readForConfirm deps site candidate.id
  if !ready then return none
  else
    let decision ← evaluate deps site candidate.id
    match decision with
    | some (.claim decision) => return some decision
    | _ => return none

def dispatch (site : Site) (accountId : String) (request : ClaimRequest) : Fallible (Memory × σ) Unit :=
  recover (lift (deps.dispatchClaim site accountId request)) (pure ())

def claimAndDispatch (site : Site) (candidate : Candidate) (decision : BankedResetClaimDecision) : Fallible (Memory × σ) Bool := do
  let id := candidate.id
  let now ← lift (deps.now site .claiming id)
  let claim ← lift (deps.claimAutoAttempt site ⟨id,decision.grantId,decision.kind.cause,now⟩)
  match claim with
  | none => return false
  | some claim =>
    dispatch deps site id ⟨decision.grantId,claim.requestId,claim.id,decision.kind.cause,claim.reused⟩
    return true

def weeklyProposal (candidate : Candidate) (status : Option AnthropicBankedResetStatus)
    (windows : List AnthropicBankedResetWindow) (usage : Option UsageData) (memo : FamilyWeeklyMemo) :
    Fallible (Memory × σ) (Option WeeklyProposal) := do
  let id := candidate.id
  let now ← lift (deps.now .proposal .deciding id)
  let resets := windows.map (fun window => naturalResetAt window (windowResets usage memo) status)
  let grantEndsAt := (nextGrant status).bind (·.endsAt)
  let lastChance := isLastChance grantEndsAt resets
  let resetsAt := latestReset resets
  -- An unknown reset still goes to the forced read, which may supply one.
  if !lastChance && resetsAt.any (fun resetsAt => decide (resetsAt - now < BANKED_RESET_WEEKLY_LIMIT_MIN_GAIN_MS)) then return none
  else
    let cooldownAnchorAt ← lift (deps.getAutoApplyCooldownAnchorAt .proposal id)
    if cooldownAnchorAt.any (fun anchorAt => decide (now - anchorAt < BANKED_RESET_WEEKLY_LIMIT_COOLDOWN_MS)) then return none
    else if !lastChance && !windows.isEmpty then
      let other ← lift (deps.hasOtherAvailableAccount .proposal id windows)
      if other then return none else return some ⟨candidate,resetsAt,grantEndsAt⟩
    else return some ⟨candidate,resetsAt,grantEndsAt⟩

def propose (candidate : Candidate) (account : Account) : Fallible (Memory × σ) (Option Pass) := do
  let id := candidate.id
  let now ← lift (deps.now .discovery .deciding id)
  let usage ← lift (deps.getUsage .discovery id)
  let memo ← lift (deps.getFamilyWeeklyMemo .discovery id)
  if account.anthropicAutoApplyBankedResetsEnabled || (account.anthropicAutoApplyBankedResetOnWeeklyLimitEnabled &&
      (FAMILY_PRIORITY.any (fun family => (memo family).isSome) || !(atLimitWeeklyWindows usage memo none).isEmpty)) then
    let _ ← lift (deps.refreshStatus .discovery id false)
    discovered usage memo now
  else discovered usage memo now
where
  discovered (usage : Option UsageData) (memo : FamilyWeeklyMemo) (now : Int) : Fallible (Memory × σ) (Option Pass) := do
    let id := candidate.id
    let status ← lift (deps.getCachedStatus .discovery id)
    match discover account status usage memo now with
    | none => return none
    | some discovery =>
      if status.any (!·.eligible) then
        let due ← lift (deps.statusNeedsRefresh .discovery id)
        if due then act discovery status usage memo else return none
      else act discovery status usage memo
  act (discovery : Discovery) (status : Option AnthropicBankedResetStatus) (usage : Option UsageData)
      (memo : FamilyWeeklyMemo) : Fallible (Memory × σ) (Option Pass) := do
    match discovery with
    | .weekly windows =>
      let proposal ← weeklyProposal deps candidate status windows usage memo
      return proposal.map .proposal
    | .expiry =>
      let decision ← confirm deps .confirmation candidate
      match decision with
      | none => return none
      | some decision =>
        match decision.kind with
        | .weeklyLimit _ resetsAt _ => return some (.proposal ⟨candidate,some resetsAt,decision.grantEndsAt⟩)
        | .expiry =>
          let _ ← claimAndDispatch deps .confirmation candidate decision
          return none

def processAccount (candidate : Candidate) : Fallible (Memory × σ) (Option Pass) := do
  let id := candidate.id
  let account ← lift (deps.getAccount .visit id)
  match account with
  | none => return none
  | some account =>
    let allPending ← lift (deps.getPendingAttempts id)
    let pending := allPending.filter (fun row => row.trigger == .auto)
    let now ← lift (deps.now .visit .deciding id)
    let held := if pending.any (fun row => row.cause == some .weeklyLimit && mayReplay account row) then some Pass.weeklyHeld else none
    -- A backed-off claim holds the account until it is due.
    if pending.any (fun row => row.nextAttemptAt.any (fun nextAttemptAt => decide (nextAttemptAt > now))) then return held
    else match pending.find? (mayReplay account) with
      | some row =>
        dispatch deps .visit id ⟨row.grantId,row.requestId,row.id,row.cause.getD .expiry,true⟩
        return held
      | none => if allPending.isEmpty then propose deps candidate account else return none

def firstPass : List Candidate → List WeeklyProposal → Bool → Fallible (Memory × σ) (List WeeklyProposal × Bool)
  | [],weekly,weeklyHeld => return (weekly,weeklyHeld)
  | candidate::rest,weekly,weeklyHeld => do
    let pass ← recover (processAccount deps candidate) (pure none)
    match pass with
    | some .weeklyHeld => firstPass rest weekly true
    | some (.proposal proposal) => firstPass rest (weekly ++ [proposal]) weeklyHeld
    | none => firstPass rest weekly weeklyHeld

def rank (proposal : WeeklyProposal) : Fallible (Memory × σ) Bool := do
  let decision ← confirm deps .ranked proposal.candidate
  match decision with
  | none => return false
  | some decision =>
    let claimed ← claimAndDispatch deps .ranked proposal.candidate decision
    return claimed && decision.kind.cause == .weeklyLimit

def rankPass : List WeeklyProposal → Fallible (Memory × σ) Unit
  | [] => return ()
  | proposal::rest => do
    let dispatched ← recover (rank deps proposal) (pure false)
    if dispatched then return () else rankPass rest

def sweep : Fallible (Memory × σ) Unit :=
  recover (do
    let _ ← lift deps.expireStaleAttempts
    return ()) (pure ())

def visitAll (candidates : List Candidate) : Fallible (Memory × σ) Unit := do
  let memory ← remembered
  remember { memory with readThisTick := [] }
  let (weekly,weeklyHeld) ← firstPass deps candidates [] false
  if weeklyHeld then return ()
  else rankPass deps (weekly.insertionSort (fun a b => compareWeeklyProposals a b ≤ 0))

def tick : Fallible (Memory × σ) Unit := do
  sweep deps
  let candidates ← recover (do
    let candidates ← lift deps.listCandidateAccounts
    return some candidates) (pure none)
  match candidates with
  | none => return ()
  | some candidates => visitAll deps candidates

end
section
variable {σ α : Type} {I P : σ → Prop} {Q : α → σ → Prop} {E : Failure → σ → Prop} {F : Failure → Prop} {prog : Fallible σ α}

theorem ensuresLift (ensures : Ensures P prog Q E) :
    Ensures (fun s : Memory × σ => P s.2) (lift prog) (fun a s => Q a s.2) (fun e s => E e s.2) := by
  intro s start
  have done := ensures s.2 start
  unfold lift
  cases run : prog s.2 with
  | mk result t =>
    rw [run] at done
    cases result <;> exact done

theorem keepsLift (keeps : Keeps F I prog) : Keeps F (fun s : Memory × σ => I s.2) (lift prog) := ensuresLift keeps

theorem keepsRemembered : Keeps F (fun s : Memory × σ => I s.2) remembered := fun _ here => here

theorem keepsRemember {memory} : Keeps F (fun s : Memory × σ => I s.2) (remember memory) := fun _ here => here

end

structure Deps.ReadsKeep {σ : Type} (deps : Deps σ) (F : Failure → Prop) (I : σ → Prop) (id : String) : Prop where
  getAccount : ∀ site, Keeps F I (deps.getAccount site id)
  getCachedStatus : ∀ site, Keeps F I (deps.getCachedStatus site id)
  refreshStatus : ∀ site force, Keeps F I (deps.refreshStatus site id force)
  getAutoApplyCooldownAnchorAt : ∀ site, Keeps F I (deps.getAutoApplyCooldownAnchorAt site id)
  getRearmAt : ∀ site, Keeps F I (deps.getRearmAt site id)
  statusNeedsRefresh : ∀ site, Keeps F I (deps.statusNeedsRefresh site id)
  getUsage : ∀ site, Keeps F I (deps.getUsage site id)
  getFamilyWeeklyMemo : ∀ site, Keeps F I (deps.getFamilyWeeklyMemo site id)
  hasOtherAvailableAccount : ∀ site windows, Keeps F I (deps.hasOtherAvailableAccount site id windows)
  now : ∀ site moment, Keeps F I (deps.now site moment id)

structure Deps.KeepFor {σ : Type} (deps : Deps σ) (F : Failure → Prop) (I : σ → Prop) (id : String) : Prop extends deps.ReadsKeep F I id where
  getPendingAttempts : Keeps F I (deps.getPendingAttempts id)
  claimAutoAttempt : ∀ site input, input.accountId = id → Keeps F I (deps.claimAutoAttempt site input)
  dispatchClaim : ∀ site request, Keeps F I (deps.dispatchClaim site id request)

namespace Deps.ReadsKeep
variable {σ : Type} {deps : Deps σ} {F : Failure → Prop} {I : σ → Prop} {id : String}

theorem evaluateAfter {P} (keep : deps.ReadsKeep F I id) (site : Site)
    (first : Ensures P (lift (deps.getAccount site id)) (fun _ s => I s.2) (fun e s => F e ∧ I s.2)) :
    Ensures P (BankedReset.evaluate deps site id) (fun _ s => I s.2) (fun e s => F e ∧ I s.2) := by
  refine first.bind fun account => ?_
  cases account with
  | none => exact keepsPure
  | some account =>
    refine (keepsLift (keep.now site .deciding)).bind fun _ => (keepsLift (keep.getCachedStatus site)).bind fun _ => ?_
    refine (keepsLift (keep.getAutoApplyCooldownAnchorAt site)).bind fun _ => (keepsLift (keep.getRearmAt site)).bind fun _ => ?_
    refine (keepsLift (keep.getUsage site)).bind fun _ => (keepsLift (keep.getFamilyWeeklyMemo site)).bind fun _ => ?_
    dsimp only
    split
    · split
      · exact keepsPure
      · refine (keepsLift (keep.hasOtherAvailableAccount site _)).bind fun other => ?_
        cases other <;> exact keepsPure
    · exact keepsPure

theorem evaluate (keep : deps.ReadsKeep F I id) (site : Site) : Keeps F (fun s : Memory × σ => I s.2) (evaluate deps site id) :=
  keep.evaluateAfter site (keepsLift (keep.getAccount site))

theorem readForConfirm (keep : deps.ReadsKeep F I id) (site : Site) :
    Keeps F (fun s : Memory × σ => I s.2) (readForConfirm deps site id) := by
  refine keepsRemembered.bind fun memory => ?_
  split
  · exact keepsPure
  · refine (keepsLift (keep.now site .reading)).bind fun now => ?_
    split
    · exact keepsPure
    · refine keepsRemember.bind fun _ => (keepsLift (keep.refreshStatus site true)).bind fun refreshed => ?_
      cases refreshed with
      | false => exact keepsPure
      | true => exact keepsRemember.bind fun _ => keepsPure

theorem confirm {candidate} (keep : deps.ReadsKeep F I candidate.id) (site : Site) :
    Keeps F (fun s : Memory × σ => I s.2) (confirm deps site candidate) := by
  refine (keep.readForConfirm site).bind fun ready => ?_
  cases ready with
  | false => exact keepsPure
  | true =>
    refine (keep.evaluate site).bind fun decision => ?_
    split <;> exact keepsPure

theorem weeklyProposal {candidate} (keep : deps.ReadsKeep F I candidate.id) (status : Option AnthropicBankedResetStatus)
    (windows : List AnthropicBankedResetWindow) (usage : Option UsageData) (memo : FamilyWeeklyMemo) :
    Keeps F (fun s : Memory × σ => I s.2) (weeklyProposal deps candidate status windows usage memo) := by
  refine (keepsLift (keep.now .proposal .deciding)).bind fun now => ?_
  dsimp only
  split
  · exact keepsPure
  · refine (keepsLift (keep.getAutoApplyCooldownAnchorAt .proposal)).bind fun anchor => ?_
    split
    · exact keepsPure
    · split
      · refine (keepsLift (keep.hasOtherAvailableAccount .proposal _)).bind fun other => ?_
        cases other <;> exact keepsPure
      · exact keepsPure

end Deps.ReadsKeep

namespace Deps.KeepFor
variable {σ : Type} {deps : Deps σ} {F : Failure → Prop} {I : σ → Prop} {candidate : Candidate}

theorem dispatch {id} (keep : deps.KeepFor F I id) (site : Site) (request : ClaimRequest) :
    Keeps F (fun s : Memory × σ => I s.2) (dispatch deps site id request) :=
  (keepsLift (keep.dispatchClaim site request)).recover keepsPure

theorem claimAndDispatch (keep : deps.KeepFor F I candidate.id) (site : Site) (decision : BankedResetClaimDecision) :
    Keeps F (fun s : Memory × σ => I s.2) (claimAndDispatch deps site candidate decision) := by
  refine (keepsLift (keep.now site .claiming)).bind fun now => (keepsLift (keep.claimAutoAttempt site _ rfl)).bind fun claim => ?_
  cases claim with
  | none => exact keepsPure
  | some claim => exact (keep.dispatch site _).bind fun _ => keepsPure

theorem propose (keep : deps.KeepFor F I candidate.id) (account : Account) :
    Keeps F (fun s : Memory × σ => I s.2) (propose deps candidate account) := by
  have act : ∀ discovery status usage memo,
      Keeps F (fun s : Memory × σ => I s.2) (propose.act deps candidate discovery status usage memo) := by
    intro discovery status usage memo
    cases discovery with
    | weekly windows => exact (keep.weeklyProposal status windows usage memo).bind fun _ => keepsPure
    | expiry =>
      refine (keep.confirm .confirmation).bind fun decision => ?_
      cases decision with
      | none => exact keepsPure
      | some decision =>
        dsimp only
        split
        · exact keepsPure
        · exact (keep.claimAndDispatch .confirmation decision).bind fun _ => keepsPure
  have discovered : ∀ usage memo now,
      Keeps F (fun s : Memory × σ => I s.2) (propose.discovered deps candidate account usage memo now) := by
    intro usage memo now
    refine (keepsLift (keep.getCachedStatus .discovery)).bind fun status => ?_
    split
    · exact keepsPure
    · split
      · refine (keepsLift (keep.statusNeedsRefresh .discovery)).bind fun due => ?_
        cases due with
        | true => exact act _ _ _ _
        | false => exact keepsPure
      · exact act _ _ _ _
  refine (keepsLift (keep.now .discovery .deciding)).bind fun now => (keepsLift (keep.getUsage .discovery)).bind fun usage => ?_
  refine (keepsLift (keep.getFamilyWeeklyMemo .discovery)).bind fun memo => ?_
  split
  · exact (keepsLift (keep.refreshStatus .discovery false)).bind fun _ => discovered _ _ _
  · exact discovered _ _ _

theorem processAccount (keep : deps.KeepFor F I candidate.id) :
    Keeps F (fun s : Memory × σ => I s.2) (processAccount deps candidate) := by
  refine (keepsLift (keep.getAccount .visit)).bind fun account => ?_
  cases account with
  | none => exact keepsPure
  | some account =>
    refine (keepsLift keep.getPendingAttempts).bind fun allPending => (keepsLift (keep.now .visit .deciding)).bind fun now => ?_
    dsimp only
    split
    · exact keepsPure
    · split
      · exact (keep.dispatch .visit _).bind fun _ => keepsPure
      · split
        · exact keep.propose account
        · exact keepsPure

theorem rankAfter {P proposal} (keep : deps.KeepFor F I proposal.candidate.id)
    (first : Ensures P (BankedReset.confirm deps .ranked proposal.candidate) (fun _ s => I s.2) (fun e s => F e ∧ I s.2)) :
    Ensures P (rank deps proposal) (fun _ s => I s.2) (fun e s => F e ∧ I s.2) := by
  refine first.bind fun decision => ?_
  cases decision with
  | none => exact keepsPure
  | some decision => exact (keep.claimAndDispatch .ranked decision).bind fun _ => keepsPure

theorem rank {proposal} (keep : deps.KeepFor F I proposal.candidate.id) :
    Keeps F (fun s : Memory × σ => I s.2) (rank deps proposal) := keep.rankAfter (keep.confirm .ranked)

theorem rankPass {proposals} (keep : ∀ proposal ∈ proposals, deps.KeepFor F I proposal.candidate.id) :
    Keeps F (fun s : Memory × σ => I s.2) (rankPass deps proposals) := by
  induction proposals with
  | nil => exact keepsPure
  | cons proposal rest ih =>
    refine ((keep proposal (.head _)).rank.recover keepsPure).bind fun dispatched => ?_
    cases dispatched with
    | true => exact keepsPure
    | false => exact ih fun other its => keep other (.tail _ its)

end Deps.KeepFor
end Clankermux.BankedReset
