import Clankermux.CodexResetLedger
import Mathlib.Algebra.Order.Ring.Rat
import Mathlib.Data.List.Sort

/-! The applier of Codex reset credits: one tick over the candidate accounts, with every
dependency a call that may fail. -/
namespace Clankermux.CodexReset
open Fallible

def RESET_CREDIT_AUTO_APPLY_LEAD_MS : Int := 10 * 60 * 1000
def RESET_CREDIT_WEEKLY_LIMIT_COOLDOWN_MS : Int := 60 * 60 * 1000
def RESET_CREDIT_WEEKLY_LIMIT_MIN_GAIN_MS : Int := 12 * 60 * 60 * 1000
def PAUSE_REASON_NEEDS_REAUTH : String := "oauth_invalid_grant"

structure Account where
  provider : String
  disabled : Bool
  refreshToken : String
  paused : Bool
  pauseReason : Option String
  autoPauseOnOverageEnabled : Bool
  codexAutoApplyResetCreditsEnabled : Bool
  codexAutoApplyResetOnWeeklyLimitEnabled : Bool
  anthropicAutoApplyBankedResetsEnabled : Bool
  anthropicAutoApplyBankedResetOnWeeklyLimitEnabled : Bool

inductive CreditStatus where
  | available
  | redeeming
  | redeemed
  | unknown
  deriving DecidableEq

/-- `expiresAt` is in seconds. -/
structure CodexRateLimitResetCredit where
  id : String
  status : CreditStatus
  expiresAt : Option Int

inductive SkipReason where
  | accountDisabled
  | toggleDisabled
  | notCodex
  | needsReauth
  | noTokens
  | noCreditNearExpiry
  | weeklyNotExhausted
  | weeklyResetUnknown
  | naturalResetSoon
  | otherAccountAvailable
  | pendingAttempt
  | paused
  | cooldown
  | noCreditAvailable
  | alreadyResolved
  deriving DecidableEq

inductive ResetCreditApplyDecision where
  | consume (creditId : String) (expiresAt : Option Int) (cause : ResetCreditApplyCause)
  | skip (reason : SkipReason)
  deriving DecidableEq

def weeklyResetCanLiftPause (account : Account) : Bool :=
  if !account.paused then true
  else account.autoPauseOnOverageEnabled && (account.pauseReason == none || account.pauseReason == some "overage")

structure WeeklyWindowReading where
  usedPercent : Option Rat
  resetsAt : Option Int

def soonerExpiry (a b : CodexRateLimitResetCredit) : Bool := match a.expiresAt,b.expiresAt with
  | some x,some y => decide (x ≤ y)
  | none,some _ => false
  | _,none => true

def availableCredits (credits : Option (List CodexRateLimitResetCredit)) (now : Int) : List CodexRateLimitResetCredit :=
  (((credits.getD []).filter (·.status == .available)).filter
    (fun credit => credit.expiresAt.all (fun expiresAt => decide (expiresAt * 1000 > now)))).insertionSort (fun a b => soonerExpiry a b)

structure DecisionInputs where
  account : Account
  credits : Option (List CodexRateLimitResetCredit)
  terminallyResolvedCreditIds : List String
  weeklyUsedPercent : Option Rat
  weeklyResetsAt : Option Int
  autoApplyCooldownAnchorAt : Option Int
  now : Int

namespace DecisionInputs

def survivor (inputs : DecisionInputs) (credits : List CodexRateLimitResetCredit) : Option CodexRateLimitResetCredit :=
  credits.find? (fun credit => !inputs.terminallyResolvedCreditIds.contains credit.id)

def expiryTrigger (inputs : DecisionInputs) (available : List CodexRateLimitResetCredit) : ResetCreditApplyDecision :=
  let nearExpiry := available.filter (fun credit => credit.expiresAt.any
    (fun expiresAt => decide (expiresAt * 1000 - inputs.now ≤ RESET_CREDIT_AUTO_APPLY_LEAD_MS)))
  if nearExpiry.isEmpty then .skip .noCreditNearExpiry
  else match inputs.survivor nearExpiry with
    | some credit => .consume credit.id credit.expiresAt .expiry
    | none => .skip .alreadyResolved

def weeklyTrigger (inputs : DecisionInputs) (available : List CodexRateLimitResetCredit) : ResetCreditApplyDecision :=
  if !weeklyResetCanLiftPause inputs.account then .skip .paused
  else if !inputs.weeklyUsedPercent.any (fun percent => decide (100 ≤ percent)) then .skip .weeklyNotExhausted
  else match inputs.weeklyResetsAt with
    | none => .skip .weeklyResetUnknown
    | some weeklyResetsAt =>
      if weeklyResetsAt - inputs.now < RESET_CREDIT_WEEKLY_LIMIT_MIN_GAIN_MS then .skip .naturalResetSoon
      else if inputs.autoApplyCooldownAnchorAt.any
        (fun anchorAt => decide (inputs.now - anchorAt < RESET_CREDIT_WEEKLY_LIMIT_COOLDOWN_MS)) then .skip .cooldown
      else if available.isEmpty then .skip .noCreditAvailable
      else match inputs.survivor available with
        | some credit => .consume credit.id credit.expiresAt .weeklyLimit
        | none => .skip .alreadyResolved

end DecisionInputs

def decideResetCreditAction (inputs : DecisionInputs) : ResetCreditApplyDecision :=
  let account := inputs.account
  let expiryEnabled := account.codexAutoApplyResetCreditsEnabled
  let weeklyEnabled := account.codexAutoApplyResetOnWeeklyLimitEnabled
  if account.disabled then .skip .accountDisabled
  else if !expiryEnabled && !weeklyEnabled then .skip .toggleDisabled
  else if account.provider != "codex" then .skip .notCodex
  else if account.pauseReason == some PAUSE_REASON_NEEDS_REAUTH then .skip .needsReauth
  else if account.refreshToken == "" then .skip .noTokens
  else
    let available := availableCredits inputs.credits inputs.now
    let expiry := if expiryEnabled then some (inputs.expiryTrigger available) else none
    match expiry with
    | some (.consume creditId expiresAt cause) => .consume creditId expiresAt cause
    | expiry =>
      let weekly := if weeklyEnabled then some (inputs.weeklyTrigger available) else none
      match expiry,weekly with
      | _,some (.consume creditId expiresAt cause) => .consume creditId expiresAt cause
      -- Neither trigger fired: the more telling reason is given.
      | some expirySkip,some weeklySkip => if expirySkip = .skip .alreadyResolved then expirySkip else weeklySkip
      | some expirySkip,none => expirySkip
      | none,some weeklySkip => weeklySkip
      | none,none => .skip .toggleDisabled

structure Candidate where
  id : String
  name : String
  deriving DecidableEq

structure WeeklyProposal where
  candidate : Candidate
  pending : Option CodexResetCreditEventRow
  weeklyResetsAt : Int
  creditExpiresAt : Option Int

def compareWeeklyProposals (a b : WeeklyProposal) : Int :=
  if a.weeklyResetsAt ≠ b.weeklyResetsAt then b.weeklyResetsAt - a.weeklyResetsAt
  else match a.creditExpiresAt,b.creditExpiresAt with
    | none,none => 0
    | none,some _ => 1
    | some _,none => -1
    | some x,some y => x - y

structure ConsumeRequest where
  idempotencyKey : String
  creditId : String
  ledgerRowId : String
  cause : ResetCreditApplyCause
  reused : Bool
  deriving DecidableEq

inductive DispatchOutcome where
  | completed
  | failed (notSent : Bool)

inductive Site where
  | before
  | visit
  | discovery
  | confirmation
  | ranked
  deriving DecidableEq

inductive Moment where
  | deciding
  | claiming
  deriving DecidableEq

structure Deps (σ : Type) where
  listCandidateAccounts : Fallible σ (List Candidate)
  getAccount : Site → String → Fallible σ (Option Account)
  getCachedCredits : Site → String → Fallible σ (Option (List CodexRateLimitResetCredit))
  refreshCredits : Site → String → Bool → Fallible σ Bool
  getPendingAttempt : String → Fallible σ (Option CodexResetCreditEventRow)
  getTerminallyResolvedCreditIds : Site → String → Fallible σ (List String)
  getWeeklyWindow : Site → String → Fallible σ WeeklyWindowReading
  hasOtherAvailableCodexAccount : Site → String → Fallible σ Bool
  getAutoApplyCooldownAnchorAt : Site → String → Fallible σ (Option Int)
  claimAutoAttempt : Site → ClaimInput → Fallible σ (Option CodexResetCreditAutoClaim)
  dispatchConsume : Site → String → ConsumeRequest → Fallible σ DispatchOutcome
  withdrawPendingAttempt : Site → String → String → Fallible σ Bool
  now : Site → Moment → String → Fallible σ Int

inductive Pass where
  | weeklyHeld
  | proposal (proposal : WeeklyProposal)

structure Evaluated where
  decision : ResetCreditApplyDecision
  weeklyResetsAt : Option Int

section
variable {σ : Type} (deps : Deps σ)

def evaluate (site : Site) (accountId : String) (replayedCreditId : Option String) : Fallible σ (Option Evaluated) := do
  let account ← deps.getAccount site accountId
  match account with
  | none => return none
  | some account =>
    let cached ← deps.getCachedCredits site accountId
    let terminallyResolvedCreditIds ← deps.getTerminallyResolvedCreditIds site accountId
    let weeklyWindow ← deps.getWeeklyWindow site accountId
    let cooldownAnchorAt ← deps.getAutoApplyCooldownAnchorAt site accountId
    let now ← deps.now site .deciding accountId
    let decision := decideResetCreditAction
      { account := account
        credits := cached.map (·.filter (fun credit => some credit.id != replayedCreditId))
        terminallyResolvedCreditIds := terminallyResolvedCreditIds
        weeklyUsedPercent := weeklyWindow.usedPercent
        weeklyResetsAt := weeklyWindow.resetsAt
        autoApplyCooldownAnchorAt := cooldownAnchorAt
        now := now }
    match decision with
    | .consume _ _ .weeklyLimit =>
      if replayedCreditId.isSome then return some ⟨.skip .pendingAttempt,weeklyWindow.resetsAt⟩
      else
        let other ← deps.hasOtherAvailableCodexAccount site accountId
        if other then return some ⟨.skip .otherAccountAvailable,weeklyWindow.resetsAt⟩
        else return some ⟨decision,weeklyWindow.resetsAt⟩
    | _ => return some ⟨decision,weeklyWindow.resetsAt⟩

def withdrawUnsentClaim (site : Site) (id : String) (claim : CodexResetCreditAutoClaim) : Fallible σ Bool :=
  recover (deps.withdrawPendingAttempt site id claim.id) (pure false)

def dispatchAttempt (site : Site) (id creditId : String) (cause : ResetCreditApplyCause) (claim : CodexResetCreditAutoClaim) :
    Fallible σ Unit := do
  let outcome ← recover (do
    let outcome ← deps.dispatchConsume site id ⟨claim.idempotencyKey,creditId,claim.id,cause,claim.reused⟩
    return some outcome) (pure none)
  match outcome with
  | some (.failed true) =>
    -- A replay keeps its row: the original send may have landed.
    if claim.reused then return ()
    else
      let _ ← withdrawUnsentClaim deps site id claim
      return ()
  | _ => return ()

def confirmAndDispatch (site : Site) (candidate : Candidate) (pending : Option CodexResetCreditEventRow)
    (replayedCreditId : Option String) : Fallible σ Bool := do
  let id := candidate.id
  let refreshed ← deps.refreshCredits site id true
  if !refreshed then return false
  else
    let confirmed ← evaluate deps site id replayedCreditId
    match confirmed with
    | some ⟨.consume creditId _ cause,_⟩ =>
      if pending.isSome && cause == .weeklyLimit then return false
      else
        let now ← deps.now site .claiming id
        let claim ← deps.claimAutoAttempt site ⟨id,creditId,cause,now⟩
        match claim with
        | none => return false
        | some claim =>
          dispatchAttempt deps site id creditId cause claim
          return cause == .weeklyLimit
    | _ => return false

def discover (candidate : Candidate) (pending : Option CodexResetCreditEventRow) (replayedCreditId : Option String)
    (weeklyHeld : Bool) : Fallible σ (Option Pass) :=
  let held := if weeklyHeld then some Pass.weeklyHeld else none
  recover (do
    let _ ← deps.refreshCredits .discovery candidate.id false
    let evaluated ← evaluate deps .discovery candidate.id replayedCreditId
    match evaluated with
    | some ⟨.consume _ expiresAt cause,weeklyResetsAt⟩ =>
      match cause,weeklyResetsAt with
      | .weeklyLimit,some weeklyResetsAt => return some (.proposal ⟨candidate,pending,weeklyResetsAt,expiresAt⟩)
      | _,_ =>
        let _ ← confirmAndDispatch deps .confirmation candidate pending replayedCreditId
        return held
    | _ => return held) (pure held)

def mayReplay (account : Account) (pending : CodexResetCreditEventRow) : Bool :=
  if pending.cause == some .weeklyLimit
  then account.codexAutoApplyResetOnWeeklyLimitEnabled && weeklyResetCanLiftPause account
  else account.codexAutoApplyResetCreditsEnabled

def replayable (account : Account) : Bool :=
  !account.disabled && account.provider == "codex" && account.refreshToken != "" &&
    account.pauseReason != some PAUSE_REASON_NEEDS_REAUTH

def processAccount (candidate : Candidate) : Fallible σ (Option Pass) := do
  let id := candidate.id
  let pending ← deps.getPendingAttempt id
  match pending with
  | none => discover deps candidate none none false
  | some row =>
    let before ← deps.getAccount .before id
    if !before.any (!·.disabled) then return none
    else
      let reconciled ← deps.refreshCredits .visit id true
      let account ← deps.getAccount .visit id
      match account,row.creditId with
      | some account,some creditId =>
        if !replayable account || creditId == "" then return none
        else if mayReplay account row then
          let weeklyHeld := row.cause == some .weeklyLimit
          if reconciled then
            dispatchAttempt deps .visit id creditId (row.cause.getD .expiry)
              ⟨row.id,row.idempotencyKey,row.attemptSeq.getD 1,true⟩
            discover deps candidate (some row) (some creditId) weeklyHeld
          else discover deps candidate (some row) (some creditId) weeklyHeld
        else discover deps candidate (some row) (if reconciled then none else some creditId) false
      | _,_ => return none

def firstPass : List Candidate → List WeeklyProposal → Bool → Fallible σ (List WeeklyProposal × Bool)
  | [],weekly,weeklyHeld => return (weekly,weeklyHeld)
  | candidate::rest,weekly,weeklyHeld => do
    let pass ← recover (processAccount deps candidate) (pure none)
    match pass with
    | some .weeklyHeld => firstPass rest weekly true
    | some (.proposal proposal) => firstPass rest (weekly ++ [proposal]) weeklyHeld
    | none => firstPass rest weekly weeklyHeld

def rankPass : List WeeklyProposal → Fallible σ Unit
  | [] => return ()
  | proposal::rest => do
    let dispatched ← recover (confirmAndDispatch deps .ranked proposal.candidate proposal.pending none) (pure false)
    if dispatched then return () else rankPass rest

def tick : Fallible σ Unit := do
  let candidates ← recover (do
    let candidates ← deps.listCandidateAccounts
    return some candidates) (pure none)
  match candidates with
  | none => return ()
  | some candidates =>
    let (weekly,weeklyHeld) ← firstPass deps candidates [] false
    if weeklyHeld then return ()
    else rankPass deps (weekly.insertionSort (fun a b => compareWeeklyProposals a b ≤ 0))

end

structure Deps.KeepFor {σ : Type} (deps : Deps σ) (F : Failure → Prop) (I : σ → Prop) (id : String) : Prop where
  getAccount : ∀ site, Keeps F I (deps.getAccount site id)
  getCachedCredits : ∀ site, Keeps F I (deps.getCachedCredits site id)
  refreshCredits : ∀ site force, Keeps F I (deps.refreshCredits site id force)
  getPendingAttempt : Keeps F I (deps.getPendingAttempt id)
  getTerminallyResolvedCreditIds : ∀ site, Keeps F I (deps.getTerminallyResolvedCreditIds site id)
  getWeeklyWindow : ∀ site, Keeps F I (deps.getWeeklyWindow site id)
  hasOtherAvailableCodexAccount : ∀ site, Keeps F I (deps.hasOtherAvailableCodexAccount site id)
  getAutoApplyCooldownAnchorAt : ∀ site, Keeps F I (deps.getAutoApplyCooldownAnchorAt site id)
  claimAutoAttempt : ∀ site input, input.accountId = id → Keeps F I (deps.claimAutoAttempt site input)
  dispatchConsume : ∀ site request, Keeps F I (deps.dispatchConsume site id request)
  withdrawPendingAttempt : ∀ site row, Keeps F I (deps.withdrawPendingAttempt site id row)
  now : ∀ site moment, Keeps F I (deps.now site moment id)

namespace Deps.KeepFor
variable {σ : Type} {deps : Deps σ} {F : Failure → Prop} {I : σ → Prop} {id : String}

theorem evaluate (keep : deps.KeepFor F I id) (site : Site) (replayedCreditId : Option String) :
    Keeps F I (evaluate deps site id replayedCreditId) := by
  refine (keep.getAccount site).bind fun account => ?_
  cases account with
  | none => exact keepsPure
  | some account =>
    refine (keep.getCachedCredits site).bind fun _ => (keep.getTerminallyResolvedCreditIds site).bind fun _ => ?_
    refine (keep.getWeeklyWindow site).bind fun _ => (keep.getAutoApplyCooldownAnchorAt site).bind fun _ => ?_
    refine (keep.now site .deciding).bind fun _ => ?_
    dsimp only
    split
    · split
      · exact keepsPure
      · refine (keep.hasOtherAvailableCodexAccount site).bind fun other => ?_
        cases other <;> exact keepsPure
    · exact keepsPure

theorem dispatchAttempt (keep : deps.KeepFor F I id) (site : Site) (creditId : String) (cause : ResetCreditApplyCause)
    (claim : CodexResetCreditAutoClaim) : Keeps F I (dispatchAttempt deps site id creditId cause claim) := by
  have sent := keep.dispatchConsume site ⟨claim.idempotencyKey,creditId,claim.id,cause,claim.reused⟩
  refine ((sent.bind fun _ => keepsPure).recover keepsPure).bind fun outcome => ?_
  split
  · split
    · exact keepsPure
    · exact ((keep.withdrawPendingAttempt site claim.id).recover keepsPure).bind fun _ => keepsPure
  · exact keepsPure

theorem confirmAfter {P candidate} (keep : deps.KeepFor F I candidate.id) (site : Site)
    (first : Ensures P (deps.refreshCredits site candidate.id true) (fun _ => I) (fun e s => F e ∧ I s))
    (pending : Option CodexResetCreditEventRow) (replayedCreditId : Option String) :
    Ensures P (CodexReset.confirmAndDispatch deps site candidate pending replayedCreditId) (fun _ => I) (fun e s => F e ∧ I s) := by
  refine first.bind fun refreshed => ?_
  cases refreshed with
  | false => exact keepsPure
  | true =>
    refine (keep.evaluate site replayedCreditId).bind fun confirmed => ?_
    split
    · split
      · exact keepsPure
      · refine (keep.now site .claiming).bind fun now => (keep.claimAutoAttempt site _ rfl).bind fun claim => ?_
        cases claim with
        | none => exact keepsPure
        | some claim => exact (keep.dispatchAttempt site _ _ claim).bind fun _ => keepsPure
    · exact keepsPure

theorem confirmAndDispatch (site : Site) (candidate : Candidate) (keep : deps.KeepFor F I candidate.id)
    (pending : Option CodexResetCreditEventRow) (replayedCreditId : Option String) :
    Keeps F I (confirmAndDispatch deps site candidate pending replayedCreditId) :=
  keep.confirmAfter site (keep.refreshCredits site true) pending replayedCreditId

theorem discover (candidate : Candidate) (keep : deps.KeepFor F I candidate.id) (pending : Option CodexResetCreditEventRow)
    (replayedCreditId : Option String) (weeklyHeld : Bool) :
    Keeps F I (discover deps candidate pending replayedCreditId weeklyHeld) := by
  refine Keeps.recover ?_ keepsPure
  refine (keep.refreshCredits .discovery false).bind fun _ => (keep.evaluate .discovery replayedCreditId).bind fun evaluated => ?_
  split
  · split
    · exact keepsPure
    · exact (keep.confirmAndDispatch .confirmation candidate pending replayedCreditId).bind fun _ => keepsPure
  · exact keepsPure

theorem processAccount (candidate : Candidate) (keep : deps.KeepFor F I candidate.id) : Keeps F I (processAccount deps candidate) := by
  refine keep.getPendingAttempt.bind fun pending => ?_
  cases pending with
  | none => exact keep.discover candidate none none false
  | some row =>
    refine (keep.getAccount .before).bind fun before => ?_
    split
    · exact keepsPure
    · refine (keep.refreshCredits .visit true).bind fun reconciled => (keep.getAccount .visit).bind fun account => ?_
      split
      · split
        · exact keepsPure
        · split
          · split
            · exact (keep.dispatchAttempt .visit _ _ _).bind fun _ => keep.discover candidate _ _ _
            · exact keep.discover candidate _ _ _
          · exact keep.discover candidate _ _ _
      · exact keepsPure

theorem rankPass {proposals} (keep : ∀ proposal ∈ proposals, deps.KeepFor F I proposal.candidate.id) :
    Keeps F I (rankPass deps proposals) := by
  induction proposals with
  | nil => exact keepsPure
  | cons proposal rest ih =>
    have first := (keep proposal (.head _)).confirmAndDispatch .ranked proposal.candidate proposal.pending none
    refine (first.recover keepsPure).bind fun dispatched => ?_
    cases dispatched with
    | true => exact keepsPure
    | false => exact ih fun other its => keep other (.tail _ its)

end Deps.KeepFor

end Clankermux.CodexReset
