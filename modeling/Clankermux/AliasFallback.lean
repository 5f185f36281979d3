import Clankermux.InsertionMap
import Clankermux.Machine

/-! The alias stages of a request: one plan, frozen, whose stages are tried one after another. -/
namespace Clankermux.AliasFallback

inductive Outcome where
  | retryable429 | hard429 | modelQuotaExhausted | auth | orgPermissionDenied | overload529 | overloadSuppressed
  | modelNotFound | modelRouteRestricted | modelNotEntitled | modelSubstituted | serverError
  | networkError (beforeDispatch : Bool)
  | invalidRequest | sdkBridgeUnavailable | sdkBridgeExtraUsage | sdkBridgeVersionTooOld | other
  deriving DecidableEq

@[grind] def aliasFallbackReason : Outcome → Option String
  | .hard429 | .modelQuotaExhausted => some "quota_exhausted"
  | .retryable429 => some "rate_limited"
  | .overload529 | .overloadSuppressed => some "provider_overloaded"
  | .serverError | .sdkBridgeUnavailable => some "temporarily_unavailable"
  | .sdkBridgeExtraUsage => some "extra_usage_exhausted"
  | .sdkBridgeVersionTooOld => some "claude_code_version_too_old"
  | .networkError beforeDispatch => if beforeDispatch then none else some "temporarily_unavailable"
  | _ => none

structure Account where
  id : String
  provider : String
  refreshToken : Option String
  deriving DecidableEq

def isOAuthAnthropicAccount (account : Account) : Bool :=
  account.provider = "anthropic" && account.refreshToken.any (· ≠ "")

structure Stage where
  targetIndex : Option Nat
  admissionError : Option String
  accountIds : List String
  deriving DecidableEq

abbrev Placed := Stage × Nat

def rejected (stage : Placed) : Bool := stage.1.admissionError.isSome

def admissibleAliasStages (stages : List Placed) : List Placed := stages.filter (fun stage => !rejected stage)

inductive Ending where
  | response (ok : Bool)
  | failed (outcome : Option Outcome)
  | threw
  deriving DecidableEq

/-- What the loop does, one entry after another. `told` are the answers an attempt got when it asked whether it was the
last one of the alias. -/
inductive Entry where
  | reached (stage : Nat)
  | audited (stage : Nat) (reason : Option String)
  | skipped (stage : Nat) (account : Account)
  | suppressed (stage : Nat) (account : Account)
  | attempted (stage : Nat) (account : Account) (told : List Bool) (ending : Ending)
  | abortSeen
  deriving DecidableEq

structure Gates where
  accounts : List Account
  overloaded : Bool
  throttled : Bool
  familyExcluded : Bool
  contextExcluded : Bool

inductive Selection where
  | selected (accounts : List Account)
  | noPermitted
  | threw

abbrev Moment := List Entry × Nat

structure Env where
  allAccounts : Option (List Account)
  aborted : List Entry → Bool
  select : List Entry → Placed → Selection
  gates : List Entry → List Account → Gates
  isAccountAvailable : Moment → Account → Bool
  wouldSuppressProbe : Moment → Account → Bool
  isProviderOverloaded : Moment → Account → Bool
  burstThrottleActive : Moment → String → Bool
  probeSuppressed : List Entry → Account → Bool
  identityHolds : List Entry → Placed → Account → Bool
  asks : List Entry → Account → Nat
  ending : List Entry → Account → List Bool → Ending
  auditFails : List Entry → Bool
  bridgeRefusal : List Entry → Option Nat

inductive Answer where
  | served (stage : Placed) (ok : Bool)
  | clientAbort
  | noPermitted
  | threw
  | bridgeRefused (status : Nat)
  | unavailable (status : Nat) (message : String)
  deriving DecidableEq

structure Unservable where
  stage : Placed
  reason : Option String
  permission : Bool

structure Progress where
  trace : List Entry
  reason : Option String
  unaudited : List Nat
  unservable : Option Unservable
  servableReached : Bool
  attempts : Nat
  oauthAttempted : Bool

namespace Progress

def log (p : Progress) (entry : Entry) : Progress := { p with trace := p.trace ++ [entry] }

/-- The stage is audited unless it was before; `false` is a throw of the write. -/
def auditStage (env : Env) (p : Progress) (stage : Placed) : Progress × Bool :=
  if !rejected stage || !p.unaudited.contains stage.2 then (p,true)
  else
    ({ p with
      unaudited := p.unaudited.erase stage.2
      trace := p.trace ++ [.audited stage.2 p.reason] },!env.auditFails p.trace)

@[grind] def auditRejected (env : Env) : List Placed → Progress → Progress × Bool
  | [],p => (p,true)
  | stage::rest,p =>
    match p.auditStage env stage with
    | (next,true) => auditRejected env rest next
    | (next,false) => (next,false)

def oauthAccountIds (env : Env) : List String := ((env.allAccounts.getD []).filter isOAuthAnthropicAccount).map (·.id)

def burstSuppressed (env : Env) (p : Progress) (moment : Moment) (accountId : String) : Bool :=
  p.oauthAttempted && (oauthAccountIds env).contains accountId && env.burstThrottleActive moment accountId

def unattemptable (env : Env) (moment : Moment) (account : Account) : Bool :=
  !env.isAccountAvailable moment account || env.wouldSuppressProbe moment account || env.isProviderOverloaded moment account

def isLastAccountAttempt (env : Env) (p : Progress) (moment : Moment) (remaining : List Account) : Bool :=
  (remaining.filter (fun account => !p.burstSuppressed env moment account.id)).all (unattemptable env moment)

def isLastAliasAttempt (env : Env) (p : Progress) (moment : Moment) (remaining : List Account) (laterStages : List Placed) : Bool :=
  p.isLastAccountAttempt env moment remaining && laterStages.all (fun next => next.1.accountIds.all (p.burstSuppressed env moment))

inductive Flow where
  | ended (answer : Answer)
  | exhausted (mayAdvance : Bool) (stageReason : String)

@[grind] def tryAccounts (env : Env) (ordered : List Placed) (stage : Placed) (laterStages : List Placed) :
    List Account → Progress → Bool → String → Progress × Flow
  | [],p,mayAdvance,stageReason => (p,.exhausted mayAdvance stageReason)
  | account::remaining,p,mayAdvance,stageReason =>
    if env.aborted p.trace then (p.log .abortSeen,.ended .clientAbort)
    -- selection can race a sibling request that applies a cooldown
    else if !env.isAccountAvailable (p.trace,0) account then
      tryAccounts env ordered stage laterStages remaining (p.log (.skipped stage.2 account)) mayAdvance stageReason
    else if p.burstSuppressed env (p.trace,0) account.id then
      tryAccounts env ordered stage laterStages remaining (p.log (.skipped stage.2 account)) mayAdvance "rate_limited"
    else if env.probeSuppressed p.trace account then
      tryAccounts env ordered stage laterStages remaining (p.log (.suppressed stage.2 account)) mayAdvance "temporarily_unavailable"
    else
      let begun := { p with
        attempts := p.attempts + 1
        oauthAttempted := p.oauthAttempted || isOAuthAnthropicAccount account }
      -- the target is read before the attempt is made
      if !(stage.1.accountIds.contains account.id && env.identityHolds p.trace stage account) then (begun,.ended .threw)
      else
        let told := (List.range (env.asks p.trace account)).map
          (fun k => begun.isLastAliasAttempt env (p.trace,k) remaining laterStages)
        let done := begun.log (.attempted stage.2 account told (env.ending p.trace account told))
        match env.ending p.trace account told with
        | .threw => (done,.ended .threw)
        | .response true => (done,.ended (.served stage true))
        | .response false =>
          match auditRejected env ordered done with
          | (audited,true) => (audited,.ended (.served stage false))
          | (audited,false) => (audited,.ended .threw)
        | .failed outcome =>
          match outcome.bind aliasFallbackReason with
          | some failure => tryAccounts env ordered stage laterStages remaining done mayAdvance failure
          | none => tryAccounts env ordered stage laterStages remaining done false stageReason

def terminalUnavailable : String := "All alias targets are temporarily unavailable"
def terminalNotRetryable : String := "Alias target failed for a non-retryable reason; model fallback was not used"
def terminalContext : String := "Request exceeds the context capacity of the alias target"

@[grind] def visitStages (env : Env) (ordered : List Placed) : List Placed → Progress → Progress × Except String Answer
  | [],p => (p,.error terminalUnavailable)
  | stage::rest,p =>
    if env.aborted p.trace then (p.log .abortSeen,.ok .clientAbort)
    else
      let here := p.log (.reached stage.2)
      if rejected stage then
        match here.auditStage env stage with
        | (audited,true) => visitStages env ordered rest audited
        | (audited,false) => (audited,.ok .threw)
      else match env.select here.trace stage with
        | .threw => (here,.ok .threw)
        | .noPermitted =>
          visitStages env ordered rest
            { here with
              unservable := here.unservable.or (some ⟨stage,here.reason,true⟩)
              reason := some "pool_unavailable" }
        | .selected selected =>
          let gates := env.gates here.trace selected
          if gates.accounts.isEmpty && gates.contextExcluded then
            visitStages env ordered rest
              { here with
                unservable := here.unservable.or (some ⟨stage,here.reason,false⟩)
                reason := some "pool_unavailable" }
          else
            let stageReason := if gates.familyExcluded || gates.throttled then "quota_exhausted"
              else if gates.overloaded then "provider_overloaded" else "pool_unavailable"
            match tryAccounts env ordered stage (admissibleAliasStages rest) gates.accounts { here with servableReached := true } true stageReason with
            | (tried,.ended answer) => (tried,.ok answer)
            | (tried,.exhausted true stageReason) => visitStages env ordered rest { tried with reason := some stageReason }
            | (tried,.exhausted false _) => (tried,.error terminalNotRetryable)

def giveUp (env : Env) (ordered : List Placed) (p : Progress) (message : String) : Progress × Answer :=
  if env.aborted p.trace then (p.log .abortSeen,.clientAbort)
  else match auditRejected env ordered p with
    | (audited,false) => (audited,.threw)
    | (audited,true) =>
      match audited.unservable,audited.servableReached with
      | some ⟨_,_,true⟩,false => (audited,.noPermitted)
      | some ⟨_,_,false⟩,false => (audited,.unavailable 400 terminalContext)
      | _,_ =>
        match env.bridgeRefusal audited.trace with
        | some status => (audited,.bridgeRefused status)
        | none => (audited,.unavailable 503 message)

end Progress

structure Held where
  targetIndex : Nat
  expires : Int

def preferred (stages : List Placed) (held : Option Held) (now : Int) : Option Placed :=
  match held with
  | none => none
  | some held =>
    if held.expires > now then (admissibleAliasStages stages).find? (fun stage => stage.1.targetIndex = some held.targetIndex) else none

def orderedStages (stages : List Placed) : Option Placed → List Placed
  | some first => first::stages.filter (fun stage => stage.2 ≠ first.2)
  | none => stages

structure Call where
  plan : List Stage
  held : Option Held
  now : Int
  env : Env

namespace Call

def stages (call : Call) : List Placed := call.plan.zipIdx

def first (call : Call) : Option Placed := preferred call.stages call.held call.now

def ordered (call : Call) : List Placed := orderedStages call.stages call.first

def start (call : Call) : Progress :=
  ⟨[],if call.first.isSome then some "conversation_affinity" else none,(call.ordered.filter rejected).map (·.2),none,false,0,false⟩

def handleAliasProxy (call : Call) : Progress × Answer :=
  if (call.plan.head?.bind (·.targetIndex)).isNone || call.env.allAccounts.isNone then (call.start,.threw)
  else match call.start.visitStages call.env call.ordered call.ordered with
    | (p,.ok answer) => (p,answer)
    | (p,.error message) => p.giveUp call.env call.ordered message

def trace (call : Call) : List Entry := call.handleAliasProxy.1.trace

def answer (call : Call) : Answer := call.handleAliasProxy.2

def remembered (call : Call) : Option Nat :=
  match call.answer with
  | .served stage true => stage.1.targetIndex
  | _ => none

end Call

def AFFINITY_TTL_MS : Int := 60 * 60 * 1000
def MAX_AFFINITIES : Nat := 5000

structure AffinityKey where
  partition : Option String
  scope : String
  key : String
  aliasId : String
  revision : Nat
  deriving DecidableEq

def affinityKey (affinityPartition affinityScope affinityKey : Option String) (aliasId : String) (revision : Nat) : Option AffinityKey :=
  match affinityKey,affinityScope with
  | some key,some scope =>
    if key = "" ∨ scope = "" ∨ scope = "project" then none else some ⟨affinityPartition,scope,key,aliasId,revision⟩
  | _,_ => none

abbrev Affinity := InsertionMap AffinityKey Held

def remember (affinity : Affinity) (key : AffinityKey) (targetIndex : Nat) (now : Int) : Affinity :=
  let live := affinity.filter (fun entry => decide (¬ entry.2.expires ≤ now))
  let others := InsertionMap.delete live key
  let room := if others.length ≥ MAX_AFFINITIES then others.drop 1 else others
  InsertionMap.set room key ⟨targetIndex,now + AFFINITY_TTL_MS⟩

inductive AffinityEvent where
  | clearAliasAffinity
  | ended (call : Call) (key : Option AffinityKey) (now : Int)

def affinities : Machine Affinity AffinityEvent where
  init := (· = [])
  step affinity
    | .clearAliasAffinity => some []
    | .ended call key now =>
      match key,call.remembered with
      | some key,some targetIndex => some (remember affinity key targetIndex now)
      | _,_ => some affinity

end Clankermux.AliasFallback
