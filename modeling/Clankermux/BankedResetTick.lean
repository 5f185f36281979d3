import Clankermux.BankedResetApplier

/-! One tick of the Anthropic applier in a world where every dependency may answer anything or
throw, where time passes in every call, and where others write to the ledger between them. -/
namespace Clankermux.BankedReset
open Fallible
open CodexReset (Account Candidate)

inductive Call where
  | getPendingAttempts
  | getAccount
  | getCachedStatus
  | refreshStatus
  | getAutoApplyCooldownAnchorAt
  | getRearmAt
  | statusNeedsRefresh
  | getUsage
  | getFamilyWeeklyMemo
  | hasOtherAvailableAccount
  | latest
  | insert
  | winner
  | dispatchClaim
  | now
  deriving DecidableEq

def Statement.call : Statement → Call
  | .latest => .latest
  | .insert => .insert
  | .winner => .winner

inductive Change where
  | resolve (id : String) (status : ResolvedStatus) (reason : Option String) (now : Int)
  | defer (id : String) (nextAttemptAt : Int)
  | expire (now : Int)
  | manual (input : ManualInput) (id : String)

def Ledger.change (ledger : Ledger) : Change → Ledger
  | .resolve id status reason now => (ledger.resolveAttempt id status reason now).2
  | .defer id nextAttemptAt => (ledger.setNextAttemptAt id nextAttemptAt).2
  | .expire now => (ledger.expireStalePending now).2
  | .manual input id => (ledger.insertManual input id).2

def Ledger.changed (ledger : Ledger) (changes : List Change) : Ledger := changes.foldl Ledger.change ledger

structure Answers where
  changes : Call → List Change
  elapsed : Call → Nat
  throws : Call → Bool
  lands : Call → Bool
  account : Option Account
  status : Option AnthropicBankedResetStatus
  refreshed : Bool
  cooldownAnchorAt : Option Int
  rearmAt : Option Int
  needsRefresh : Bool
  usage : Option UsageData
  memo : FamilyWeeklyMemo
  otherAvailable : Bool
  requestId : String

/-- `candidates` is `none` where listing them throws; the sweep may throw, with or without effect. -/
structure Env where
  candidates : Option (List Candidate)
  answers : Site → String → Answers
  sweepThrows : Bool
  sweepLands : Bool

structure Dispatched where
  site : Site
  accountId : String
  request : ClaimRequest
  at_ : Int
  row : Option AnthropicBankedResetEventRow

structure World where
  now : Int
  ledger : Ledger
  dispatched : List Dispatched
  calls : List (Site × String × Call)

def World.start (now : Int) (ledger : Ledger) : World := ⟨now,ledger,[],[]⟩

def Dispatched.freshWeekly (dispatched : Dispatched) : Bool :=
  !dispatched.request.replay && dispatched.request.cause == .weeklyLimit

def World.freshWeekly (w : World) : List Dispatched := w.dispatched.filter (·.freshWeekly)

def Dispatched.Due (dispatched : Dispatched) : Prop :=
  dispatched.request.replay = true → ∀ row ∈ dispatched.row, ∀ nextAttemptAt ∈ row.nextAttemptAt, nextAttemptAt ≤ dispatched.at_

namespace Env
variable (env : Env)

def call {α : Type} (site : Site) (id : String) (c : Call) (effect : Ledger → α × Ledger) : Fallible World α := fun w =>
  let answers := env.answers site id
  let ledger := w.ledger.changed (answers.changes c)
  let done := effect ledger
  let later := { w with
    now := w.now + answers.elapsed c
    calls := w.calls ++ [(site,id,c)] }
  if answers.throws c then (.error .thrown,{ later with ledger := if answers.lands c then done.2 else ledger })
  else (.ok done.1,{ later with ledger := done.2 })

def read {α : Type} (site : Site) (id : String) (c : Call) (answer : Answers → α) : Fallible World α :=
  env.call site id c (fun ledger => (answer (env.answers site id),ledger))

def record (site : Site) (id : String) (request : ClaimRequest) : Fallible World Unit := fun w =>
  (.ok (),{ w with dispatched :=
    w.dispatched ++ [⟨site,id,request,w.now,w.ledger.find? (fun row => row.id == request.ledgerRowId)⟩] })

def deps : Deps World where
  listCandidateAccounts := fun w => match env.candidates with
    | none => (.error .thrown,w)
    | some candidates => (.ok candidates,w)
  expireStaleAttempts := fun w =>
    let done := w.ledger.expireStalePending w.now
    if env.sweepThrows then (.error .thrown,if env.sweepLands then { w with ledger := done.2 } else w)
    else (.ok done.1,{ w with ledger := done.2 })
  getAccount := fun site id => env.read site id .getAccount (·.account)
  getCachedStatus := fun site id => env.read site id .getCachedStatus (·.status)
  refreshStatus := fun site id _ => env.read site id .refreshStatus (·.refreshed)
  getPendingAttempts := fun id => env.call .visit id .getPendingAttempts (fun ledger => (ledger.findPendingForAccount id,ledger))
  getAutoApplyCooldownAnchorAt := fun site id => env.read site id .getAutoApplyCooldownAnchorAt (·.cooldownAnchorAt)
  getRearmAt := fun site id => env.read site id .getRearmAt (·.rearmAt)
  statusNeedsRefresh := fun site id => env.read site id .statusNeedsRefresh (·.needsRefresh)
  getUsage := fun site id => env.read site id .getUsage (·.usage)
  getFamilyWeeklyMemo := fun site id => env.read site id .getFamilyWeeklyMemo (·.memo)
  hasOtherAvailableAccount := fun site id _ => env.read site id .hasOtherAvailableAccount (·.otherAvailable)
  claimAutoAttempt := fun site input => BankedReset.claimAutoAttempt
    (fun statement => env.call site input.accountId statement.call) input (env.answers site input.accountId).requestId
  dispatchClaim := fun site id request => do
    record site id request
    env.read site id .dispatchClaim (fun _ => ())
  now := fun site _ id => fun w => (.ok w.now,{ w with calls := w.calls ++ [(site,id,.now)] })

def visits : List Candidate → Memory × World → List (Candidate × World)
  | [],_ => []
  | candidate::rest,s =>
    (candidate,s.2) :: visits rest (recover (processAccount env.deps candidate) (pure none) s).2

def ledgerAt (candidate : Candidate) (w : World) : Ledger :=
  let answers := env.answers .visit candidate.id
  (w.ledger.changed (answers.changes .getAccount)).changed (answers.changes .getPendingAttempts)

def Holds (candidate : Candidate) (w : World) : Prop :=
  let answers := env.answers .visit candidate.id
  answers.throws .getAccount = false ∧ answers.throws .getPendingAttempts = false ∧ ∃ account, answers.account = some account ∧
    ∃ row ∈ env.ledgerAt candidate w, row.pendingOf candidate.id = true ∧ row.trigger = .auto ∧ row.cause = some .weeklyLimit ∧
      mayReplay account row = true

def listed : List Candidate := env.candidates.getD []

def opened (s : Memory × World) : Memory × World :=
  let swept := (sweep env.deps s).2
  ({ swept.1 with readThisTick := [] },swept.2)

def final (s : Memory × World) : World := (tick env.deps s).2.2

def Tried (proposal : WeeklyProposal) (w : World) : Prop :=
  (Site.ranked,proposal.candidate.id,Call.now) ∈ w.calls ∨ (Site.ranked,proposal.candidate.id,Call.getAccount) ∈ w.calls

structure OneWeekly (s : Memory × World) : Prop where
  once : (env.final s).freshWeekly.length ≤ 1
  held : (∃ v ∈ env.visits env.listed (env.opened s), env.Holds v.1 v.2) → (env.final s).freshWeekly = []
  due : ∀ d ∈ (env.final s).dispatched, d.Due
  -- Only a pending weekly-limit attempt takes the slot from the proposals,
  taken : ∀ weekly, (firstPass env.deps env.listed [] false (env.opened s)).1 = .ok (weekly,true) →
    ∃ v ∈ env.visits env.listed (env.opened s), env.Holds v.1 v.2
  -- and an expiry claim of one proposal leaves it to the next.
  slot : ∀ weekly, (firstPass env.deps env.listed [] false (env.opened s)).1 = .ok (weekly,false) →
    (∀ d ∈ (env.final s).dispatched, d.site = .ranked → d.request.cause = .expiry) →
    ∀ proposal ∈ weekly, Tried proposal (env.final s)

end Env
end Clankermux.BankedReset
