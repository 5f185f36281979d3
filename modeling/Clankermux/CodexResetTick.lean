import Clankermux.CodexResetApplier

/-! One tick of the Codex applier in a world where every dependency may answer anything or
throw, and where others write to the ledger between its calls. -/
namespace Clankermux.CodexReset
open Fallible

inductive Call where
  | getPendingAttempt
  | getAccount
  | getCachedCredits
  | refreshCredits
  | getTerminallyResolvedCreditIds
  | getWeeklyWindow
  | hasOtherAvailableCodexAccount
  | getAutoApplyCooldownAnchorAt
  | latest
  | insert
  | winner
  | dispatchConsume
  | withdrawPendingAttempt
  deriving DecidableEq

def Statement.call : Statement → Call
  | .latest => .latest
  | .insert => .insert
  | .winner => .winner

inductive Change where
  | resolve (id : String) (status : ResolvedStatus) (now : Int)
  | manual (id accountId : String) (creditId : Option String) (idempotencyKey : String) (status : ResolvedStatus) (now : Int)

def Ledger.change (ledger : Ledger) : Change → Ledger
  | .resolve id status now => ledger.resolveAttempt id status now
  | .manual id accountId creditId idempotencyKey status now => ledger.recordManual id accountId creditId idempotencyKey status now

def Ledger.changed (ledger : Ledger) (changes : List Change) : Ledger := changes.foldl Ledger.change ledger

structure Answers where
  changes : Call → List Change
  throws : Call → Bool
  lands : Call → Bool
  account : Option Account
  credits : Option (List CodexRateLimitResetCredit)
  refreshed : Bool
  terminallyResolvedCreditIds : List String
  weeklyWindow : WeeklyWindowReading
  otherAvailable : Bool
  cooldownAnchorAt : Option Int
  now : Moment → Int
  outcome : DispatchOutcome

/-- `candidates` is `none` where listing them throws. -/
structure Env where
  candidates : Option (List Candidate)
  answers : Site → String → Answers

structure Dispatched where
  site : Site
  accountId : String
  request : ConsumeRequest
  deriving DecidableEq

structure World where
  ledger : Ledger
  dispatched : List Dispatched
  calls : List (Site × String × Call)
  deriving DecidableEq

def World.start (ledger : Ledger) : World := ⟨ledger,[],[]⟩

def Dispatched.freshWeekly (dispatched : Dispatched) : Bool :=
  !dispatched.request.reused && dispatched.request.cause == .weeklyLimit

def World.freshWeekly (w : World) : List Dispatched := w.dispatched.filter (·.freshWeekly)

namespace Env
variable (env : Env)

def call {α : Type} (site : Site) (id : String) (c : Call) (effect : Ledger → α × Ledger) : Fallible World α := fun w =>
  let answers := env.answers site id
  let ledger := w.ledger.changed (answers.changes c)
  let done := effect ledger
  let calls := w.calls ++ [(site,id,c)]
  if answers.throws c then (.error .thrown,{ w with ledger := if answers.lands c then done.2 else ledger, calls := calls })
  else (.ok done.1,{ w with ledger := done.2, calls := calls })

def read {α : Type} (site : Site) (id : String) (c : Call) (answer : Answers → α) : Fallible World α :=
  env.call site id c (fun ledger => (answer (env.answers site id),ledger))

def record (dispatched : Dispatched) : Fallible World Unit := fun w =>
  (.ok (),{ w with dispatched := w.dispatched ++ [dispatched] })

def deps : Deps World where
  listCandidateAccounts := fun w => match env.candidates with
    | none => (.error .thrown,w)
    | some candidates => (.ok candidates,w)
  getAccount := fun site id => env.read site id .getAccount (·.account)
  getCachedCredits := fun site id => env.read site id .getCachedCredits (·.credits)
  refreshCredits := fun site id _ => env.read site id .refreshCredits (·.refreshed)
  getPendingAttempt := fun id => env.call .visit id .getPendingAttempt (fun ledger => (ledger.findPendingForAccount id,ledger))
  getTerminallyResolvedCreditIds := fun site id =>
    env.read site id .getTerminallyResolvedCreditIds (·.terminallyResolvedCreditIds)
  getWeeklyWindow := fun site id => env.read site id .getWeeklyWindow (·.weeklyWindow)
  hasOtherAvailableCodexAccount := fun site id => env.read site id .hasOtherAvailableCodexAccount (·.otherAvailable)
  getAutoApplyCooldownAnchorAt := fun site id => env.read site id .getAutoApplyCooldownAnchorAt (·.cooldownAnchorAt)
  claimAutoAttempt := fun site input => CodexReset.claimAutoAttempt (fun statement => env.call site input.accountId statement.call) input
  dispatchConsume := fun site id request => do
    record ⟨site,id,request⟩
    env.read site id .dispatchConsume (·.outcome)
  withdrawPendingAttempt := fun site id rowId => env.call site id .withdrawPendingAttempt (·.withdrawPendingAttempt rowId)
  now := fun site moment id => fun w => (.ok ((env.answers site id).now moment),w)

def visits : List Candidate → World → List (Candidate × World)
  | [],_ => []
  | candidate::rest,w =>
    (candidate,w) :: visits rest (recover (processAccount env.deps candidate) (pure none) w).2

def ledgerAt (candidate : Candidate) (w : World) : Ledger :=
  w.ledger.changed ((env.answers .visit candidate.id).changes .getPendingAttempt)

def Allowed (id : String) (row : CodexResetCreditEventRow) : Prop :=
  (∃ before, (env.answers .before id).account = some before ∧ before.disabled = false) ∧
    (∃ account, (env.answers .visit id).account = some account ∧ replayable account = true ∧ mayReplay account row = true) ∧
      ∃ creditId, row.creditId = some creditId ∧ creditId ≠ ""

def Holds (candidate : Candidate) (w : World) : Prop :=
  (env.answers .visit candidate.id).throws .getPendingAttempt = false ∧
    ∃ row ∈ env.ledgerAt candidate w, row.unresolvedFor candidate.id = true ∧ row.cause = some .weeklyLimit ∧
      env.Allowed candidate.id row

def decided (site : Site) (id : String) : Option ResetCreditApplyDecision :=
  let answers := env.answers site id
  answers.account.map fun account => decideResetCreditAction
    { account := account
      credits := answers.credits
      terminallyResolvedCreditIds := answers.terminallyResolvedCreditIds
      weeklyUsedPercent := answers.weeklyWindow.usedPercent
      weeklyResetsAt := answers.weeklyWindow.resetsAt
      autoApplyCooldownAnchorAt := answers.cooldownAnchorAt
      now := answers.now .deciding }

def TurnsWeekly (id : String) : Prop :=
  (∃ creditId expiresAt, env.decided .discovery id = some (.consume creditId expiresAt .expiry)) ∧
    ∃ creditId expiresAt, env.decided .confirmation id = some (.consume creditId expiresAt .weeklyLimit)

structure Undisturbed (candidate : Candidate) (w : World) : Prop where
  held : ∀ row, (env.ledgerAt candidate w).findPendingForAccount candidate.id = some row → row.cause = some .weeklyLimit →
    env.Allowed candidate.id row → (env.answers .before candidate.id).throws .getAccount = false ∧
      (env.answers .visit candidate.id).throws .refreshCredits = false ∧
      (env.answers .visit candidate.id).throws .getAccount = false
  turned : (env.ledgerAt candidate w).findPendingForAccount candidate.id = none → ¬ env.TurnsWeekly candidate.id

def listed : List Candidate := env.candidates.getD []

def final (ledger : Ledger) : World := (tick env.deps (World.start ledger)).2

structure OneWeekly (ledger : Ledger) : Prop where
  once : (env.final ledger).freshWeekly.length ≤ 1
  held : (∃ v ∈ env.visits env.listed (World.start ledger), env.Holds v.1 v.2) → (env.final ledger).freshWeekly = []
  -- Only a pending weekly-limit attempt takes the slot from the proposals,
  taken : ∀ weekly, (firstPass env.deps env.listed [] false (World.start ledger)).1 = .ok (weekly,true) →
    ∃ v ∈ env.visits env.listed (World.start ledger), env.Holds v.1 v.2
  -- and an expiry claim of one proposal leaves it to the next.
  slot : ∀ weekly, (firstPass env.deps env.listed [] false (World.start ledger)).1 = .ok (weekly,false) →
    (∀ d ∈ (env.final ledger).dispatched, d.site = .ranked → d.request.cause = .expiry) →
    ∀ proposal ∈ weekly, (Site.ranked,proposal.candidate.id,Call.refreshCredits) ∈ (env.final ledger).calls

end Env
end Clankermux.CodexReset
