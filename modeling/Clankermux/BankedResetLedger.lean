import Clankermux.CodexResetLedger
import Mathlib.Data.List.Sort

/-! The ledger of Anthropic banked resets. While any claim of an account is pending no other
request id is recorded for it. -/
namespace Clankermux.BankedReset
open CodexReset (Trigger)

abbrev BankedResetApplyCause := CodexReset.ResetCreditApplyCause

inductive ResolvedStatus where
  | reset
  | alreadyUsed
  | notLimited
  | cooldown
  | ineligible
  | unavailable
  | failed
  deriving DecidableEq

inductive Status where
  | pending
  | resolved (status : ResolvedStatus)
  deriving DecidableEq

structure AnthropicBankedResetEventRow where
  id : String
  accountId : String
  grantId : String
  trigger : Trigger
  cause : Option BankedResetApplyCause
  attemptSeq : Option Nat
  requestId : String
  status : Status
  reason : Option String
  nextAttemptAt : Option Int
  createdAt : Int
  resolvedAt : Option Int

def ANTHROPIC_BANKED_RESET_REPLAY_WINDOW_MS : Int := 10 * 60000

abbrev Ledger := List AnthropicBankedResetEventRow

structure ClaimInput where
  accountId : String
  grantId : String
  cause : BankedResetApplyCause
  now : Int

structure AnthropicBankedResetAutoClaim where
  id : String
  requestId : String
  attemptSeq : Nat
  reused : Bool

structure ManualInput where
  accountId : String
  grantId : String
  requestId : String
  now : Int

namespace AnthropicBankedResetEventRow

def pendingOf (accountId : String) (row : AnthropicBankedResetEventRow) : Bool :=
  row.accountId == accountId && row.status == .pending

/-- What the primary key and the unique indexes do not let in beside `row`. -/
def collides (row other : AnthropicBankedResetEventRow) : Bool :=
  other.id == row.id || (other.accountId == row.accountId && other.requestId == row.requestId) ||
    (row.trigger == .auto && other.trigger == .auto && other.accountId == row.accountId && other.grantId == row.grantId &&
      other.attemptSeq == row.attemptSeq)

def unconfirmed (row : AnthropicBankedResetEventRow) : Bool :=
  row.status == .resolved .failed && row.reason == some "unconfirmed"

end AnthropicBankedResetEventRow

/-- `ORDER BY trigger = 'manual', created_at, id` -/
instance (priority := high) blockingOrder : LinearOrder (Bool ×ₗ Int ×ₗ String) :=
  @Prod.Lex.instLinearOrder Bool (Int ×ₗ String) Bool.linearOrder CodexReset.createdOrder

instance (priority := high) blockingPreorder : Preorder (Bool ×ₗ Int ×ₗ String) := blockingOrder.toPreorder

namespace Ledger

/-- `ORDER BY attempt_seq DESC LIMIT 1` -/
def latestAutoRow (ledger : Ledger) (accountId grantId : String) : Option AnthropicBankedResetEventRow :=
  (ledger.filter (fun row => row.trigger == .auto && row.accountId == accountId && row.grantId == grantId)).argmax
    (fun row => row.attemptSeq.getD 0)

def attemptRow (input : ClaimInput) (attemptSeq : Nat) (requestId : String) : AnthropicBankedResetEventRow where
  id := s!"{input.accountId}:{input.grantId}:{attemptSeq}"
  accountId := input.accountId
  grantId := input.grantId
  trigger := .auto
  cause := some input.cause
  attemptSeq := some attemptSeq
  requestId := requestId
  status := .pending
  reason := none
  nextAttemptAt := none
  createdAt := input.now
  resolvedAt := none

def manualRow (input : ManualInput) (id : String) : AnthropicBankedResetEventRow where
  id := id
  accountId := input.accountId
  grantId := input.grantId
  trigger := .manual
  cause := none
  attemptSeq := none
  requestId := input.requestId
  status := .pending
  reason := none
  nextAttemptAt := none
  createdAt := input.now
  resolvedAt := none

/-- `INSERT OR IGNORE … WHERE NOT EXISTS (…)`, and whether it inserted. -/
def insertUnless (ledger : Ledger) (blocks : AnthropicBankedResetEventRow → Bool) (row : AnthropicBankedResetEventRow) :
    Bool × Ledger :=
  if ledger.any blocks || ledger.any row.collides then (false,ledger) else (true,ledger ++ [row])

def insertAuto (ledger : Ledger) (input : ClaimInput) (attemptSeq : Nat) (requestId : String) : Bool × Ledger :=
  ledger.insertUnless (·.pendingOf input.accountId) (attemptRow input attemptSeq requestId)

def insertManual (ledger : Ledger) (input : ManualInput) (id : String) : Bool × Ledger :=
  ledger.insertUnless (fun row => row.pendingOf input.accountId && row.requestId != input.requestId) (manualRow input id)

def findByRequestId (ledger : Ledger) (accountId requestId : String) : Option AnthropicBankedResetEventRow :=
  ledger.find? (fun row => row.accountId == accountId && row.requestId == requestId)

def findBlocking (ledger : Ledger) (accountId requestId : String) : Option AnthropicBankedResetEventRow :=
  (ledger.filter (fun row => row.pendingOf accountId && row.requestId != requestId)).argmax
    (fun row => toLex (decide (row.trigger = .manual),toLex (row.createdAt,row.id)))

/-- `ORDER BY created_at ASC, id ASC` -/
def findPendingForAccount (ledger : Ledger) (accountId : String) : List AnthropicBankedResetEventRow :=
  (ledger.filter (·.pendingOf accountId)).insertionSort
    (fun a b => toLex (a.createdAt,a.id) ≤ toLex (b.createdAt,b.id))

def resolveAttempt (ledger : Ledger) (id : String) (status : ResolvedStatus) (reason : Option String) (now : Int) :
    Bool × Ledger :=
  let resolvable := fun row : AnthropicBankedResetEventRow => row.id == id && (row.status == .pending || row.unconfirmed)
  (ledger.any resolvable,ledger.map fun row => if resolvable row
    then { row with status := .resolved status, reason := reason, nextAttemptAt := none, resolvedAt := some now } else row)

def setNextAttemptAt (ledger : Ledger) (id : String) (nextAttemptAt : Int) : Bool × Ledger :=
  let deferrable := fun row : AnthropicBankedResetEventRow => row.id == id && row.status == .pending
  (ledger.any deferrable,ledger.map fun row => if deferrable row then { row with nextAttemptAt := some nextAttemptAt } else row)

def expireStalePending (ledger : Ledger) (now : Int) : Nat × Ledger :=
  let stale := fun row : AnthropicBankedResetEventRow => row.status == .pending &&
    decide (row.createdAt ≤ now - ANTHROPIC_BANKED_RESET_REPLAY_WINDOW_MS)
  (ledger.countP stale,ledger.map fun row => if stale row
    then { row with
      status := .resolved .failed
      reason := some "unconfirmed"
      nextAttemptAt := none
      resolvedAt := some now } else row)

end Ledger

inductive Statement where
  | latest
  | insert
  | winner
  deriving DecidableEq

def toAutoClaim (row : AnthropicBankedResetEventRow) : AnthropicBankedResetAutoClaim :=
  ⟨row.id,row.requestId,row.attemptSeq.getD 0,true⟩

def claimAutoAttempt {σ : Type} (query : {α : Type} → Statement → (Ledger → α × Ledger) → Fallible σ α)
    (input : ClaimInput) (requestId : String) : Fallible σ (Option AnthropicBankedResetAutoClaim) := do
  let latest ← query .latest (fun ledger => (ledger.latestAutoRow input.accountId input.grantId,ledger))
  match latest with
  | some row => if row.status == .pending then return some (toAutoClaim row) else mint (row.attemptSeq.getD 0 + 1)
  | none => mint 1
where
  mint (attemptSeq : Nat) : Fallible σ (Option AnthropicBankedResetAutoClaim) := do
    let inserted ← query .insert (fun ledger => ledger.insertAuto input attemptSeq requestId)
    if inserted then return some ⟨(Ledger.attemptRow input attemptSeq requestId).id,requestId,attemptSeq,false⟩
    else
      let winner ← query .winner (fun ledger => (ledger.latestAutoRow input.accountId input.grantId,ledger))
      match winner with
      | some row => if row.status == .pending then return some (toAutoClaim row) else return none
      | none => return none

end Clankermux.BankedReset
