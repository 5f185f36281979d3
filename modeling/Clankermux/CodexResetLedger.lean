import Clankermux.Fallible
import Clankermux.Machine
import Mathlib.Data.List.MinMax
import Mathlib.Data.Prod.Lex
import Mathlib.Data.String.Basic

/-! The ledger of Codex reset credits. A weekly-limit claim is recorded only where the
account has no pending automatic attempt, so it is the oldest of those that follow it. -/
namespace Clankermux.CodexReset

inductive Trigger where
  | manual
  | auto
  deriving DecidableEq

inductive ResetCreditApplyCause where
  | expiry
  | weeklyLimit
  deriving DecidableEq

inductive ResolvedStatus where
  | reset
  | nothingToReset
  | noCredit
  | alreadyRedeemed
  | failed
  deriving DecidableEq

inductive Status where
  | pending
  | resolved (status : ResolvedStatus)
  deriving DecidableEq

structure CodexResetCreditEventRow where
  id : String
  accountId : String
  creditId : Option String
  trigger : Trigger
  cause : Option ResetCreditApplyCause
  attemptSeq : Option Nat
  idempotencyKey : String
  status : Status
  createdAt : Int
  resolvedAt : Option Int
  deriving DecidableEq

abbrev Ledger := List CodexResetCreditEventRow

def CodexResetCreditEventRow.unresolvedFor (accountId : String) (row : CodexResetCreditEventRow) : Bool :=
  row.accountId == accountId && row.trigger == .auto && row.status == .pending

/-- What the primary key and the index on automatic attempts do not let in beside `row`. -/
def CodexResetCreditEventRow.collides (row other : CodexResetCreditEventRow) : Bool :=
  other.id == row.id || (other.trigger == .auto && other.accountId == row.accountId && other.creditId == row.creditId &&
    other.attemptSeq == row.attemptSeq)

structure ClaimInput where
  accountId : String
  creditId : String
  cause : ResetCreditApplyCause
  now : Int

structure CodexResetCreditAutoClaim where
  id : String
  idempotencyKey : String
  attemptSeq : Nat
  reused : Bool

/-- `ORDER BY created_at, id` -/
instance (priority := high) createdOrder : LinearOrder (Int ×ₗ String) :=
  @Prod.Lex.instLinearOrder Int String Int.instLinearOrder String.instLinearOrder

instance (priority := high) createdPreorder : Preorder (Int ×ₗ String) := createdOrder.toPreorder

namespace Ledger

/-- `ORDER BY attempt_seq DESC LIMIT 1` -/
def latestAutoRow (ledger : Ledger) (accountId creditId : String) : Option CodexResetCreditEventRow :=
  (ledger.filter (fun row => row.trigger == .auto && row.accountId == accountId && row.creditId == some creditId)).argmax
    (fun row => row.attemptSeq.getD 0)

/-- `ORDER BY created_at ASC, id ASC LIMIT 1` -/
def findPendingForAccount (ledger : Ledger) (accountId : String) : Option CodexResetCreditEventRow :=
  (ledger.filter (·.unresolvedFor accountId)).argmin (fun row => toLex (row.createdAt,row.id))

def attemptRow (input : ClaimInput) (attemptSeq : Nat) : CodexResetCreditEventRow :=
  let id := s!"{input.accountId}:{input.creditId}:{attemptSeq}"
  { id := id
    accountId := input.accountId
    creditId := some input.creditId
    trigger := .auto
    cause := some input.cause
    attemptSeq := some attemptSeq
    idempotencyKey := "codex-reset-auto:" ++ id
    status := .pending
    createdAt := input.now
    resolvedAt := none }

/-- `INSERT OR IGNORE … WHERE ? = 'expiry' OR NOT EXISTS (…)`, and whether it inserted. -/
def insertAttempt (ledger : Ledger) (input : ClaimInput) (attemptSeq : Nat) : Bool × Ledger :=
  let row := attemptRow input attemptSeq
  if (input.cause == .expiry || !ledger.any (·.unresolvedFor input.accountId)) && !ledger.any (CodexResetCreditEventRow.collides row)
  then (true,ledger ++ [row]) else (false,ledger)

def resolveAttempt (ledger : Ledger) (id : String) (status : ResolvedStatus) (now : Int) : Ledger :=
  ledger.map fun row => if row.id == id && row.status == .pending then { row with status := .resolved status, resolvedAt := some now } else row

def withdrawPendingAttempt (ledger : Ledger) (id : String) : Bool × Ledger :=
  (ledger.any (fun row => row.id == id && row.status == .pending),ledger.filter fun row => !(row.id == id && row.status == .pending))

def recordManual (ledger : Ledger) (id accountId : String) (creditId : Option String) (idempotencyKey : String)
    (status : ResolvedStatus) (now : Int) : Ledger :=
  ledger ++ [⟨id,accountId,creditId,.manual,none,none,idempotencyKey,.resolved status,now,some now⟩]

def getTerminallyResolvedCreditIds (ledger : Ledger) (accountId : String) : List String :=
  (ledger.filter (fun row => row.trigger == .auto && row.accountId == accountId &&
    (row.status == .resolved .reset || row.status == .resolved .alreadyRedeemed || row.status == .resolved .noCredit ||
      row.status == .resolved .failed))).filterMap (·.creditId)

def getLatestAutoApplyCooldownAnchorAt (ledger : Ledger) (accountId : String) : Option Int :=
  ((ledger.filter (fun row => row.accountId == accountId && row.trigger == .auto &&
    (row.status == .resolved .reset || row.status == .resolved .alreadyRedeemed || row.status == .resolved .nothingToReset))).filterMap (·.resolvedAt)).max?

end Ledger

inductive Statement where
  | latest
  | insert
  | winner
  deriving DecidableEq

def reuse (row : CodexResetCreditEventRow) : CodexResetCreditAutoClaim :=
  ⟨row.id,row.idempotencyKey,row.attemptSeq.getD 0,true⟩

def claimAutoAttempt {σ : Type} (query : {α : Type} → Statement → (Ledger → α × Ledger) → Fallible σ α)
    (input : ClaimInput) : Fallible σ (Option CodexResetCreditAutoClaim) := do
  let latest ← query .latest (fun ledger => (ledger.latestAutoRow input.accountId input.creditId,ledger))
  match latest with
  | some row =>
    if row.status == .pending then return some (reuse row)
    -- Only `nothingToReset` re-arms; every other outcome is terminal for automation.
    else if row.status != .resolved .nothingToReset then return none
    else mint (row.attemptSeq.getD 0 + 1)
  | none => mint 1
where
  mint (attemptSeq : Nat) : Fallible σ (Option CodexResetCreditAutoClaim) := do
    let inserted ← query .insert (fun ledger => ledger.insertAttempt input attemptSeq)
    if inserted then
      let row := Ledger.attemptRow input attemptSeq
      return some ⟨row.id,row.idempotencyKey,attemptSeq,false⟩
    else
      let winner ← query .winner (fun ledger => (ledger.latestAutoRow input.accountId input.creditId,ledger))
      match winner with
      | some row => if row.status == .pending then return some (reuse row) else return none
      | none => return none

end Clankermux.CodexReset
