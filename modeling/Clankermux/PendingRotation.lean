import Clankermux.InsertionMap
import Clankermux.Machine

/-! One account whose refresh token the provider rotates: its row in the database, the
registry of the rotation that could not be persisted, the refreshes in flight and the
writes under way. The database executes the writes in any order and delivers their
completions in the order of execution; a write that throws leaves the row as it was.
Left out are the access tokens, their deadlines, the identity, the retry timer and the
caps of the registry. -/
namespace Clankermux.TokenManager
open InsertionMap

abbrev Token := Nat

/-- The objects of the registry are told apart by who recorded them and how often they
have been replaced since. `exchanged` is the token the provider took for them. -/
structure PendingRotation where
  refreshToken : Option Token
  attemptedRefreshToken : Token
  exchanged : Token
  recorded : Nat
  rebased : Nat
  deriving DecidableEq

namespace PendingRotation

def generation (e : PendingRotation) : Token := e.refreshToken.getD e.attemptedRefreshToken

end PendingRotation

structure Persist where
  pendingSnapshot : Option PendingRotation
  persistAnchor : Token
  effectiveRefreshToken : Option Token

def Persist.pendingWrittenToken (p : Persist) : Option Token := p.pendingSnapshot.map (·.generation)

inductive RefreshPhase where
  | exchanging
  | persisting (p : Persist)
  | rereading (p : Persist) (answer : Option (Option Token))
  | retrying (p : Persist)
  | settling

structure Refresh where
  exchangedRefreshToken : Token
  proactive : Bool
  phase : RefreshPhase

inductive Writer where
  | flush (entry : PendingRotation)
  | persist (refresh : Nat)
  | retry (refresh : Nat)

structure Write where
  writer : Writer
  refreshToken : Option Token
  expectedRefreshToken : Token
  exchanged : Token

def Write.generation (w : Write) : Token := w.refreshToken.getD w.expectedRefreshToken

inductive WriteOutcome where | persisted | superseded | failed deriving DecidableEq

structure Completion where
  write : Write
  outcome : WriteOutcome

structure Tokens where
  row : Token
  pending : Option PendingRotation
  refreshInFlight : Option Nat
  refreshes : InsertionMap Nat Refresh
  nextRefresh : Nat
  submitted : List Write
  completed : List Completion
  recorded : Nat
  issued : Token
  newest : Token
  family : List Token

def recordPendingRotation (c : Tokens) (refreshToken : Option Token) (attempted exchanged : Token) : Tokens :=
  { c with
    pending := some
      { refreshToken,exchanged
        attemptedRefreshToken := (c.pending.map (·.attemptedRefreshToken)).getD attempted
        recorded := c.recorded,rebased := 0 }
    recorded := c.recorded + 1 }

def rebase (current : PendingRotation) (persistedRefreshToken : Token) : PendingRotation :=
  { current with attemptedRefreshToken := persistedRefreshToken,rebased := current.rebased + 1 }

def resolvePendingAfterPersist (pending : Option PendingRotation) (entrySnapshot : PendingRotation)
    (persistedRefreshToken : Option Token) : Option PendingRotation :=
  match pending with
  | none => none
  | some current =>
    if current = entrySnapshot then none
    else
      match persistedRefreshToken with
      | none => some current
      | some persistedRefreshToken => some (rebase current persistedRefreshToken)

def clearPendingRotationIfCurrent (pending : Option PendingRotation) (entrySnapshot : PendingRotation) :
    Option PendingRotation :=
  if pending = some entrySnapshot then none else pending

def flushed (pending : Option PendingRotation) (entry : PendingRotation) : WriteOutcome → Option PendingRotation
  | .persisted => resolvePendingAfterPersist pending entry (some entry.generation)
  | .superseded => clearPendingRotationIfCurrent pending entry
  | .failed => pending

def PendingRotation.write (e : PendingRotation) : Write := ⟨.flush e,e.refreshToken,e.attemptedRefreshToken,e.exchanged⟩

def flushPendingRotation (c : Tokens) : Tokens :=
  match c.pending with
  | none => c
  | some entry => { c with submitted := c.submitted ++ [entry.write] }

def setPhase (c : Tokens) (refresh : Nat) (r : Refresh) (phase : RefreshPhase) : Tokens :=
  { c with refreshes := set c.refreshes refresh { r with phase } }

def finally_ (c : Tokens) (refresh : Nat) : Tokens :=
  { c with
    refreshes := delete c.refreshes refresh
    refreshInFlight := if c.refreshInFlight = some refresh then none else c.refreshInFlight }

inductive Issue where | fresh | echo | none deriving DecidableEq

def issue (c : Tokens) (exchanged : Token) : Issue → Option Token × Tokens
  | .fresh => (some c.issued,{ c with
    issued := c.issued + 1
    newest := c.issued
    family := if exchanged ∈ c.family then c.issued::c.family else c.family })
  | .echo => (some exchanged,c)
  | .none => (.none,c)

def Refresh.persist (r : Refresh) (pending : Option PendingRotation) (refreshToken : Option Token) : Persist :=
  { pendingSnapshot := pending
    persistAnchor := (pending.map (·.attemptedRefreshToken)).getD r.exchangedRefreshToken
    effectiveRefreshToken := (refreshToken.or (pending.bind (·.refreshToken))).or
      (if r.proactive then some r.exchangedRefreshToken else none) }

def onExchanged (c : Tokens) (refresh : Nat) (r : Refresh) (answer : Issue) : Tokens :=
  let (refreshToken,issued) := issue c r.exchangedRefreshToken answer
  let p := r.persist c.pending refreshToken
  { setPhase issued refresh r (.persisting p) with
    submitted := c.submitted ++
      [⟨.persist refresh,p.effectiveRefreshToken,p.persistAnchor,r.exchangedRefreshToken⟩] }

def onRefused (c : Tokens) (refresh : Nat) (r : Refresh) : Tokens :=
  finally_ { c with
    pending := c.pending.filter (fun pendingAtFailure => r.exchangedRefreshToken ≠ pendingAtFailure.generation) } refresh

def persistFailed (c : Tokens) (refresh : Nat) (r : Refresh) (p : Persist) (attempted : Token) : Tokens :=
  setPhase (recordPendingRotation c p.effectiveRefreshToken attempted r.exchangedRefreshToken) refresh r .settling

def persistSucceeded (c : Tokens) (refresh : Nat) (r : Refresh) (p : Persist) : Tokens :=
  setPhase { c with
    pending := match p.pendingSnapshot with
      | none => c.pending
      | some pendingSnapshot => resolvePendingAfterPersist c.pending pendingSnapshot p.effectiveRefreshToken }
    refresh r .settling

def onPersist (c : Tokens) (refresh : Nat) (r : Refresh) (p : Persist) : WriteOutcome → Tokens
  | .persisted => persistSucceeded c refresh r p
  | .failed => persistFailed c refresh r p p.persistAnchor
  | .superseded =>
    let survivor := match p.pendingSnapshot with
      | none => c.pending
      | some pendingSnapshot => clearPendingRotationIfCurrent c.pending pendingSnapshot
    let cleared := { c with pending := survivor }
    if survivor.isNone && p.pendingWrittenToken.isSome then setPhase cleared refresh r (.rereading p none)
    else setPhase cleared refresh r .settling

def onReread (c : Tokens) (refresh : Nat) (r : Refresh) (p : Persist) (written : Token) : Option Token → Tokens
  | none => persistFailed c refresh r p written
  | some row =>
    if row = written then { setPhase c refresh r (.retrying p) with
      submitted := c.submitted ++ [⟨.retry refresh,p.effectiveRefreshToken,written,r.exchangedRefreshToken⟩] }
    else setPhase c refresh r .settling

def onRetry (c : Tokens) (refresh : Nat) (r : Refresh) (p : Persist) (written : Token) : WriteOutcome → Tokens
  | .persisted => persistSucceeded c refresh r p
  | .failed => persistFailed c refresh r p written
  | .superseded => setPhase c refresh r .settling

/-- `updateAccountTokens`: without a refresh token the write keeps the one of the row. -/
def updateAccountTokens (c : Tokens) (w : Write) (throws : Bool) : Tokens :=
  if throws then { c with completed := c.completed ++ [⟨w,.failed⟩] }
  else if c.row = w.expectedRefreshToken then { c with
    row := w.refreshToken.getD c.row
    completed := c.completed ++ [⟨w,.persisted⟩] }
  else { c with completed := c.completed ++ [⟨w,.superseded⟩] }

def onCompletion (c : Tokens) (w : Write) (outcome : WriteOutcome) : Tokens :=
  match w.writer with
  | .flush entry => { c with pending := flushed c.pending entry outcome }
  | .persist refresh =>
    match get c.refreshes refresh with
    | some ⟨token,proactive,.persisting p⟩ => onPersist c refresh ⟨token,proactive,.persisting p⟩ p outcome
    | _ => c
  | .retry refresh =>
    match get c.refreshes refresh with
    | some ⟨token,proactive,.retrying p⟩ =>
      onRetry c refresh ⟨token,proactive,.retrying p⟩ p w.expectedRefreshToken outcome
    | _ => c

inductive Event where
  | flush
  | begin_ (exchangedRefreshToken : Token) (proactive : Bool)
  | exchanged (refresh : Nat) (answer : Issue)
  | refused (refresh : Nat)
  | failed (refresh : Nat)
  | execute (write : Nat) (throws : Bool)
  | complete
  | read (refresh : Nat) (throws : Bool)
  | reread (refresh : Nat)
  | settle (refresh : Nat)
  | reauthenticate
  | clearPendingRotation
  | clearAccountRefreshCache

def step (c : Tokens) : Event → Option Tokens
  | .flush => some (flushPendingRotation c)
  | .begin_ exchangedRefreshToken proactive =>
    if c.refreshInFlight.isNone ∧ exchangedRefreshToken < c.issued then some { c with
      refreshInFlight := some c.nextRefresh
      refreshes := set c.refreshes c.nextRefresh ⟨exchangedRefreshToken,proactive,.exchanging⟩
      nextRefresh := c.nextRefresh + 1 }
    else none
  | .exchanged refresh answer => (get c.refreshes refresh).bind fun r =>
    match r.phase with
    | .exchanging => some (onExchanged c refresh r answer)
    | _ => none
  | .refused refresh => (get c.refreshes refresh).bind fun r =>
    match r.phase with
    | .exchanging => some (onRefused c refresh r)
    | _ => none
  | .failed refresh => (get c.refreshes refresh).bind fun r =>
    match r.phase with
    | .exchanging => some (finally_ c refresh)
    | _ => none
  | .execute write throws => (c.submitted[write]?).map fun w =>
    updateAccountTokens { c with submitted := c.submitted.eraseIdx write } w throws
  | .complete =>
    match c.completed with
    | [] => none
    | ⟨w,outcome⟩::rest => some (onCompletion { c with completed := rest } w outcome)
  | .read refresh throws => (get c.refreshes refresh).bind fun r =>
    match r.phase with
    | .rereading p none => some (setPhase c refresh r (.rereading p (some (if throws then none else some c.row))))
    | _ => none
  | .reread refresh => (get c.refreshes refresh).bind fun r =>
    match r.phase with
    | .rereading p (some answer) => p.pendingWrittenToken.map fun written => onReread c refresh r p written answer
    | _ => none
  | .settle refresh => (get c.refreshes refresh).bind fun r =>
    match r.phase with
    | .settling => some (finally_ c refresh)
    | _ => none
  | .reauthenticate => some { c with row := c.issued,issued := c.issued + 1,family := [c.issued] }
  | .clearPendingRotation => some { c with pending := none }
  | .clearAccountRefreshCache => some { c with refreshInFlight := none }

def Tokens.start : Tokens :=
  { row := 0,pending := none,refreshInFlight := none,refreshes := [],nextRefresh := 0,submitted := [],completed := []
    recorded := 0,issued := 1,newest := 0,family := [] }

def machine : Machine Tokens Event where
  init c := c = .start
  step := step

end Clankermux.TokenManager
