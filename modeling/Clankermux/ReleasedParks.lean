import Mathlib.Tactic.Common

/-! The store of released parks, for one of its entries: the calls on it, the writes that wait for
one another, and the database that answers them. A call runs up to its next request in one step,
the request takes effect in another, and the answer is read in a third. -/
namespace Clankermux.ReleasedParks

inductive ClaimOwner where
  | own
  | other
  deriving DecidableEq

/-- The record of a park; a claim bears the text of its generation, `none` for the text of `null`. -/
inductive ParkRow where
  | released
  | claimed (claimOwner : ClaimOwner) (claimId : Option Nat)
  | consumed
  deriving DecidableEq

inductive CloseOutcome where
  | closed
  | kept
  | refused
  deriving DecidableEq

structure Db where
  row : Option ParkRow
  leased : Bool
  finished : Bool

namespace Db

def claim (db : Db) (claimId : Option Nat) : Db × Bool :=
  if db.row = some .released ∧ db.finished = false ∧ db.leased = true then ({ db with row := some (.claimed .own claimId) },true) else (db,false)

def unclaim (db : Db) (claimId : Nat) : Db × Bool :=
  match db.row with
  | some (.claimed _ id) => if id = some claimId ∧ db.leased = true then ({ db with row := some .released },true) else (db,false)
  | _ => (db,false)

def markConsumed (db : Db) (claimId : Option Nat) : Db × Bool :=
  if db.row = some (.claimed .own claimId) ∧ db.leased = true then ({ db with row := some .consumed },true) else (db,false)

def delete (db : Db) : Db × Bool :=
  if db.row ≠ none ∧ db.leased = true then ({ db with row := none },true) else (db,false)

def closeTurn (db : Db) : Db × CloseOutcome :=
  if db.leased = true then ({ db with row := none,finished := true },if db.finished then .kept else .closed) else (db,.refused)

end Db

inductive Request where
  | claim (claimId : Option Nat)
  | unclaim (claimId : Nat)
  | markConsumed (claimId : Option Nat)
  | delete
  | closeTurn
  | holdsLease
  | find

inductive Answer where
  | thrown
  | ok (changed : Bool)
  | closing (outcome : CloseOutcome)
  | row (row : Option ParkRow)
  deriving DecidableEq

inductive Fate where
  | lands
  | refused
  | throws
  deriving DecidableEq

def Db.perform (db : Db) : Request → Db × Answer
  | .claim claimId => ((db.claim claimId).1,.ok (db.claim claimId).2)
  | .unclaim claimId => ((db.unclaim claimId).1,.ok (db.unclaim claimId).2)
  | .markConsumed claimId => ((db.markConsumed claimId).1,.ok (db.markConsumed claimId).2)
  | .delete => (db.delete.1,.ok db.delete.2)
  | .closeTurn => (db.closeTurn.1,.closing db.closeTurn.2)
  | .holdsLease => (db,.ok db.leased)
  | .find => (db,.row db.row)

def refusal (db : Db) : Request → Answer
  | .closeTurn => .closing .refused
  | .holdsLease => .ok db.leased
  | .find => .row db.row
  | _ => .ok false

def Db.meet (db : Db) (request : Request) : Fate → Db × Answer
  | .lands => db.perform request
  | .refused => (db,refusal db request)
  | .throws => (db,.thrown)

inductive State where
  | released
  | claimed
  | reconciling
  deriving DecidableEq

inductive PendingParkWrite where
  | unclaim (claimId : Nat)
  | forget
  | close
  | resync
  deriving DecidableEq

structure ReleasedEntry where
  state : State
  pending : Option PendingParkWrite
  consumed : Bool
  claimId : Option Nat
  held : Bool

namespace ReleasedEntry

def reconcileLater (entry : ReleasedEntry) (pending : PendingParkWrite) : ReleasedEntry :=
  { entry with state := .reconciling,pending := some pending }

def release (entry : ReleasedEntry) : ReleasedEntry := { entry with state := .released,pending := none,claimId := none }

def unindex (entry : ReleasedEntry) : ReleasedEntry := { entry with held := false }

end ReleasedEntry

inductive Write where
  | unclaim (claimId : Nat)
  | forget
  | retry (closing : Bool)
  deriving DecidableEq

inductive Await where
  | unclaim (claimId : Nat)
  | forget
  | retryUnclaim (claimId : Nat)
  | retryForget
  | forgetLease
  | retryClose
  | closeLease
  | resyncLease
  | resyncFind
  deriving DecidableEq

def Await.request : Await → Request
  | unclaim claimId => .unclaim claimId
  | forget => .delete
  | retryUnclaim claimId => .unclaim claimId
  | retryForget => .delete
  | forgetLease => .holdsLease
  | retryClose => .closeTurn
  | closeLease => .holdsLease
  | resyncLease => .holdsLease
  | resyncFind => .find

structure Running where
  write : Write
  await : Await
  answer : Option Answer

structure Call where
  claimId : Option Nat
  answer : Option Answer

structure World where
  entry : ReleasedEntry
  db : Db
  file : Bool
  work : Bool
  queue : List Write
  running : Option Running
  claims : List Call
  consumes : List Call
  closed : Bool
  resolved : Bool
  confirmed : Bool

namespace World

def serial (w : World) (write : Write) : World := { w with work := true,queue := w.queue ++ [write] }

def settle (w : World) (write : Write) (ok : Bool) : World :=
  { w with running := none,resolved := w.resolved || (ok && write = .retry true) }

def wait (w : World) (write : Write) (await : Await) : World := { w with running := some ⟨write,await,none⟩ }

def gone (w : World) : World := { w with entry := w.entry.unindex,file := false }

def runPending (w : World) (write : Write) : World :=
  match w.entry.pending with
  | none => w.settle write true
  | some (.unclaim claimId) => w.wait write (.retryUnclaim claimId)
  | some .forget => w.wait write .retryForget
  | some .close => w.wait write .retryClose
  | some .resync => w.wait write .resyncLease

def start (w : World) : Write → World
  | .unclaim claimId => w.wait (.unclaim claimId) (.unclaim claimId)
  | .forget => w.wait .forget .forget
  | .retry closing => w.runPending (.retry closing)

def leave (w : World) (write : Write) (held : Bool) : World :=
  let left := if held then w else { w with entry := w.entry.unindex }
  left.settle write (!left.entry.held)

def resync (w : World) (write : Write) (row : Option ParkRow) : World :=
  match row with
  | some .released => { w with entry := w.entry.release }.settle write true
  | some (.claimed .own (some claimId)) =>
    if w.entry.claimId = some claimId then { w with entry := { w.entry with pending := some (.unclaim claimId) } }.runPending write
    else { w with entry := w.entry.unindex }.settle write true
  | _ => { w with entry := w.entry.unindex }.settle write true

def resume (w : World) (write : Write) : Await → Answer → World
  | .unclaim _,.ok true => { w with entry := w.entry.release }.settle write true
  | .unclaim claimId,_ => { w with entry := w.entry.reconcileLater (.unclaim claimId) }.settle write false
  | .forget,.ok true => w.gone.settle write true
  | .forget,_ => { w with entry := w.entry.reconcileLater .forget }.settle write false
  | .retryUnclaim _,.ok true => { w with entry := w.entry.release }.settle write true
  | .retryUnclaim _,.ok false => { w with entry := { w.entry with pending := some .resync } }.runPending write
  | .retryForget,.ok true => w.gone.settle write true
  | .retryForget,.ok false => w.wait write .forgetLease
  | .forgetLease,.ok held => w.leave write held
  | .retryClose,.closing .refused => w.wait write .closeLease
  | .retryClose,.closing _ => w.gone.settle write true
  | .closeLease,.ok held => w.leave write held
  | .resyncLease,.ok false => { w with entry := w.entry.unindex }.settle write true
  | .resyncLease,.ok true => w.wait write .resyncFind
  | .resyncFind,.row row => w.resync write row
  | _,_ => w.settle write false

def confirms : Request → Answer → Bool
  | .delete,.ok true => true
  | .closeTurn,.closing .closed => true
  | .closeTurn,.closing .kept => true
  | _,_ => false

end World

inductive Event where
  | takeLocal (claimId : Nat)
  | claim
  | unclaim
  | consume
  | forget
  | close
  | reconcile
  | start
  | answer (fate : Fate)
  | resume
  | idle
  | answerClaim (i : Nat) (fate : Fate)
  | resumeClaim (i : Nat)
  | answerConsume (i : Nat) (fate : Fate)
  | resumeConsume (i : Nat)
  | loseLease
  | otherWrite (row : Option ParkRow)
  | turnEnds

open World in
def step (w : World) : Event → Option World
  | .takeLocal claimId =>
    if w.entry.state = .released ∧ w.entry.held = true then some { w with entry := { w.entry with state := .claimed,claimId := some claimId } }
    else some w
  | .claim => some { w with claims := w.claims ++ [⟨w.entry.claimId,none⟩] }
  | .unclaim =>
    match w.entry.claimId with
    | some claimId => some (if w.entry.consumed then w else w.serial (.unclaim claimId))
    | none => some w
  | .consume => some (if w.entry.consumed then w else { w with consumes := w.consumes ++ [⟨w.entry.claimId,none⟩] })
  | .forget => some (w.serial .forget)
  | .close => some ({ w with entry := w.entry.reconcileLater .close,closed := true }.serial (.retry true))
  | .reconcile => some (if w.entry.state = .reconciling ∧ w.work = false then w.serial (.retry false) else w)
  | .start =>
    match w.running,w.queue with
    | none,write::rest => some ({ w with queue := rest }.start write)
    | _,_ => none
  | .answer fate =>
    match w.running with
    | some ⟨write,await,none⟩ =>
      let met := w.db.meet await.request fate
      some { w with db := met.1,running := some ⟨write,await,some met.2⟩,confirmed := w.confirmed || confirms await.request met.2 }
    | _ => none
  | .resume =>
    match w.running with
    | some ⟨write,await,some answer⟩ => some (w.resume write await answer)
    | _ => none
  | .idle => if w.running = none ∧ w.queue = [] then some { w with work := false } else none
  | .answerClaim i fate =>
    match w.claims[i]? with
    | some ⟨claimId,none⟩ =>
      let met := w.db.meet (.claim claimId) fate
      some { w with db := met.1,claims := w.claims.set i ⟨claimId,some met.2⟩ }
    | _ => none
  | .resumeClaim i =>
    match w.claims[i]? with
    | some ⟨_,some answer⟩ =>
      some { w with entry := if answer = .ok true then w.entry else w.entry.reconcileLater .resync,claims := w.claims.eraseIdx i }
    | _ => none
  | .answerConsume i fate =>
    match w.consumes[i]? with
    | some ⟨claimId,none⟩ =>
      let met := w.db.meet (.markConsumed claimId) fate
      some { w with db := met.1,consumes := w.consumes.set i ⟨claimId,some met.2⟩ }
    | _ => none
  | .resumeConsume i =>
    match w.consumes[i]? with
    | some ⟨_,some answer⟩ =>
      some { w with entry := { w.entry with consumed := w.entry.consumed || answer = .ok true },consumes := w.consumes.eraseIdx i }
    | _ => none
  | .loseLease => some { w with db := { w.db with leased := false } }
  | .otherWrite row => if w.db.leased = true then none else some { w with db := { w.db with row := row } }
  | .turnEnds => some { w with db := { w.db with finished := true } }

def stored : World where
  entry := ⟨.released,none,false,none,true⟩
  db := ⟨some .released,true,false⟩
  file := true
  work := false
  queue := []
  running := none
  claims := []
  consumes := []
  closed := false
  resolved := false
  confirmed := false

def run (w : World) (events : List Event) : Option World := events.foldlM step w

end Clankermux.ReleasedParks
