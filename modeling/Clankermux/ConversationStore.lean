import Clankermux.History
import Clankermux.Ledger
import Clankermux.Machine

/-! The store of the conversations of the SDK bridge. A record is known by its place on the
heap, since a claim or a settle callback may hold one that the map has dropped, and a busy
promise by the claim that made it. A step runs from one await to the next. -/
namespace Clankermux.ConversationStore
open InsertionMap Function

structure StoredSession where
  sessionId : String
  digests : List String
  accountId : Option String
  deriving DecidableEq

structure ConversationRecord where
  key : String
  scopeKey : Option String
  current : Option StoredSession
  currentSeq : Nat
  nextSeq : Nat
  pending : Option Nat
  busy : Option Nat
  lastUsed : Int

structure Registration where
  session : StoredSession
  record : Nat
  seq : Nat
  settled : Bool
  deriving DecidableEq

inductive Stage where
  | awaitingBusy
  | awaitingPending (record : Nat)
  | granted (record : Nat) (current : Option StoredSession)
  | finished

structure Claim where
  key : String
  scopeKey : Option String
  deadline : Int
  stage : Stage

inductive Moment where
  | timedOut (claim : Nat)
  | granted (claim : Nat)

structure Options where
  maxEntries : Nat
  idleTtlMs : Int

def Options.default : Options := ⟨1000,24 * 60 * 60000⟩

structure Store where
  opts : Options
  records : InsertionMap String Nat
  heap : Nat → ConversationRecord
  allocated : Nat
  registrations : List Registration
  discarded : List String
  claims : Nat → Option Claim
  claimed : Nat
  log : List Moment

def Store.empty (opts : Options) : Store := ⟨opts,[],fun _ => ⟨"",none,none,0,1,none,none,0⟩,0,[],[],fun _ => none,0,[]⟩

def Store.write (s : Store) (id : Nat) (record : ConversationRecord) : Store := { s with heap := update s.heap id record }

def Store.onDiscard (s : Store) (session : Option StoredSession) : Store :=
  { s with discarded := s.discarded ++ (session.map (·.sessionId)).toList }

def Store.record (s : Store) (key : String) (now : Int) : Store × Nat :=
  match get s.records key with
  | some id => (s,id)
  | none =>
    ({ s with
        records := set s.records key s.allocated
        heap := update s.heap s.allocated ⟨key,none,none,0,1,none,none,now⟩
        allocated := s.allocated + 1 },s.allocated)

def Store.drop (s : Store) (key : String) (id : Nat) : Store :=
  Store.onDiscard { s with records := delete s.records key } (s.heap id).current

def Store.prune (s : Store) (now : Int) : Store :=
  let idle := s.records.filter (fun entry => (s.heap entry.2).busy = none ∧ (s.heap entry.2).pending = none)
  let expired := idle.filter (fun entry => now - (s.heap entry.2).lastUsed > s.opts.idleTtlMs)
  let overflow := s.records.length - expired.length - s.opts.maxEntries
  let oldest := ((idle.filter (fun entry => now - (s.heap entry.2).lastUsed ≤ s.opts.idleTtlMs)).insertionSort
    (fun a b => (s.heap a.2).lastUsed ≤ (s.heap b.2).lastUsed)).take overflow
  (expired ++ oldest).foldl (fun s entry => s.drop entry.1 entry.2) s

def Store.setStage (s : Store) (c : Nat) (claim : Claim) (stage : Stage) : Store :=
  { s with claims := update s.claims c (some { claim with stage := stage }) }

def Store.grant (s : Store) (c : Nat) (claim : Claim) (id : Nat) (now : Int) : Store :=
  let record := s.heap id
  let s := s.write id { record with
    lastUsed := now
    scopeKey := (claim.scopeKey.filter (fun scope => scope ≠ "")).or record.scopeKey }
  { s.setStage c claim (.granted id record.current) with log := .granted c::s.log }

def Store.timeOut (s : Store) (c : Nat) : Store := { s with log := .timedOut c::s.log }

def Store.hold (s : Store) (c : Nat) (claim : Claim) (now date : Int) : Store :=
  let (s,id) := s.record claim.key now
  let held := (s.heap id).busy.any (· ≠ c)
  if held ∧ claim.deadline - date > 0 then s.setStage c claim .awaitingBusy
  else
    let s := if held then s.timeOut c else s
    let s := s.write id { s.heap id with busy := some c }
    match (s.heap id).pending with
    | some _ => s.setStage c claim (.awaitingPending id)
    | none => s.grant c claim id now

def Store.claim (s : Store) (key : String) (waitMs : Int) (scopeKey : Option String) (now started date : Int) : Store :=
  let s := s.prune now
  Store.hold { s with claimed := s.claimed + 1 } s.claimed ⟨key,scopeKey,started + waitMs,.awaitingBusy⟩ now date

/-- After the wait for the session that is settling; `later` is the clock at the deadline check. -/
def Store.resumePending (s : Store) (c : Nat) (claim : Claim) (id : Nat) (now later date : Int) : Store :=
  if get s.records claim.key = some id ∧ (s.heap id).busy = some c then s.grant c claim id now
  else if later ≥ claim.deadline then
    let (s,id) := s.record claim.key now
    let s := (s.timeOut c).write id { s.heap id with busy := some c }
    s.grant c claim id now
  else s.hold c claim now date

def Store.finish (s : Store) (c : Nat) (claim : Claim) (id : Nat) : Store :=
  let s := if (s.heap id).busy = some c then s.write id { s.heap id with busy := none } else s
  s.setStage c claim .finished

def Store.enlist (s : Store) (id : Nat) (session : StoredSession) : Store :=
  let record := s.heap id
  let s := s.write id { record with
    pending := some s.registrations.length
    nextSeq := record.nextSeq + 1 }
  { s with registrations := s.registrations ++ [⟨session,id,record.nextSeq,false⟩] }

def Store.register (s : Store) (c : Nat) (claim : Claim) (id : Nat) (session : StoredSession) : Store :=
  (s.enlist id session).finish c claim id

def Store.settle (s : Store) (index : Nat) (registration : Registration) (ok : Bool) : Store :=
  let id := registration.record
  let s := { s with registrations := s.registrations.set index { registration with settled := true } }
  let s := if (s.heap id).pending = some index then s.write id { s.heap id with pending := none } else s
  if ¬ ok ∨ registration.seq < (s.heap id).currentSeq then s.onDiscard (some registration.session)
  else
    let replaced := (s.heap id).current
    let s := s.write id { s.heap id with
      current := some registration.session
      currentSeq := registration.seq }
    s.onDiscard (replaced.filter (fun old => old.sessionId ≠ registration.session.sessionId))

def Store.evict (s : Store) (key : String) : Store × Bool :=
  match get s.records key with
  | none => (s,false)
  | some id =>
    if (s.heap id).busy.isSome ∨ (s.heap id).pending.isSome then (s,false)
    else (s.drop key id,true)

inductive Event where
  | claim (key : String) (waitMs : Int) (scopeKey : Option String) (now started date : Int)
  | resumeBusy (claim : Nat) (now date : Int)
  | resumePending (claim : Nat) (now later date : Int)
  | register (claim : Nat) (session : StoredSession)
  | release (claim : Nat)
  | settle (registration : Nat) (ok : Bool)
  | evict (key : String)

def Store.step (s : Store) : Event → Option Store
  | .claim key waitMs scopeKey now started date => some (s.claim key waitMs scopeKey now started date)
  | .resumeBusy c now date => do
    let claim ← s.claims c
    match claim.stage with
    | .awaitingBusy => some (s.hold c claim now date)
    | _ => none
  | .resumePending c now later date => do
    let claim ← s.claims c
    match claim.stage with
    | .awaitingPending id => some (s.resumePending c claim id now later date)
    | _ => none
  | .register c session => do
    let claim ← s.claims c
    match claim.stage with
    | .granted id _ =>
      if ∀ other ∈ s.registrations, other.session.sessionId ≠ session.sessionId then some (s.register c claim id session)
      else none
    | _ => none
  | .release c => do
    let claim ← s.claims c
    match claim.stage with
    | .granted id _ => some (s.finish c claim id)
    | _ => none
  | .settle index ok => do
    let registration ← s.registrations[index]?
    if registration.settled then none else some (s.settle index registration ok)
  | .evict key => some (s.evict key).1

def storeMachine (opts : Options) : Machine Store Event := ⟨fun s => s = .empty opts,Store.step⟩

end Clankermux.ConversationStore
