import Clankermux.Machine
import Mathlib.Tactic.Linarith

/-! A gate that hands out one turn at a time and keeps the requests of different accounts apart. Real time passes beside a
clock that never runs ahead of it and may step back; what was asked for, settled, taken from the queue and sent is kept. -/
namespace Clankermux.SpacedReadGate

variable {Account : Type}

structure Waiter (Account : Type) where
  id : Nat
  accountId : Account
  urgent : Bool

structure Sleeper (Account : Type) where
  waiter : Waiter Account
  until_ : ℚ

structure Turn (Account : Type) where
  accountId : Account
  released : Bool

structure Last (Account : Type) where
  accountId : Account
  at_ : ℚ

structure Sent (Account : Type) where
  accountId : Account
  time : ℚ

structure Settled where
  id : Nat
  granted : Bool

structure Taken (Account : Type) where
  waiter : Waiter Account
  left : List (Waiter Account)

structure Gate (Account : Type) where
  time : ℚ
  clock : ℚ
  waiters : List (Waiter Account)
  last : Option (Last Account)
  busy : Bool
  stopped : Bool
  asleep : Option (Sleeper Account)
  turns : List (Turn Account)
  acquired : Nat
  settled : List Settled
  taken : List (Taken Account)
  sends : List (Sent Account)

namespace Gate
variable [DecidableEq Account] (spacingMs : ℚ) (jitter : Nat → ℚ) (s : Gate Account)

def start (time clock : ℚ) : Gate Account := ⟨time,clock,[],none,false,false,none,[],0,[],[],[]⟩

def settle (id : Nat) (granted : Bool) : Gate Account := { s with settled := ⟨id,granted⟩::s.settled }

def grant (waiter : Waiter Account) : Gate Account :=
  { s.settle waiter.id true with turns := s.turns ++ [⟨waiter.accountId,false⟩] }

def wait (waiter : Waiter Account) : ℚ :=
  match s.last with
  | none => 0
  | some last =>
    if last.accountId ≠ waiter.accountId then
      let gap := spacingMs * (1 + jitter waiter.id)
      min (last.at_ + gap - s.clock) gap
    else 0

@[grind] def serve : List (Waiter Account) → Gate Account → Gate Account
  | [],s => { s with waiters := [] }
  | waiter::rest,s =>
    let s : Gate Account := { s with waiters := rest, busy := true, taken := ⟨waiter,rest⟩::s.taken }
    let wait := s.wait spacingMs jitter waiter
    if wait > 0 then { s with asleep := some ⟨waiter,s.time + wait⟩ }
    else if s.stopped then serve rest { s.settle waiter.id false with busy := false }
    else s.grant waiter

def next : Gate Account := if s.busy then s else serve spacingMs jitter s.waiters s

def enqueue (waiter : Waiter Account) (waiters : List (Waiter Account)) : List (Waiter Account) :=
  if waiter.urgent then waiters.takeWhile (·.urgent) ++ waiter::waiters.dropWhile (·.urgent) else waiters ++ [waiter]

def acquire (accountId : Account) (urgent : Bool) : Gate Account :=
  let id := s.acquired
  let s := { s with acquired := s.acquired + 1 }
  if s.stopped then s.settle id false
  else { s with waiters := enqueue ⟨id,accountId,urgent⟩ s.waiters }.next spacingMs jitter

def stop : Gate Account :=
  { s with stopped := true, waiters := [], settled := s.waiters.reverse.map (⟨·.id,false⟩) ++ s.settled }

def wake (failed : Bool) (sleeper : Sleeper Account) : Gate Account :=
  let s := { s with asleep := none }
  if failed || s.stopped then { s.settle sleeper.waiter.id false with busy := false }.next spacingMs jitter
  else s.grant sleeper.waiter

def sent (turn : Nat) : Gate Account :=
  match s.turns[turn]? with
  | none => s
  | some held =>
    if held.released then s
    else { s with last := some ⟨held.accountId,s.clock⟩, sends := ⟨held.accountId,s.time⟩::s.sends }

def release (turn : Nat) : Gate Account :=
  match s.turns[turn]? with
  | none => s
  | some held =>
    if held.released then s
    else { s with turns := s.turns.set turn { held with released := true }, busy := false }.next spacingMs jitter

end Gate

inductive Event (Account : Type) where
  | pass (elapsed clock : ℚ)
  | acquire (accountId : Account) (urgent : Bool) (jitter : Nat → ℚ)
  | sent (turn : Nat)
  | release (turn : Nat) (jitter : Nat → ℚ)
  | wake (failed : Bool) (jitter : Nat → ℚ)
  | stop

variable [DecidableEq Account]

def step (spacingMs : ℚ) (s : Gate Account) : Event Account → Option (Gate Account)
  | .pass elapsed clock =>
    if 0 ≤ elapsed ∧ clock ≤ s.clock + elapsed then some { s with time := s.time + elapsed, clock := clock } else none
  | .acquire accountId urgent jitter => some (s.acquire spacingMs jitter accountId urgent)
  | .sent turn => some (s.sent turn)
  | .release turn jitter => some (s.release spacingMs jitter turn)
  | .wake failed jitter =>
    match s.asleep with
    | none => none
    | some sleeper => if sleeper.until_ ≤ s.time then some (s.wake spacingMs jitter failed sleeper) else none
  | .stop => some s.stop

def machine (Account : Type) [DecidableEq Account] (spacingMs : ℚ) : Machine (Gate Account) (Event Account) where
  init s := ∃ time clock, s = .start time clock
  step := step spacingMs

def Jittered : Event Account → Prop
  | .acquire _ _ jitter => ∀ id, 0 ≤ jitter id
  | .release _ jitter => ∀ id, 0 ≤ jitter id
  | .wake _ jitter => ∀ id, 0 ≤ jitter id
  | _ => True

end Clankermux.SpacedReadGate
