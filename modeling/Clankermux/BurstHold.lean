import Clankermux.OverloadBreaker
import Mathlib.Data.Rat.Floor

/-! The hold of the cache account through a burst throttle. Between its steps time passes, the client may go, and the
breaker and the weekly memo may change in any way; a sleep ends exactly when it is over. With every probe it is kept
what the world looked like as it was sent. -/
namespace Clankermux.BurstHold
open OverloadBreaker

structure FamilyWeeklyMemoEntry where
  resetAt : Int
  observedAt : Int

abbrev Memo := InsertionMap String FamilyWeeklyMemoEntry

structure Account where
  id : String
  provider : String
  rateLimitedUntil : Option Int

def keyFor (accountId : String) (family : ModelFamily) : String := accountId ++ ":" ++ family.name

def getFamilyWeeklyExhaustedUntil (memo : Memo) (accountId : String) (family : ModelFamily) (now : Int) : Option Int :=
  ((InsertionMap.get memo (keyFor accountId family)).filter (fun entry => now < entry.resetAt)).map (·.resetAt)

def isFamilyWeeklyMemoExhausted (memo : Memo) (account : Account) (model : Option String) (now : Int) : Bool :=
  if account.provider ≠ "anthropic" then false
  else (getModelFamily (model.getD "")).any (fun family => (getFamilyWeeklyExhaustedUntil memo account.id family now).isSome)

inductive Confidence where | fresh_headroom | stale_should_retry deriving DecidableEq

structure Tuning where
  maxHoldMs : Int
  maxAttempts : Nat
  jitterMs : Int
  suppressedPollMs : Int
  jittered : 0 ≤ jitterMs

def BURST_RETRY : Tuning := ⟨120000,3,500,1000,by decide⟩

structure Request where
  confidence : Confidence
  model : Option String
  tuning : Tuning

/-- `stale_should_retry` has a single short probe. -/
def Request.maxAttempts (q : Request) : Nat := if q.confidence = .stale_should_retry then 1 else q.tuning.maxAttempts

inductive Result where | response | gaveUp | threw | overflow deriving DecidableEq

inductive Phase where
  | before
  | cooling (until_ : ℚ)
  | probing
  | polling (until_ : ℚ)
  | done (result : Result)

structure Probe where
  time : ℚ
  held : Int
  rateLimitedUntil : Option Int
  aborted : Bool
  overloadedUntil : Option Int
  exhausted : Bool

structure Hold where
  time : ℚ
  aborted : Bool
  breaker : Breaker
  memo : Memo
  account : Account
  start : Int
  attempt : Nat
  phase : Phase
  slots : Int
  releases : Nat
  probes : List Probe
  made : Nat

namespace Hold
variable (q : Request) (s : Hold)

def now : Int := ⌊s.time⌋

def overloadedUntil : Option Int := getProviderOverloadUntil s.breaker s.account.provider s.now q.model

def exhausted : Bool := isFamilyWeeklyMemoExhausted s.memo s.account q.model s.now

def remaining : Int := q.tuning.maxHoldMs - (s.now - s.start)

def finish (result : Result) : Hold := { s with phase := .done result, slots := s.slots - 1, releases := s.releases + 1 }

def reprobe : Hold :=
  { s with
      phase := .probing
      probes := ⟨s.time,s.now - s.start,s.account.rateLimitedUntil,s.aborted,s.overloadedUntil q,s.exhausted q⟩::s.probes }

def cooldownWait : Int := max 0 (s.account.rateLimitedUntil.getD s.now - s.now)

def turn (random : ℚ) : Hold :=
  if ¬ s.attempt < q.maxAttempts then s.finish .gaveUp
  else if s.aborted then s.finish .gaveUp
  else if s.exhausted q then s.finish .gaveUp
  else if (s.overloadedUntil q).isSome then s.finish .gaveUp
  else if s.remaining q ≤ 0 then s.finish .gaveUp
  -- Never wake early.
  else if s.cooldownWait > s.remaining q then s.finish .gaveUp
  else
    let wait : ℚ := min (s.cooldownWait + random * q.tuning.jitterMs) (s.remaining q)
    if wait > 0 then { s with phase := .cooling (s.time + wait) } else s.reprobe q

inductive Outcome where | response | throttled | declined | suppressed | threw deriving DecidableEq

def settle (outcome : Outcome) (rateLimitedUntil : Option Int) (random again : ℚ) : Hold :=
  let s := { s with account := { s.account with rateLimitedUntil := rateLimitedUntil } }
  let answered := { s with made := s.made + 1 }
  match outcome with
  | .threw => answered.finish .threw
  | .declined => answered.finish .gaveUp
  | .response => { answered with attempt := s.attempt + 1 }.finish .response
  | .throttled =>
    if s.exhausted q then answered.finish .gaveUp else { answered with attempt := s.attempt + 1 }.turn q again
  | .suppressed =>
    if s.exhausted q then s.finish .gaveUp
    else
      let pollWait : ℚ := q.tuning.suppressedPollMs + random * q.tuning.jitterMs
      if pollWait > s.remaining q then s.finish .gaveUp
      else if s.aborted then s.finish .gaveUp
      else { s with phase := .polling (s.time + max 0 pollWait) }

end Hold

inductive Event where
  | pass (elapsed : ℚ)
  | abort
  | breaker (breaker : Breaker)
  | memo (memo : Memo)
  | enter (slot : Bool) (random : ℚ)
  | wake (random : ℚ)
  | outcome (outcome : Hold.Outcome) (rateLimitedUntil : Option Int) (random again : ℚ)

def Fraction (random : ℚ) : Prop := 0 ≤ random ∧ random < 1

instance (random : ℚ) : Decidable (Fraction random) := inferInstanceAs (Decidable (_ ∧ _))

def Phase.within (time : ℚ) : Phase → Bool
  | .cooling until_ => time ≤ until_
  | .polling until_ => time ≤ until_
  | _ => true

def step (q : Request) (s : Hold) : Event → Option Hold
  | .pass elapsed => if 0 ≤ elapsed ∧ s.phase.within (s.time + elapsed) then some { s with time := s.time + elapsed } else none
  | .abort =>
    match s.phase with
    | .cooling _ => some ({ s with aborted := true }.finish .gaveUp)
    | .polling _ => some ({ s with aborted := true }.finish .gaveUp)
    | _ => some { s with aborted := true }
  | .breaker breaker => some { s with breaker := breaker }
  | .memo memo => some { s with memo := memo }
  | .enter slot random =>
    match s.phase with
    | .before =>
      if Fraction random then
        if slot then some ({ s with slots := s.slots + 1, start := s.now }.turn q random) else some { s with phase := .done .overflow }
      else none
    | _ => none
  | .wake random =>
    match s.phase with
    | .cooling until_ => if s.time = until_ then some (s.reprobe q) else none
    | .polling until_ => if s.time = until_ ∧ Fraction random then some (s.turn q random) else none
    | _ => none
  | .outcome outcome rateLimitedUntil random again =>
    match s.phase with
    | .probing => if Fraction random ∧ Fraction again then some (s.settle q outcome rateLimitedUntil random again) else none
    | _ => none

def machine (q : Request) : Machine Hold Event where
  init s := s.phase = .before ∧ s.attempt = 0 ∧ s.slots = 0 ∧ s.releases = 0 ∧ s.probes = [] ∧ s.made = 0
  step := step q

end Clankermux.BurstHold
