import Clankermux.Machine

/-! The admission of reads of an account's usage, the deadline of the endpoint's own rate limit and the fetches of the
poller. Time passes beside a clock that never runs fast and may step back; the reads and the deadlines that were noted
are kept with it. -/
namespace Clankermux.UsageReads

variable {Account : Type} [DecidableEq Account]

def ANTHROPIC_USAGE_READ_MIN_GAP_MS : Int := 150000
def USAGE_RATE_LIMITED_DEFAULT_MS : Int := 5 * 60 * 1000

structure AccountState where
  lastReadAt : Option Int
  held : Bool

inductive UsageReadGrant where
  | slot
  | waitMs (waitMs : Int)

namespace AccountState
variable (now : Int) (state : AccountState)

-- A read stamped after now is stamped again as sent now.
def waitFor : AccountState × Int :=
  match state.lastReadAt with
  | none => (state,0)
  | some lastReadAt =>
    let lastReadAt := if lastReadAt > now then now else lastReadAt
    ({ state with lastReadAt := some lastReadAt },max 0 (lastReadAt + ANTHROPIC_USAGE_READ_MIN_GAP_MS - now))

def tryAcquire : AccountState × UsageReadGrant :=
  if state.held then (state,.waitMs ANTHROPIC_USAGE_READ_MIN_GAP_MS)
  else
    let (state,waitMs) := state.waitFor now
    if waitMs > 0 then (state,.waitMs waitMs) else ({ state with held := true },.slot)

def markRead : AccountState := { state with lastReadAt := some now }

def release : AccountState := { state with held := false }

def seed (lastReadAt : Int) : AccountState :=
  let at_ := min lastReadAt now
  match state.lastReadAt with
  | none => { state with lastReadAt := some at_ }
  | some lastReadAt => if at_ > lastReadAt then { state with lastReadAt := some at_ } else state

def waitMs : AccountState × Int := if state.held then (state,ANTHROPIC_USAGE_READ_MIN_GAP_MS) else state.waitFor now

end AccountState

structure Read (Account : Type) where
  account : Account
  sentAt : Int
  admitted : Bool

structure UsageReadSlot (Account : Type) where
  account : Account
  done : Bool
  known : List (Read Account)

structure Deadline where
  until_ : Int
  recordedAt : Int

structure Note (Account : Type) where
  account : Account
  until_ : Int
  reached : Int

structure Fetch (Account : Type) where
  account : Account
  fetchStartedAt : Int
  landed : Bool

structure UsageCache (Account : Type) where
  time : Int
  clock : Int
  accounts : Account → AccountState
  slots : List (UsageReadSlot Account)
  usageRateLimitedUntil : Account → Option Deadline
  fetches : List (Fetch Account)
  reads : List (Read Account)
  notes : List (Note Account)

namespace UsageCache
variable (s : UsageCache Account)

def start (time clock : Int) : UsageCache Account := ⟨time,clock,fun _ => ⟨none,false⟩,[],fun _ => none,[],[],[]⟩

def setAccount (accountId : Account) (state : AccountState) : UsageCache Account :=
  { s with accounts := Function.update s.accounts accountId state }

def pass (elapsed clock : Int) : UsageCache Account :=
  { s with time := s.time + elapsed, clock := clock, notes := s.notes.map (fun note => { note with reached := max note.reached clock }) }

def logRead (accountId : Account) (sentAt : Int) (admitted : Bool) : UsageCache Account :=
  { s with reads := ⟨accountId,sentAt,admitted⟩::s.reads }

def tryAcquireAnthropicUsageRead (accountId : Account) : UsageCache Account × UsageReadGrant :=
  match (s.accounts accountId).tryAcquire s.clock with
  | (state,.slot) => ({ s.setAccount accountId state with slots := s.slots ++ [⟨accountId,false,s.reads⟩] },.slot)
  | (state,.waitMs waitMs) => (s.setAccount accountId state,.waitMs waitMs)

def useSlot (slot : Nat) (use : UsageCache Account → Account → UsageCache Account) : UsageCache Account :=
  match s.slots[slot]? with
  | none => s
  | some held =>
    if held.done then s
    else
      let s := { s with slots := s.slots.set slot { held with done := true } }
      use (s.setAccount held.account (s.accounts held.account).release) held.account

def commit (slot : Nat) : UsageCache Account :=
  s.useSlot slot (fun s accountId => (s.setAccount accountId ((s.accounts accountId).markRead s.clock)).logRead accountId s.time true)

def cancel (slot : Nat) : UsageCache Account := s.useSlot slot (fun s _ => s)

def noteAnthropicUsageRead (accountId : Account) : UsageCache Account :=
  (s.setAccount accountId ((s.accounts accountId).markRead s.clock)).logRead accountId s.time false

def anthropicUsageReadWaitMs (accountId : Account) : UsageCache Account × Int :=
  ((s.setAccount accountId ((s.accounts accountId).waitMs s.clock).1),((s.accounts accountId).waitMs s.clock).2)

def lastRead (lastReadAt readingObservedAt : Option Int) : Option Int :=
  match lastReadAt,readingObservedAt.filter (· ≤ s.clock) with
  | some lastReadAt,some observedAt => some (max lastReadAt observedAt)
  | lastReadAt,none => lastReadAt
  | none,observedAt => observedAt

def restoreAnthropicUsageRead (accountId : Account) (lastReadAt readingObservedAt : Option Int) (sentAt : Int) : UsageCache Account :=
  match s.lastRead lastReadAt readingObservedAt with
  | none => s
  | some lastRead => (s.setAccount accountId ((s.accounts accountId).seed s.clock lastRead)).logRead accountId sentAt false

def noteRateLimited (accountId : Account) (until_ : Int) : UsageCache Account :=
  let s := { s with notes := ⟨accountId,until_,s.clock⟩::s.notes }
  if (s.usageRateLimitedUntil accountId).all (fun existing => until_ > existing.until_) then
    { s with usageRateLimitedUntil := Function.update s.usageRateLimitedUntil accountId (some ⟨until_,s.clock⟩) }
  else s

def getRateLimitedUntil (accountId : Account) : UsageCache Account × Option Int :=
  match s.usageRateLimitedUntil accountId with
  | none => (s,none)
  | some entry =>
    if s.clock ≥ entry.until_ then ({ s with usageRateLimitedUntil := Function.update s.usageRateLimitedUntil accountId none },none)
    else (s,some entry.until_)

def sendFetch (accountId : Account) : UsageCache Account × Option Int :=
  match s.getRateLimitedUntil accountId with
  | (s,some limitedUntil) => (s,some (max 0 (limitedUntil - s.clock)))
  | (s,none) =>
    match s.tryAcquireAnthropicUsageRead accountId with
    | (s,.waitMs waitMs) => (s,some waitMs)
    | (s,.slot) =>
      let s := s.commit (s.slots.length - 1)
      ({ s with fetches := s.fetches ++ [⟨accountId,s.clock,false⟩] },none)

inductive Outcome where
  | success
  | rateLimited (retryAfterMs : Option Int)
  | failed

def land (fetch : Nat) : UsageCache Account :=
  match s.fetches[fetch]? with
  | none => s
  | some sent => { s with fetches := s.fetches.set fetch { sent with landed := true } }

def answerFetch (sent : Fetch Account) (isCurrent : Bool) (outcome : Outcome) : UsageCache Account :=
  if !isCurrent then s
  else
    match outcome with
    | .success =>
      if (s.usageRateLimitedUntil sent.account).any (fun deadline => sent.fetchStartedAt > deadline.recordedAt) then
        { s with usageRateLimitedUntil := Function.update s.usageRateLimitedUntil sent.account none }
      else s
    | .rateLimited retryAfterMs => s.noteRateLimited sent.account (s.clock + retryAfterMs.getD USAGE_RATE_LIMITED_DEFAULT_MS)
    | .failed => s

end UsageCache

inductive Event (Account : Type) where
  | pass (elapsed clock : Int)
  | tryAcquire (accountId : Account)
  | commit (slot : Nat)
  | cancel (slot : Nat)
  | noteRead (accountId : Account)
  | waitMs (accountId : Account)
  | restore (accountId : Account) (lastReadAt readingObservedAt : Option Int) (sentAt : Int)
  | noteRateLimited (accountId : Account) (until_ : Int)
  | getRateLimitedUntil (accountId : Account)
  | fetch (accountId : Account)
  | answer (fetch : Nat) (isCurrent : Bool) (outcome : UsageCache.Outcome)

def UsageCache.Stamped (s : UsageCache Account) (lastRead : Option Int) (sentAt : Int) : Prop :=
  sentAt ≤ s.time ∧ ∀ at_ ∈ lastRead, s.clock - at_ ≤ s.time - sentAt

instance (s : UsageCache Account) (lastRead : Option Int) (sentAt : Int) : Decidable (s.Stamped lastRead sentAt) :=
  inferInstanceAs (Decidable (_ ∧ _))

def step (s : UsageCache Account) : Event Account → Option (UsageCache Account)
  | .pass elapsed clock => if 0 ≤ elapsed ∧ clock ≤ s.clock + elapsed then some (s.pass elapsed clock) else none
  | .tryAcquire accountId => some (s.tryAcquireAnthropicUsageRead accountId).1
  | .commit slot => some (s.commit slot)
  | .cancel slot => some (s.cancel slot)
  | .noteRead accountId => some (s.noteAnthropicUsageRead accountId)
  | .waitMs accountId => some (s.anthropicUsageReadWaitMs accountId).1
  | .restore accountId lastReadAt readingObservedAt sentAt =>
    if s.Stamped (s.lastRead lastReadAt readingObservedAt) sentAt then
      some (s.restoreAnthropicUsageRead accountId lastReadAt readingObservedAt sentAt)
    else none
  | .noteRateLimited accountId until_ => some (s.noteRateLimited accountId until_)
  | .getRateLimitedUntil accountId => some (s.getRateLimitedUntil accountId).1
  | .fetch accountId => some (s.sendFetch accountId).1
  | .answer fetch isCurrent outcome =>
    match s.fetches[fetch]? with
    | none => none
    | some sent => if sent.landed then none else some ((s.land fetch).answerFetch sent isCurrent outcome)

def machine (Account : Type) [DecidableEq Account] : Machine (UsageCache Account) (Event Account) where
  init s := ∃ time clock, s = .start time clock
  step := step

end Clankermux.UsageReads
