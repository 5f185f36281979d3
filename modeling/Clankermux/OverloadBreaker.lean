import Clankermux.InsertionMap
import Clankermux.Machine

/-! The model-family-scoped breaker for upstream overload. A bucket that is absent
is closed, one whose deadline is ahead is open, and one whose deadline has passed
but which still exists is half-open: a single probe may then lease it. Log lines
and the fields only they read are left out. -/
namespace Clankermux.OverloadBreaker
open InsertionMap

inductive ModelFamily where | opus | sonnet | haiku | fable deriving DecidableEq

@[grind] def ModelFamily.name : ModelFamily → String
  | .opus => "opus"
  | .sonnet => "sonnet"
  | .haiku => "haiku"
  | .fable => "fable"

def KNOWN_PATTERNS : List ModelFamily := [.opus,.haiku,.sonnet,.fable]

-- The Kelvin sign is the only character outside ASCII whose lower case is a
-- letter of one of the patterns.
def lowerCase (c : Char) : Char := if c.toNat = 0x212A then 'k' else c.toLower

def includes : List Char → List Char → Bool
  | [],pattern => pattern.isEmpty
  | c::rest,pattern => pattern.isPrefixOf (c::rest) || includes rest pattern

def getModelFamily (modelId : String) : Option ModelFamily :=
  let normalized := modelId.toList.map lowerCase
  if includes normalized "mythos".toList then some .fable
  else KNOWN_PATTERNS.find? (fun pattern => includes normalized pattern.name.toList)

def DEFAULT_PROVIDER_OVERLOAD_COOLDOWN_MS : Int := 60000
def MAX_PROVIDER_OVERLOAD_COOLDOWN_MS : Int := 5 * 60000
def ANTHROPIC_UPSTREAM_OVERLOAD_KEY : String := "anthropic-upstream"
def PROBE_LEASE_SAFETY_MARGIN_MS : Int := 60000
def PROXY_REQUEST_TIMEOUT_MS : Int := 30 * 60 * 1000
def STREAM_FORWARD_TOTAL_TIMEOUT_MS : Int := 30 * 60 * 1000
def PROBE_ADMISSION_TTL_MS : Int := DEFAULT_PROVIDER_OVERLOAD_COOLDOWN_MS

def getProbeLeaseSafetyTtlMs : Int :=
  PROXY_REQUEST_TIMEOUT_MS + STREAM_FORWARD_TOTAL_TIMEOUT_MS + PROBE_LEASE_SAFETY_MARGIN_MS

def isOfficialAnthropicProvider (provider : String) : Bool :=
  provider == "anthropic" || provider == "claude-oauth" || provider == "claude-console-api"

abbrev Canceller := Nat

structure ProbeLease where
  key : String
  generation : Nat
  leaseId : Nat
  deriving DecidableEq

structure OverloadProbeToken where
  probeId : Nat
  acquiredAt : Int
  leases : List ProbeLease
  deriving DecidableEq

structure Probe where
  leaseId : Nat
  acquiredAt : Int
  ttlMs : Int
  admissionTtlMs : Int
  probeId : Nat
  onDisplaced : Option Canceller
  deriving DecidableEq

structure OverloadBucket where
  untilMs : Int
  generation : Nat
  probe : Option Probe
  deriving DecidableEq

structure Breaker where
  buckets : InsertionMap String OverloadBucket
  generationCounter : Nat
  leaseIdCounter : Nat
  probeIdCounter : Nat

def Breaker.empty : Breaker := ⟨[],0,0,0⟩
def Breaker.bucket (b : Breaker) (key : String) : Option OverloadBucket := get b.buckets key

inductive ResetSource where | hint | hint_capped | no_usable_reset_default deriving DecidableEq

-- An absent candidate stands for undefined and for every number that is not finite.
def normalizeUntil (candidate : Option Int) (now : Int) : Int × ResetSource :=
  match candidate with
  | some ms =>
    if ms ≠ 0 ∧ ms > now then
      let capped := now + MAX_PROVIDER_OVERLOAD_COOLDOWN_MS
      if ms > capped then (capped,.hint_capped) else (ms,.hint)
    else (now + DEFAULT_PROVIDER_OVERLOAD_COOLDOWN_MS,.no_usable_reset_default)
  | none => (now + DEFAULT_PROVIDER_OVERLOAD_COOLDOWN_MS,.no_usable_reset_default)

def getProviderOverloadKey (provider : String) : String :=
  if isOfficialAnthropicProvider provider then ANTHROPIC_UPSTREAM_OVERLOAD_KEY else provider

structure KeyParts where
  providerKey : String
  family : Option ModelFamily
  familyKey : Option String

def resolveOverloadKeyParts (provider : String) (model : Option String) : KeyParts :=
  let providerKey := getProviderOverloadKey provider
  let family := model.bind getModelFamily
  ⟨providerKey,family,family.map (fun f => providerKey ++ ":" ++ f.name)⟩

def bucketKey (provider : String) (model : Option String) : String :=
  let parts := resolveOverloadKeyParts provider model
  parts.familyKey.getD parts.providerKey

def startsWith (key first : String) : Bool := first.toList.isPrefixOf key.toList

def ofProvider (providerKey key : String) : Bool :=
  key == providerKey || startsWith key (providerKey ++ ":")

def relevantKeys (b : Breaker) (provider : String) (model : Option String) : List String :=
  let parts := resolveOverloadKeyParts provider model
  match parts.familyKey with
  | some familyKey => [familyKey,parts.providerKey]
  | none => (keys b.buckets).filter (ofProvider parts.providerKey)

def isLeaseActive (bucket : OverloadBucket) (now : Int) : Bool :=
  bucket.probe.any (fun p => now - p.acquiredAt < p.ttlMs)

def isLeaseBlockingAdmission (bucket : OverloadBucket) (now : Int) : Bool :=
  bucket.probe.any (fun p => now - p.acquiredAt < p.admissionTtlMs)

structure Tripped where
  breaker : Breaker
  effectiveUntil : Int
  cancelled : List Canceller

/-- `probeId` names the request reporting the overload, when it holds a probe. -/
def applyProviderOverloadCooldown (b : Breaker) (now : Int) (provider : String) (resetTime : Option Int)
    (model : Option String) (probeId : Option Nat) : Tripped :=
  let key := bucketKey provider model
  let candidate := (normalizeUntil resetTime now).1
  let bucket := b.bucket key
  let effectiveUntil := (bucket.map (fun old => max old.untilMs candidate)).getD candidate
  let generation := b.generationCounter + 1
  -- The lease goes with the bucket, so its owner is cancelled on the way out,
  -- unless the owner is the one reporting.
  let cancelDisplaced := (bucket.bind (·.probe)).bind (fun displaced =>
    if some displaced.probeId = probeId then none else displaced.onDisplaced)
  { breaker := { b with
      buckets := set b.buckets key ⟨effectiveUntil,generation,none⟩
      generationCounter := generation }
    effectiveUntil
    cancelled := cancelDisplaced.toList }

@[grind] def later (max : Option Int) (deadline : Int) : Option Int :=
  match max with
  | none => some deadline
  | some m => if deadline > m then some deadline else some m

@[grind] def latestDeadline (b : Breaker) (now : Int) : List String → Option Int → Option Int
  | [],max => max
  | key::rest,max =>
    match b.bucket key with
    | some bucket => latestDeadline b now rest (if bucket.untilMs > now then later max bucket.untilMs else max)
    | none => latestDeadline b now rest max

def getProviderOverloadUntil (b : Breaker) (provider : String) (now : Int) (model : Option String) : Option Int :=
  latestDeadline b now (relevantKeys b provider model) none

inductive BreakerState where | «open» | half_open | closed deriving DecidableEq

structure OverloadBreakerStatus where
  state : BreakerState
  untilMs : Option Int
  probeActive : Bool

structure Inspected where
  untilMs : Option Int
  halfOpen : Bool
  probeActive : Bool

def inspectBucket (now : Int) (seen : Inspected) (bucket : OverloadBucket) : Inspected :=
  let probeActive := seen.probeActive || isLeaseActive bucket now
  if bucket.untilMs > now then ⟨later seen.untilMs bucket.untilMs,seen.halfOpen,probeActive⟩ else ⟨seen.untilMs,true,probeActive⟩

def inspectProviderOverload (b : Breaker) (provider : String) (model : Option String) (now : Int) : OverloadBreakerStatus :=
  let seen := ((relevantKeys b provider model).filterMap b.bucket).foldl (inspectBucket now) ⟨none,false,false⟩
  match seen.untilMs with
  | some untilMs => ⟨.open,some untilMs,seen.probeActive⟩
  | none => if seen.halfOpen then ⟨.half_open,none,seen.probeActive⟩ else ⟨.closed,none,false⟩

inductive RefusalReason where | «open» | probeActive deriving DecidableEq

inductive ProbeAdmission where
  | admitted (token : Option OverloadProbeToken)
  | refused (reason : RefusalReason) (untilMs : Option Int)

def existing (b : Breaker) (keys : List String) : List String := keys.filter (fun key => (b.bucket key).isSome)

def blocked (b : Breaker) (now : Int) (keys : List String) : Bool :=
  keys.any (fun key => (b.bucket key).any (isLeaseBlockingAdmission · now))

structure Leased where
  leases : List ProbeLease
  displaced : List Canceller
  breaker : Breaker

def freshProbe (now : Int) (probeId : Nat) (onDisplaced : Option Canceller) (leaseId : Nat) : Probe :=
  ⟨leaseId,now,getProbeLeaseSafetyTtlMs,PROBE_ADMISSION_TTL_MS,probeId,onDisplaced⟩

def leaseBucket (b : Breaker) (now : Int) (probeId : Nat) (onDisplaced : Option Canceller) (key : String)
    (bucket : OverloadBucket) : Breaker :=
  let leaseId := b.leaseIdCounter + 1
  { b with
    leaseIdCounter := leaseId
    buckets := set b.buckets key { bucket with probe := some (freshProbe now probeId onDisplaced leaseId) } }

@[grind] def takeLeases (now : Int) (probeId : Nat) (onDisplaced : Option Canceller) : List String → Breaker → Leased
  | [],b => ⟨[],[],b⟩
  | key::rest,b =>
    match b.bucket key with
    | none => takeLeases now probeId onDisplaced rest b
    | some bucket =>
      let leased := takeLeases now probeId onDisplaced rest (leaseBucket b now probeId onDisplaced key bucket)
      { leased with
        leases := ⟨key,bucket.generation,b.leaseIdCounter + 1⟩::leased.leases
        displaced := (bucket.probe.bind (·.onDisplaced)).toList ++ leased.displaced }

structure Acquired where
  admission : ProbeAdmission
  cancelled : List Canceller
  breaker : Breaker

def tryAcquireProviderOverloadProbe (b : Breaker) (now : Int) (provider : String) (model : Option String)
    (onDisplaced : Option Canceller) : Acquired :=
  let relevant := relevantKeys b provider model
  match getProviderOverloadUntil b provider now model with
  | some openUntil => ⟨.refused .open (some openUntil),[],b⟩
  | none =>
    if blocked b now relevant then ⟨.refused .probeActive none,[],b⟩
    else
      let halfOpenKeys := existing b relevant
      if halfOpenKeys.isEmpty then ⟨.admitted none,[],b⟩
      else
        let probeId := b.probeIdCounter + 1
        let leased := takeLeases now probeId onDisplaced halfOpenKeys { b with probeIdCounter := probeId }
        ⟨.admitted (some ⟨probeId,now,leased.leases⟩),leased.displaced.eraseDups,leased.breaker⟩

inductive Outcome where | recovered | reopened | abandoned deriving DecidableEq

def Current (bucket : OverloadBucket) (lease : ProbeLease) : Prop :=
  bucket.generation = lease.generation ∧ bucket.probe.map (·.leaseId) = some lease.leaseId
instance (bucket lease) : Decidable (Current bucket lease) := by unfold Current; infer_instance

def settleLease (outcome : Outcome) (b : Breaker) (lease : ProbeLease) : Breaker :=
  match b.bucket lease.key with
  | none => b
  | some bucket =>
    if Current bucket lease then
      match outcome with
      | .recovered => { b with buckets := delete b.buckets lease.key }
      | .reopened | .abandoned => { b with buckets := set b.buckets lease.key { bucket with probe := none } }
    else b

def completeProviderOverloadProbe (b : Breaker) (token : Option OverloadProbeToken) (outcome : Outcome) : Breaker :=
  match token with
  | none => b
  | some t => t.leases.foldl (settleLease outcome) b

def clearProviderOverloadCooldown (b : Breaker) : Option String → Breaker
  | some provider => { b with
      buckets := ((keys b.buckets).filter (ofProvider (getProviderOverloadKey provider))).foldl delete b.buckets }
  | none => { b with buckets := [] }

def cleared (provider : Option String) (key : String) : Bool :=
  provider.all (fun p => ofProvider (getProviderOverloadKey p) key)

/-! The breaker as its callers drive it: each call reads a clock that never runs
backwards, and the history keeps what happened, newest first. -/

inductive Happened where
  | tripped (key : String) (now : Int) (resetTime : Option Int) (probeId : Option Nat)
  | admitted (token : OverloadProbeToken) (onDisplaced : Option Canceller)
  | completed (probeId : Nat)
  | cleared (provider : Option String)
  | cancelled (canceller : Canceller)
  deriving DecidableEq

structure World where
  breaker : Breaker
  clock : Int
  history : List Happened

inductive Call where
  | apply (provider : String) (resetTime : Option Int) (model : Option String) (probeId : Option Nat)
  | acquire (provider : String) (model : Option String) (onDisplaced : Option Canceller)
  | complete (token : Option OverloadProbeToken) (outcome : Outcome)
  | clear (provider : Option String)

structure Event where
  elapsed : Nat
  call : Call

def issued (history : List Happened) (token : OverloadProbeToken) : Bool :=
  history.any (fun h => match h with
    | .admitted t _ => t == token
    | _ => false)

def step (w : World) (e : Event) : Option World :=
  let now := w.clock + e.elapsed
  match e.call with
  | .apply provider resetTime model probeId =>
    let t := applyProviderOverloadCooldown w.breaker now provider resetTime model probeId
    some ⟨t.breaker,now,
      t.cancelled.map .cancelled ++ .tripped (bucketKey provider model) now resetTime probeId::w.history⟩
  | .acquire provider model onDisplaced =>
    let a := tryAcquireProviderOverloadProbe w.breaker now provider model onDisplaced
    match a.admission with
    | .admitted (some token) =>
      some ⟨a.breaker,now,a.cancelled.map .cancelled ++ .admitted token onDisplaced::w.history⟩
    | _ => some ⟨a.breaker,now,w.history⟩
  | .complete none outcome => some ⟨completeProviderOverloadProbe w.breaker none outcome,now,w.history⟩
  -- A token is opaque: a caller can only hand back one that an admission returned.
  | .complete (some token) outcome =>
    if issued w.history token then
      some ⟨completeProviderOverloadProbe w.breaker (some token) outcome,now,.completed token.probeId::w.history⟩
    else none
  | .clear provider =>
    some ⟨clearProviderOverloadCooldown w.breaker provider,now,.cleared provider::w.history⟩

def machine : Machine World Event where
  init w := w.breaker = .empty ∧ w.history = []
  step := step

end Clankermux.OverloadBreaker
