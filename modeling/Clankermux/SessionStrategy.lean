import Clankermux.RecencyMap
import Clankermux.Text
import Clankermux.Machine
import Mathlib.Algebra.Order.Monoid.WithTop
import Mathlib.Algebra.Order.Ring.Rat

/-! The session strategy: where a request is sent, and the pins that keep a conversation
on its account. The ids of a list of accounts are taken to be distinct, as in the table
they are read from. The usage windows and the hash are parameters. -/
namespace Clankermux.LoadBalancer
open InsertionMap RecencyMap

def affinityReassignMinCooldownMs : Int := 15 * 60 * 1000

def maxAffinityEntries : Nat := 10000

def modelPinSeparator : String := "\x00"

abbrev Figure := WithBot (WithTop Rat)

def Figure.of (value : Rat) : Figure := (value : WithTop Rat)

def headroomEps : Rat := 5

inductive RateLimitReason where
  | upstream429WithReset | upstream429NoResetProbeCooldown | modelFallback429 | allModelsExhausted429
  | upstream529OverloadedWithReset | upstream529OverloadedNoReset | outOfCredits | orgPermissionDenied
  | familyWeeklyExhausted429 | weeklyExhausted429 | sessionExhausted429
  deriving DecidableEq

def transientRateLimitReasons : List RateLimitReason :=
  [.upstream529OverloadedWithReset,.upstream529OverloadedNoReset,.upstream429NoResetProbeCooldown]

structure Account where
  id : String
  provider : String
  priority : Int
  disabled : Bool
  paused : Bool
  pauseReason : Option String
  autoFallbackEnabled : Bool
  rateLimitReset : Option Int
  rateLimitedUntil : Option Int
  rateLimitedReason : Option RateLimitReason
  sessionStart : Option Int
  sessionRequestCount : Nat
  identitySubscriptionWillRenew : Option Int
  identitySubscriptionEndsAt : Option Int

structure CapacitySignal where
  minHeadroom : Figure
  sessionHeadroom : Figure
  bindingUtilization : Figure
  weeklyResetMs : Option Figure
  bindingWeeklyResetMs : Option Figure
  weeklyHeadroom : Figure
  sessionResetMs : Option Figure
  extraUsageUtilization : Option Figure

structure Store where
  getAccountCapacity : String → String → Int → Option CapacitySignal
  getAccountUtilization : String → String → Int → Option Figure
  resumeAccount : Bool

/-- The cap on the pins is `maxAffinityEntries` in the source; nothing below depends on it. -/
structure Config where
  sessionDurationMs : Int
  maxAffinityEntries : Nat
  store : Option Store
  sha256 : String → String

inductive AffinityScope where | claudeSession | codexThread | clientSession | project deriving DecidableEq

def AffinityScope.label : AffinityScope → String
  | .claudeSession => "claude_session"
  | .codexThread => "codex_thread"
  | .clientSession => "client_session"
  | .project => "project"

structure Routing where
  strategy : String
  decision : String
  affinityScope : Option AffinityScope
  affinityKey : Option String
  selectedAccountId : Option String
  previousAccountId : Option String
  candidatesCount : Nat
  heldAccountId : Option String

structure RequestMeta where
  affinityKey : Option String
  affinityScope : Option AffinityScope
  affinityPartition : Option String
  affinityModel : Option String
  project : Option String
  internal : Bool
  bypassHeader : Option String
  routing : Option Routing

structure Affinity where
  accountId : String
  lastUsedAt : Int
  deriving DecidableEq

/-- An imported pin; a stamp that is no number is `none`. -/
structure AffinityPin where
  keyHash : String
  accountId : String
  lastUsedAt : Option Int

structure SessionStrategy where
  affinityByKey : InsertionMap String Affinity
  affinityChanges : Nat
  lastAffinityStamp : Int
  pickSeq : Nat
  lastPickedSeq : InsertionMap String Nat
  /-- The keys dropped because the map was full, the last one last. -/
  capacityPruned : List String

def present (value : Option Int) : Option Int := value.filter (· ≠ 0)

def trimmed (text : Option String) : Option String := (text.map trim).filter (· ≠ "")

def isAccountAvailable (account : Account) (now : Int) : Bool :=
  !account.disabled && !account.paused && (present account.rateLimitedUntil).all (· < now)

def isSelfHealingPauseReason (reason : Option String) : Bool :=
  match reason with
  | none => true
  | some reason => reason == "" || reason == "overage" || reason == "rate_limit_window"

def supportsWindowResetUnpause (provider : String) : Bool :=
  provider == "anthropic" || provider == "codex" || provider == "zai"

def rateLimitResetBufferMs : Int := 1000

def isAutoUnpauseCandidate (account : Account) (now : Int) : Bool :=
  !account.disabled && account.paused && account.autoFallbackEnabled &&
    supportsWindowResetUnpause account.provider &&
    account.rateLimitReset.any (· < now - rateLimitResetBufferMs) &&
    (present account.rateLimitedUntil).all (· < now)

def requiresSessionDurationTracking (provider : String) : Bool :=
  provider == "anthropic" || provider == "zai" || provider == "codex"

def isAffinityBreakingUnavailability (account : Account) (now : Int) : Bool :=
  if account.paused then true
  else if account.rateLimitedReason = some .orgPermissionDenied then true
  else
    match present account.rateLimitedUntil with
    | none => false
    | some rateLimitedUntil =>
      if rateLimitedUntil ≤ now then false
      else if account.rateLimitedReason.any (transientRateLimitReasons.contains ·) then false
      else rateLimitedUntil - now > affinityReassignMinCooldownMs

variable (cfg : Config)

/-- `clock` is the reading the reset takes for itself. -/
def resetSessionIfExpired (account : Account) (clock : Int) : Account :=
  let fixedDurationExpired := requiresSessionDurationTracking account.provider &&
    (present account.sessionStart).all (fun start => clock - start ≥ cfg.sessionDurationMs)
  let rateLimitWindowReset := (account.provider == "anthropic" || account.provider == "codex") &&
    (present account.rateLimitReset).any (fun reset => reset < clock - 1000 &&
      (present account.sessionStart).all (· < reset + 1000))
  if (fixedDurationExpired || rateLimitWindowReset) && cfg.store.isSome then
    { account with sessionStart := some clock,sessionRequestCount := 0 }
  else account

def hasActiveSession (account : Account) (now : Int) : Bool :=
  requiresSessionDurationTracking account.provider &&
    (present account.rateLimitedUntil).all (· ≤ now) &&
    (present account.sessionStart).any (fun start => now - start < cfg.sessionDurationMs)

def getAffinityKey (request : RequestMeta) : Option String :=
  let affix := match trimmed request.affinityPartition with
    | some partition_ => "partition:" ++ partition_ ++ ":"
    | none => ""
  match trimmed request.affinityKey,request.affinityScope with
  | some explicitKey,some scope => some (affix ++ scope.label ++ ":" ++ explicitKey)
  | _,_ => (trimmed request.project).map (fun project => affix ++ "project:" ++ project)

def getAffinityModel (request : RequestMeta) : Option String := trimmed request.affinityModel

def hashRoutingAffinityKey (value : Option String) : Option String :=
  (value.filter (· ≠ "")).map cfg.sha256

structure MapKeys where
  pin : String
  anchor : Option String
  deriving DecidableEq

def getAffinityMapKeys (request : RequestMeta) : Option MapKeys :=
  let conversation := getAffinityKey request
  match conversation,(hashRoutingAffinityKey cfg conversation).filter (· ≠ "") with
  | some conversation,some conversationKey =>
    match getAffinityModel request with
    | none => some ⟨conversationKey,none⟩
    | some model => some ⟨cfg.sha256 (conversation ++ modelPinSeparator ++ model),some conversationKey⟩
  | _,_ => none

def getAffinityScope (request : RequestMeta) : Option AffinityScope :=
  match trimmed request.affinityKey,request.affinityScope with
  | some _,some scope => some scope
  | _,_ => (trimmed request.project).map (fun _ => .project)

def setRoutingMeta (request : RequestMeta) (decision : String) (selectedAccount : Option Account)
    (candidatesCount : Nat) (affinityKey previousAccountId heldAccountId : Option String) : RequestMeta :=
  let routing : Routing :=
    { strategy := "session",decision,candidatesCount,previousAccountId,heldAccountId
      affinityScope := getAffinityScope request
      affinityKey := affinityKey.or (getAffinityKey request)
      selectedAccountId := selectedAccount.map (·.id) }
  { request with routing := some routing }

def pruneAffinity (s : SessionStrategy) (now : Int) : SessionStrategy :=
  let staleBefore := now - cfg.sessionDurationMs
  let swept := sweep Affinity.lastUsedAt staleBefore s.affinityByKey
  let changes := if swept.length = s.affinityByKey.length then s.affinityChanges else s.affinityChanges + 1
  { s with
    affinityByKey := capped cfg.maxAffinityEntries swept
    affinityChanges := if swept.length ≤ cfg.maxAffinityEntries then changes else changes + 1
    capacityPruned := s.capacityPruned ++ keys (overflow cfg.maxAffinityEntries swept) }

/-- The writes of `rememberAffinity`, which it prunes after. -/
def recordAffinity (s : SessionStrategy) (mapKeys : MapKeys) (accountId : String) (now : Int) : SessionStrategy :=
  let stamp := if now > s.lastAffinityStamp then now else s.lastAffinityStamp
  let pinned := touch s.affinityByKey mapKeys.pin ⟨accountId,stamp⟩
  { s with
    lastAffinityStamp := stamp
    affinityChanges := s.affinityChanges + 1
    affinityByKey := match mapKeys.anchor with
      | none => pinned
      | some anchor => touch pinned anchor ⟨((get pinned anchor).map (·.accountId)).getD accountId,stamp⟩ }

def rememberAffinity (s : SessionStrategy) (request : RequestMeta) (account : Account) (now : Int) : SessionStrategy :=
  match getAffinityMapKeys cfg request with
  | none => s
  | some mapKeys => pruneAffinity cfg (recordAffinity s mapKeys account.id now) now

def clearAffinityForAccount (s : SessionStrategy) (accountId : String) : SessionStrategy :=
  let left := s.affinityByKey.filter (fun entry => entry.2.accountId ≠ accountId)
  { s with
    affinityByKey := left
    affinityChanges := if left.length = s.affinityByKey.length then s.affinityChanges else s.affinityChanges + 1 }

def exportAffinity (s : SessionStrategy) : List AffinityPin :=
  s.affinityByKey.map (fun entry => ⟨entry.1,entry.2.accountId,some entry.2.lastUsedAt⟩)

def mergePin (now : Int) (merged : InsertionMap String Affinity) (pin : AffinityPin) : InsertionMap String Affinity :=
  match pin.lastUsedAt with
  | none => merged
  | some stamp =>
    let lastUsedAt := min stamp now
    if ¬ lastUsedAt ≥ now - cfg.sessionDurationMs then merged
    else if (get merged pin.keyHash).any (·.lastUsedAt ≥ lastUsedAt) then merged
    else touch merged pin.keyHash ⟨pin.accountId,lastUsedAt⟩

def mergesPin (now : Int) (merged : InsertionMap String Affinity) : List AffinityPin → Bool
  | [] => false
  | pin::rest => pin.lastUsedAt.any (fun stamp => min stamp now ≥ now - cfg.sessionDurationMs &&
      !(get merged pin.keyHash).any (·.lastUsedAt ≥ min stamp now)) || mergesPin now merged rest

def importAffinity (s : SessionStrategy) (pins : List AffinityPin) (now : Int) : SessionStrategy :=
  if mergesPin cfg now s.affinityByKey pins then
    let merged := pins.foldl (mergePin cfg now) s.affinityByKey
    let sorted := merged.insertionSort (fun a b => a.2.lastUsedAt ≤ b.2.lastUsedAt)
    let ordered := capped cfg.maxAffinityEntries sorted
    { s with
      affinityByKey := ordered
      lastAffinityStamp := ordered.foldl (fun last entry =>
        if entry.2.lastUsedAt > last then entry.2.lastUsedAt else last) s.lastAffinityStamp
      affinityChanges := s.affinityChanges + 1
      capacityPruned := s.capacityPruned ++ keys (overflow cfg.maxAffinityEntries sorted) }
  else s

inductive AffinityResolution where
  | hit (account : Account)
  | hold (heldAccountId : String)
  | miss
  | reassign (previousAccountId : String)

def dropAffinity (s : SessionStrategy) (key : String) : SessionStrategy :=
  { s with affinityByKey := delete s.affinityByKey key,affinityChanges := s.affinityChanges + 1 }

def resolveAffinity (s : SessionStrategy) (accounts : List Account) (key : Option String) (now : Int) :
    SessionStrategy × AffinityResolution :=
  let s := pruneAffinity cfg s now
  match key with
  | none => (s,.miss)
  | some key =>
    match get s.affinityByKey key with
    | none => (s,.miss)
    | some entry =>
      match accounts.find? (·.id = entry.accountId) with
      | none => (dropAffinity s key,.reassign entry.accountId)
      | some account =>
        if isAccountAvailable account now then (s,.hit account)
        else if isAffinityBreakingUnavailability account now then (dropAffinity s key,.reassign entry.accountId)
        else (s,.hold entry.accountId)

def resolveAnchor (s : SessionStrategy) (accounts : List Account) (anchorKey : String) (now : Int) : Option Account :=
  (get s.affinityByKey anchorKey).bind fun entry =>
    (accounts.find? (·.id = entry.accountId)).filter (isAccountAvailable · now)

inductive CapacityBucket where | harvest | unknown | nearLimit deriving DecidableEq

def CapacityBucket.rank : CapacityBucket → Nat
  | .harvest => 0
  | .unknown => 1
  | .nearLimit => 2

structure CapacityMetric where
  bucket : CapacityBucket
  harvestDeadline : Figure
  weeklyHeadroom : Figure
  binding : Figure
  util : Figure
  recoveryDeadline : Figure

def nonRenewingSubscriptionEnd (account : Account) (now : Int) : Option Int :=
  if account.provider = "codex" ∧ account.identitySubscriptionWillRenew = some 0 then
    account.identitySubscriptionEndsAt.filter (· > now)
  else none

def recoveryOf (s : CapacitySignal) : Figure :=
  let extraBound := s.extraUsageUtilization.any (· > .of (100 - headroomEps))
  let sessionBound : Bool := s.sessionHeadroom ≤ .of headroomEps
  let weeklyBound : Bool := s.weeklyHeadroom ≤ .of headroomEps
  if extraBound || (!sessionBound && !weeklyBound) then ⊤
  else
    let bounds := (if sessionBound then [s.sessionResetMs] else []) ++ (if weeklyBound then [s.bindingWeeklyResetMs] else [])
    if bounds.any (fun bound => bound.all (fun bound => bound = ⊤ ∨ bound = ⊥)) then ⊤
    else (bounds.filterMap id).foldl max ⊥

def bucketOf (s : CapacitySignal) : CapacityBucket :=
  if s.minHeadroom ≤ .of headroomEps ∨ s.bindingUtilization > .of (100 - headroomEps) then .nearLimit
  else if s.weeklyResetMs.isNone then .unknown
  else .harvest

def capacityMetricFor (account : Account) (now : Int) : CapacityMetric :=
  let util := (cfg.store.bind (·.getAccountUtilization account.id account.provider now)).getD 0
  match cfg.store.bind (·.getAccountCapacity account.id account.provider now) with
  | none => ⟨.unknown,⊤,100,0,util,⊤⟩
  | some s =>
    let weekly := s.weeklyResetMs.getD ⊤
    { bucket := bucketOf s,weeklyHeadroom := s.weeklyHeadroom,binding := s.bindingUtilization,util
      harvestDeadline := if bucketOf s = .harvest then
          match nonRenewingSubscriptionEnd account now with
          | some end_ => if Figure.of end_ < weekly then Figure.of end_ else weekly
          | none => weekly
        else weekly
      recoveryDeadline := if bucketOf s = .nearLimit then recoveryOf s else ⊤ }

def sortsBefore (s : SessionStrategy) (now : Int) (a b : Account) : Bool :=
  let x := capacityMetricFor cfg a now
  let y := capacityMetricFor cfg b now
  let xSeq := (get s.lastPickedSeq a.id).getD 0
  let ySeq := (get s.lastPickedSeq b.id).getD 0
  if a.priority ≠ b.priority then a.priority < b.priority
  else if x.bucket ≠ y.bucket then x.bucket.rank < y.bucket.rank
  else
    match x.bucket with
    | .harvest =>
      if x.harvestDeadline ≠ y.harvestDeadline then x.harvestDeadline < y.harvestDeadline
      else if x.weeklyHeadroom ≠ y.weeklyHeadroom then y.weeklyHeadroom < x.weeklyHeadroom
      else xSeq ≤ ySeq
    | .unknown => if x.util ≠ y.util then x.util < y.util else xSeq ≤ ySeq
    | .nearLimit =>
      if x.recoveryDeadline ≠ y.recoveryDeadline then x.recoveryDeadline < y.recoveryDeadline
      else if x.binding ≠ y.binding then x.binding < y.binding
      else xSeq ≤ ySeq

def sortAvailableAccounts (s : SessionStrategy) (accounts : List Account) (now : Int) : List Account :=
  (accounts.filter (isAccountAvailable · now)).insertionSort (fun a b => sortsBefore cfg s now a b = true)

def recordComparatorPick (s : SessionStrategy) (account : Account) : SessionStrategy :=
  { s with pickSeq := s.pickSeq + 1,lastPickedSeq := set s.lastPickedSeq account.id (s.pickSeq + 1) }

structure Selection where
  strategy : SessionStrategy
  request : RequestMeta
  accounts : List Account

def autoUnpause (accounts : List Account) (now : Int) : List Account :=
  accounts.map fun account =>
    if isAutoUnpauseCandidate account now && cfg.store.any (·.resumeAccount) &&
      isSelfHealingPauseReason account.pauseReason
    then { account with paused := false } else account

def bypassesSession (request : RequestMeta) : Bool := request.internal && request.bypassHeader == some "true"

def others (accounts : List Account) (account : Account) : List Account := accounts.filter (·.id ≠ account.id)

def selectHit (s : SessionStrategy) (accounts : List Account) (request : RequestMeta) (affinedAccount : Account)
    (previousAccountId : Option String) (now clock : Int) : Selection :=
  let affinedAccount := resetSessionIfExpired cfg affinedAccount clock
  let s := rememberAffinity cfg s request affinedAccount now
  let rest := sortAvailableAccounts cfg s (others accounts affinedAccount) now
  ⟨s,setRoutingMeta request "affinity_hit" (some affinedAccount) (rest.length + 1) (getAffinityKey request) previousAccountId
    (some affinedAccount.id),affinedAccount::rest⟩

def selectHold (s : SessionStrategy) (accounts : List Account) (request : RequestMeta) (heldAccountId : String)
    (previousAccountId : Option String) (now clock : Int) : Selection :=
  match sortAvailableAccounts cfg s accounts now with
  | [] => ⟨s,setRoutingMeta request "affinity_hold" none 0 (getAffinityKey request) previousAccountId (some heldAccountId),[]⟩
  | first::rest =>
    let chosenAccount := resetSessionIfExpired cfg first clock
    ⟨recordComparatorPick s chosenAccount,
      setRoutingMeta request "affinity_hold" (some chosenAccount) (rest.length + 1) (getAffinityKey request) previousAccountId
        (some heldAccountId),chosenAccount::others rest chosenAccount⟩

def selectFresh (s : SessionStrategy) (accounts : List Account) (request : RequestMeta) (decision : String)
    (previousAccountId : Option String) (now clock : Int) : Selection :=
  match sortAvailableAccounts cfg s accounts now with
  | [] => ⟨s,request,[]⟩
  | first::rest =>
    let chosenAccount := resetSessionIfExpired cfg first clock
    let s := rememberAffinity cfg s request chosenAccount now
    ⟨recordComparatorPick s chosenAccount,
      setRoutingMeta request decision (some chosenAccount) (rest.length + 1) (getAffinityKey request) previousAccountId none,
      chosenAccount::others rest chosenAccount⟩

def activeAccount (accounts : List Account) (now : Int) : Option Account :=
  accounts.foldl (fun active account =>
    if hasActiveSession cfg account now &&
      (present account.sessionStart).any (fun start =>
        start > ((active.bind (fun a => present a.sessionStart)).getD 0))
    then some account else active) none

def selectGlobal (s : SessionStrategy) (accounts : List Account) (request : RequestMeta) (bypassSession : Bool)
    (now clock : Int) : Selection :=
  let reset (account : Account) : Account :=
    if bypassSession then account else resetSessionIfExpired cfg account clock
  let remember (s : SessionStrategy) (account : Account) : SessionStrategy :=
    if bypassSession then s else rememberAffinity cfg s request account now
  match (activeAccount cfg accounts now).filter (isAccountAvailable · now) with
  | some active =>
    let active := reset active
    let s := remember s active
    let rest := sortAvailableAccounts cfg s (others accounts active) now
    ⟨s,setRoutingMeta request "global_session" (some active) (rest.length + 1) none none none,active::rest⟩
  | none =>
    match sortAvailableAccounts cfg s accounts now with
    | [] => ⟨s,request,[]⟩
    | first::rest =>
      let chosenAccount := reset first
      let s := remember s chosenAccount
      ⟨recordComparatorPick s chosenAccount,
        setRoutingMeta request "priority_utilization" (some chosenAccount) (rest.length + 1) none none none,
        chosenAccount::others rest chosenAccount⟩

def select (s : SessionStrategy) (accounts : List Account) (request : RequestMeta) (now clock : Int) : Selection :=
  let accounts := autoUnpause cfg accounts now
  if bypassesSession request then selectGlobal cfg s accounts request true now clock
  else
    let mapKeys := getAffinityMapKeys cfg request
    let previousAccountId := (mapKeys.bind (fun k => get s.affinityByKey k.pin)).map (·.accountId)
    let (s,resolution) := resolveAffinity cfg s accounts (mapKeys.map (·.pin)) now
    match resolution with
    | .hit account => selectHit cfg s accounts request account previousAccountId now clock
    | .hold heldAccountId => selectHold cfg s accounts request heldAccountId previousAccountId now clock
    | .reassign _ => selectFresh cfg s accounts request "affinity_reassigned" previousAccountId now clock
    | .miss =>
      match (mapKeys.bind (·.anchor)).bind (fun anchor => resolveAnchor s accounts anchor now) with
      | some anchored => selectHit cfg s accounts request anchored (some anchored.id) now clock
      | none =>
        if (getAffinityKey request).isSome then selectFresh cfg s accounts request "affinity_miss" previousAccountId now clock
        else selectGlobal cfg s accounts request false now clock

def reassignAffinity (s : SessionStrategy) (request : RequestMeta) (account : Account) (now clock : Int) :
    SessionStrategy × RequestMeta :=
  match request.routing with
  | none => (s,request)
  | some routing =>
    if routing.strategy ≠ "session" ∨ (getAffinityKey request).isNone then (s,request)
    else
      let account := resetSessionIfExpired cfg account clock
      (rememberAffinity cfg s request account now,
        { request with routing := some { routing with
          decision := "affinity_reassigned"
          previousAccountId := routing.heldAccountId.or routing.selectedAccountId
          selectedAccountId := some account.id
          heldAccountId := some account.id } })

def followAffinity (s : SessionStrategy) (request : RequestMeta) (fromAccountId : String) (account : Account) (now : Int) :
    SessionStrategy :=
  if request.routing.all (·.strategy ≠ "session") then s
  else
    match getAffinityMapKeys cfg request with
    | none => s
    | some mapKeys =>
      if (get s.affinityByKey mapKeys.pin).map (·.accountId) = some fromAccountId then
        rememberAffinity cfg s request account now
      else s

inductive Event where
  | select (accounts : List Account) (request : RequestMeta) (now clock : Int)
  | reassignAffinity (request : RequestMeta) (account : Account) (now clock : Int)
  | followAffinity (request : RequestMeta) (fromAccountId : String) (account : Account) (now : Int)
  | importAffinity (pins : List AffinityPin) (now : Int)
  | clearAffinityForAccount (accountId : String)

def apply (s : SessionStrategy) : Event → SessionStrategy
  | .select accounts request now clock => (select cfg s accounts request now clock).strategy
  | .reassignAffinity request account now clock => (reassignAffinity cfg s request account now clock).1
  | .followAffinity request fromAccountId account now => followAffinity cfg s request fromAccountId account now
  | .importAffinity pins now => importAffinity cfg s pins now
  | .clearAffinityForAccount accountId => clearAffinityForAccount s accountId

def SessionStrategy.start : SessionStrategy := ⟨[],0,0,0,[],[]⟩

def machine : Machine SessionStrategy Event where
  init s := s = .start
  step s ev := some (apply cfg s ev)

end Clankermux.LoadBalancer
