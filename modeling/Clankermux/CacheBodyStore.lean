import Clankermux.InsertionMap
import Clankermux.Machine

/-! The bodies that are staged for the requests in flight, and what the attempts, the holds and the
terminals of a request do to the one under its id. Which attempt is made where, and how it ends,
is open. -/
namespace Clankermux.CacheBodyStore
open InsertionMap

abbrev Body := List UInt8
abbrev Headers := InsertionMap String String

def PREMIUM_CACHE_PROVIDERS : List String := ["anthropic"]

def isBridgeableProvider (provider : String) : Bool := PREMIUM_CACHE_PROVIDERS.contains provider

def isOfficialAnthropicProvider (provider : String) : Bool :=
  provider == "anthropic" || provider == "claude-oauth" || provider == "claude-console-api"

def GATEWAY_HINT_HEADERS : List String :=
  ["x-claude-code-request-class","x-claude-code-agent-type","x-claude-code-prev-tool-durations","x-claude-code-compaction",
    "x-claude-code-context-compacted","x-claude-code-prompt-id"]

def CACHE_REPLAY_STRIP_HEADERS : List String :=
  GATEWAY_HINT_HEADERS ++
    ["authorization","x-api-key","cookie","x-claude-code-session-id","thread-id","session-id","session_id","x-client-request-id",
      "x-codex-installation-id","x-codex-window-id","x-codex-turn-state","chatgpt-account-id","traceparent","tracestate",
      "x-clankermux-account-id","x-clankermux-bypass-session","x-clankermux-skip-cache","x-clankermux-keepalive","content-length",
      "transfer-encoding","accept-encoding","content-encoding","connection","keep-alive","upgrade","proxy-authorization",
      "proxy-authenticate","host"]

def sanitizeHeadersForReplay (headers : Headers) : Headers :=
  headers.filter fun entry => !CACHE_REPLAY_STRIP_HEADERS.contains entry.1.toLower

def CACHEABLE_PATH : String := "/v1/messages"

def CACHE_CONTROL_HINTS : List Body := ["\"cache_control\"".toUTF8.toList,"\"cache-control\"".toUTF8.toList]

def containsBytes (haystack needle : Body) : Bool := haystack.tails.any (needle.isPrefixOf ·)

def hasCacheControlHint (body : Body) : Bool := CACHE_CONTROL_HINTS.any (containsBytes body ·)

def MAX_STAGING_ENTRIES : Nat := 500
def STAGING_MAX_AGE_MS : Int := 30 * 60 * 1000 + 30 * 60 * 1000 + 5 * 60 * 1000

structure Account where
  id : String
  provider : String
  deriving DecidableEq

structure CachedRequestEntry where
  body : Body
  headers : Headers
  path : String
  timestamp : Int

structure Staged where
  accountId : String
  sessionKey : Option String
  entry : CachedRequestEntry

structure Store where
  staging : InsertionMap String Staged
  enabled : Bool

inductive Call where
  | register (accountId sessionKey : String) (body : Body) (headers : Headers) (path : String) (model : Option String)
      (cacheReadTokens cacheCreationTokens : Nat)
  | touchActivity (accountId sessionKey : String) (now : Int) (cacheReadTokens : Nat)
  deriving DecidableEq

structure Summary where
  usageCacheCreationInputTokens : Option Nat
  cacheCreationInputTokens : Option Nat
  usageCacheReadInputTokens : Option Nat
  model : Option String

namespace Store

def setEnabled (s : Store) (enabled : Bool) : Store := ⟨if enabled then s.staging else [],enabled⟩

def sweepStaleStaging (s : Store) (now : Int) : Store :=
  { s with staging := s.staging.filter fun entry => !decide (entry.2.entry.timestamp < now - STAGING_MAX_AGE_MS) }

def enforceStagingCap (s : Store) : Store := { s with staging := s.staging.drop (s.staging.length - MAX_STAGING_ENTRIES) }

def stages (s : Store) (account : Account) (body : Body) (path : String) : Bool :=
  s.enabled && account.id ≠ "" && body ≠ [] && isBridgeableProvider account.provider && path == CACHEABLE_PATH && hasCacheControlHint body

def stageRequest (s : Store) (now : Int) (requestId : String) (account : Account) (body : Body) (headers : Headers) (path : String)
    (sessionKey : Option String) : Store :=
  if s.stages account body path then
    let entry : CachedRequestEntry := ⟨body,sanitizeHeadersForReplay headers,path,now⟩
    (({ s with staging := set s.staging requestId ⟨account.id,sessionKey,entry⟩ }).sweepStaleStaging now).enforceStagingCap
  else s

def discardStaged (s : Store) (requestId : String) : Store := { s with staging := delete s.staging requestId }

end Store

def callFor (now : Int) (staged : Staged) (cacheCreationInputTokens cacheReadInputTokens : Option Nat) (model : Option String) : Option Call :=
  let sessionKey := staged.sessionKey.getD ("__account__:" ++ staged.accountId)
  let read := cacheReadInputTokens.getD 0
  let created := cacheCreationInputTokens.getD 0
  if created > 0 then
    some (.register staged.accountId sessionKey staged.entry.body staged.entry.headers staged.entry.path model read created)
  else if read > 0 then some (.touchActivity staged.accountId sessionKey now read)
  else none

def Store.onSummary (s : Store) (now : Int) (requestId : String) (cacheCreationInputTokens cacheReadInputTokens : Option Nat)
    (model : Option String) : Store × Option Call :=
  (s.discardStaged requestId,
    (get s.staging requestId).bind (callFor now · cacheCreationInputTokens cacheReadInputTokens model))

structure Request where
  path : String
  headers : Headers
  internal : Bool
  affinityKey : Option String
  /-- `officialAnthropicVia` is "sdk-bridge". -/
  viaSdkBridge : Bool
  deriving DecidableEq

def isSyntheticInternalRequest (headers : Headers) : Bool :=
  (get headers "x-clankermux-keepalive").any (· ≠ "") || (get headers "x-clankermux-auto-refresh").any (· ≠ "")

def isTrustedProbe (request : Request) : Bool := request.internal && isSyntheticInternalRequest request.headers

def isInternalProbe (request : Request) : Bool :=
  request.internal && (get request.headers "x-clankermux-auto-refresh" == some "true" || get request.headers "x-clankermux-keepalive" == some "true")

/-- `countsLocally` is what the provider that answers says of `/v1/messages/count_tokens`. -/
def shouldRecordRequest (request : Request) (countsLocally : Bool) (responseStatus : Nat) : Bool :=
  if countsLocally && request.path == "/v1/messages/count_tokens" then false
  else if isInternalProbe request then false
  else !("/.well-known/".toList.isPrefixOf request.path.toList && responseStatus == 404)

def isSdkBridgeAttempt (request : Request) (account : Account) : Bool :=
  request.viaSdkBridge && isOfficialAnthropicProvider account.provider

inductive Recovery where | pin | contextWindow | familyWeekly deriving DecidableEq

inductive Place where
  | ingested
  | preflight (account : Account) (body : Body)
  | preflighted (account : Account) (body : Body)
  | burst (account : Account) (body : Body) (zeroAccounts : Bool)
  | candidates (burstHoldDeclined : Bool)
  | overload (zeroAccounts : Bool)
  | zeroAccounts
  | recovery (hold : Recovery)
  | relaxation
  | alias
  deriving DecidableEq

structure Attempt where
  account : Account
  body : Body
  reprobe : Bool
  staged : Bool
  deriving DecidableEq

inductive Phase where
  | waiting (place : Place)
  | attempting (place : Place) (attempt : Attempt)
  | bridging (place : Place)
  | forwarded (attempt : Attempt)
  | ended
  deriving DecidableEq

structure InFlight where
  request : Request
  phase : Phase
  deriving DecidableEq

inductive Happened where
  | forwarded (requestId : String) (request : Request) (attempt : Attempt)
  | called (requestId : String) (call : Call)
  deriving DecidableEq

structure World where
  store : Store
  requests : InsertionMap String InFlight
  trace : List Happened

inductive Exit where
  | to (place : Place)
  | served
  | throttled
  | suppressed
  | skipped
  | aborted
  | gaveUp
  deriving DecidableEq

inductive Action where
  | arrive (requestId : String) (request : Request)
  | attempt (requestId : String) (account : Account) (body : Body)
  | again (requestId : String)
  | fail (requestId : String)
  | abandon (requestId : String)
  | answer (requestId : String)
  | forward (requestId : String) (countsLocally : Bool) (responseStatus : Nat)
  | leave (requestId : String) (exit : Exit)
  | throw_ (requestId : String)
  | finalize (requestId : String) (summary : Option Summary)
  | setEnabled (enabled : Bool)
  | evictStaleEntries

structure Event where
  now : Int
  action : Action

def Place.attempt (account : Account) (body : Body) : Place → Option Bool
  | .preflight held its => if held = account ∧ its = body then some false else none
  | .burst held its _ => if held = account ∧ its = body then some true else none
  | .candidates _ | .overload _ | .recovery _ | .relaxation | .alias => some false
  | _ => none

def Place.after : Place → Place
  | .preflight account body => .preflighted account body
  | place => place

def Place.startsFrom : Place → Bool
  | .alias | .zeroAccounts | .candidates false | .preflight _ _ | .burst _ _ false => true
  | _ => false

def Place.startsWithoutAccounts : Place → Bool
  | .burst _ _ true | .overload true | .recovery _ => true
  | _ => false

def leave : Place → Exit → Option (Bool × Option Place)
  | .ingested,.to place => if place.startsFrom then some (false,some place) else none
  | .ingested,.served => some (false,none)
  | .ingested,.aborted => some (false,none)
  | .preflight _ _,.suppressed => some (false,some (.candidates false))
  | .preflighted account body,.throttled => some (false,some (.burst account body false))
  | .preflighted _ _,.gaveUp => some (false,some (.candidates false))
  | .burst _ _ false,.skipped => some (false,some (.candidates false))
  | .burst _ _ false,.gaveUp => some (true,some (.candidates true))
  | .burst _ _ true,.skipped => some (false,some .zeroAccounts)
  | .burst _ _ true,.gaveUp => some (true,none)
  | .burst _ _ _,.aborted => some (true,none)
  | .candidates _,.aborted => some (true,none)
  | .candidates false,.suppressed => some (false,some (.overload false))
  | .candidates _,.gaveUp => some (true,none)
  | .overload _,.aborted => some (false,none)
  | .overload zeroAccounts,.gaveUp => some (!zeroAccounts,none)
  | .zeroAccounts,.to place => if place.startsWithoutAccounts then some (false,some place) else none
  | .zeroAccounts,.aborted => some (false,none)
  | .zeroAccounts,.gaveUp => some (false,none)
  | .recovery _,.aborted => some (false,none)
  | .recovery .contextWindow,.gaveUp => some (false,some .relaxation)
  | .recovery _,.gaveUp => some (false,none)
  | .relaxation,.suppressed => some (true,some (.overload true))
  | .relaxation,.aborted => some (true,none)
  | .relaxation,.gaveUp => some (true,none)
  | .alias,.aborted => some (true,none)
  | .alias,.gaveUp => some (true,none)
  | _,_ => none

namespace World

def enter (w : World) (requestId : String) (request : Request) (phase : Phase) : World :=
  { w with requests := set w.requests requestId ⟨request,phase⟩ }

def discard (w : World) (requestId : String) : World := { w with store := w.store.discardStaged requestId }

def record (w : World) (h : Happened) : World := { w with trace := h::w.trace }

end World

def proxyWithAccount (w : World) (now : Int) (requestId : String) (request : Request) (place : Place) (account : Account) (body : Body)
    (reprobe : Bool) : World :=
  if isSdkBridgeAttempt request account then w.enter requestId request (.bridging place)
  else if isTrustedProbe request || reprobe then
    w.enter requestId request (.attempting place ⟨account,body,reprobe,false⟩)
  else
    { w with store := w.store.stageRequest now requestId account body request.headers request.path request.affinityKey }.enter requestId
      request (.attempting place ⟨account,body,reprobe,w.store.stages account body request.path⟩)

def leavePlace (w : World) (requestId : String) (request : Request) (place : Place) (exit : Exit) : Option World :=
  (leave place exit).map fun (discards,next) =>
    (if discards then w.discard requestId else w).enter requestId request (next.elim .ended .waiting)

def finalize (w : World) (now : Int) (requestId : String) (request : Request) : Option Summary → World
  | some summary =>
    let (store,call) := w.store.onSummary now requestId (summary.usageCacheCreationInputTokens.or summary.cacheCreationInputTokens)
      summary.usageCacheReadInputTokens summary.model
    let after := { w with store }.enter requestId request .ended
    call.elim after fun call => after.record (.called requestId call)
  | none => (w.discard requestId).enter requestId request .ended

def act (w : World) (now : Int) (requestId : String) (request : Request) : Phase → Action → Option World
  | .waiting place,.attempt _ account body =>
    (place.attempt account body).map (proxyWithAccount w now requestId request place.after account body)
  | .waiting place,.leave _ exit => leavePlace w requestId request place exit
  | .waiting _,.throw_ _ => some ((w.discard requestId).enter requestId request .ended)
  | .attempting place attempt,.again _ =>
    some (proxyWithAccount w now requestId request place attempt.account attempt.body attempt.reprobe)
  | .attempting place _,.fail _ => some (w.enter requestId request (.waiting place))
  | .attempting _ _,.abandon _ => some ((w.discard requestId).enter requestId request .ended)
  | .attempting _ attempt,.forward _ countsLocally responseStatus =>
    some ((w.record (.forwarded requestId request attempt)).enter requestId request
      (if shouldRecordRequest request countsLocally responseStatus then .forwarded attempt else .ended))
  | .attempting _ _,.throw_ _ => some ((w.discard requestId).enter requestId request .ended)
  | .bridging place,.fail _ => some (w.enter requestId request (.waiting place))
  | .bridging _,.answer _ => some (w.enter requestId request .ended)
  | .bridging _,.throw_ _ => some ((w.discard requestId).enter requestId request .ended)
  | .forwarded _,.finalize _ summary => some (finalize w now requestId request summary)
  | _,_ => none

def Action.requestId : Action → Option String
  | .attempt id _ _ | .again id | .fail id | .abandon id | .answer id | .forward id _ _ | .leave id _ | .throw_ id | .finalize id _ => some id
  | .arrive _ _ | .setEnabled _ | .evictStaleEntries => none

def step (w : World) (e : Event) : Option World :=
  match e.action with
  | .arrive id request => if id ∈ keys w.requests then none else some (w.enter id request (.waiting .ingested))
  | .setEnabled enabled => some { w with store := w.store.setEnabled enabled }
  | .evictStaleEntries => some { w with store := w.store.sweepStaleStaging e.now }
  | action => action.requestId.bind fun id => (get w.requests id).bind fun its => act w e.now id its.request its.phase action

def machine : Machine World Event where
  init w := ∃ enabled, w = ⟨⟨[],enabled⟩,[],[]⟩
  step := step

end Clankermux.CacheBodyStore
