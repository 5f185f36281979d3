import Clankermux.Json
import Clankermux.ModelPermissions

/-! The one place every client inference passes on its way to an upstream: the checks, the attempt's row, the send, and
the observer of the response's body. -/
namespace Clankermux.RoutingDispatch
open ModelPermissions (Account AccountModelPermissions Completeness modelPermissionScope)

inductive Thrown where
  | policy (message : String)
  | bridgeCapacity (status : Nat) (message : String)
  | bridgeExtraUsage (status : Nat) (message : String)
  | bridgeVersionTooOld (status : Nat) (message : String)
  | bridgeRefusal (status : Nat) (message : String)
  | bridgeUnavailable (message : String)
  | identityChanged
  | other

namespace Thrown

def status : Thrown → Nat
  | .policy _ => 403
  | .bridgeCapacity status _ | .bridgeExtraUsage status _ | .bridgeVersionTooOld status _ | .bridgeRefusal status _ => status
  | .bridgeUnavailable _ => 503
  | .identityChanged | .other => 502

def text : Thrown → String
  | .policy message => message
  | .bridgeCapacity _ message => "SDK bridge at capacity: " ++ message
  | .bridgeExtraUsage _ message => "SDK bridge out of extra usage: " ++ message
  | .bridgeVersionTooOld _ message => "SDK bridge Claude Code too old: " ++ message
  | .bridgeRefusal _ message | .bridgeUnavailable message => "SDK bridge unavailable: " ++ message
  | .identityChanged | .other => "Upstream transport failed"

end Thrown

structure AuthorizedTarget where
  provider : String
  scope : String
  upstreamModel : String

structure RoutingRule where
  enabled : Bool
  poolKind : String
  poolAccountIds : List String
  targetKind : String
  targetModel : Option String

structure ResolvedRoute where
  requestedModel : String
  ruleId : Option String
  snapshot : String
  rule : Option RoutingRule
  maintenance : Bool
  targets : String → Option AuthorizedTarget

def isOfficialAnthropicProvider (provider : String) : Bool :=
  provider = "anthropic" || provider = "claude-oauth" || provider = "claude-console-api"

def oneMillionContextModels : List String := ["claude-opus-5-5","claude-fable-5-1","claude-sonnet-5"]

def oneMillionContextBase (model : String) : Option String := oneMillionContextModels.find? (fun base => model = base ++ "[1m]")

def isModelPermitted (permissions : Option AccountModelPermissions) (account : Account) (model : String) (winningRule : Option RoutingRule) :
    Bool :=
  let base := if isOfficialAnthropicProvider account.provider then oneMillionContextBase model else none
  let ids := model::base.toList
  if ids.any (fun id => permissions.any (·.manualIds.contains id)) then true
  else match permissions.filter (·.completeness ≠ .unknown) with
    | some permissions => ids.any permissions.discoveredIds.contains
    | none => winningRule.any fun rule =>
      rule.enabled && rule.poolKind = "accounts" && rule.poolAccountIds.contains account.id && rule.targetKind = "literal" &&
        rule.targetModel = some model

namespace ResolvedRoute
variable (digest : List (Option String) → String)

def target (route : ResolvedRoute) (account : Account) : Option AuthorizedTarget :=
  (route.targets account.id).filter
    (fun target => target.provider = account.provider && target.scope = modelPermissionScope digest account)

def permits (route : ResolvedRoute) (account : Account) (permissions : Option AccountModelPermissions) : Bool :=
  match route.target digest account with
  | none => false
  | some target => route.maintenance || isModelPermitted permissions account target.upstreamModel route.rule

end ResolvedRoute

inductive ChatField where
  | maxTokens | temperature | topP | stop | reasoningContent | responseFormat
  deriving DecidableEq

inductive ChatFieldTreatment where
  | passed | ignored | refused
  deriving DecidableEq

def codexFields : ChatField → ChatFieldTreatment
  | .maxTokens | .temperature | .topP => .ignored
  | .stop | .reasoningContent => .refused
  | .responseFormat => .passed

def sdkBridgeFields : ChatField → ChatFieldTreatment
  | .temperature | .topP => .ignored
  | _ => .passed

def chatFieldCapability (provider : String) (viaSdkBridge : Bool) : Option (ChatField → ChatFieldTreatment) :=
  if viaSdkBridge then some sdkBridgeFields
  else if provider = "codex" then some codexFields
  else if provider = "openrouter" then some (fun _ => .passed)
  else none

def refusedChatField (capability : ChatField → ChatFieldTreatment) (fields : List ChatField) : Option ChatField :=
  fields.find? (fun field => capability field = .refused)

def ignoredChatFields (capability : ChatField → ChatFieldTreatment) (fields : List ChatField) : List ChatField :=
  fields.filter (fun field => capability field = .ignored)

def supportsLocalTokenCounting (provider : String) (customEndpoint : Bool) : Bool :=
  provider = "devin" || provider = "codex" || provider = "openrouter" && !customEndpoint

def localTokenCountUrl (provider : String) : String := "https://clankermux.local/" ++ provider ++ "/count_tokens"

inductive DevinKind where
  | inference (model : String)
  | synthetic (status : Nat)

structure DevinRequestProvenance where
  accountId : String
  credentialSha256 : String
  bodySha256 : String
  url : String
  method : String
  kind : DevinKind

structure Request where
  url : String
  origin : String
  method : String
  contentType : Option String
  syntheticResponse : Option String
  syntheticStatus : Option String
  bodySha256 : String
  json : Option Json

namespace Request

def synthetic (request : Request) : Bool :=
  request.origin = "https://clankermux.local" && request.syntheticResponse = some "true"

end Request

def overrideFields : List String := ["models","fallbacks","model_fallbacks","route"]

theorem fieldSmaller {name fields value} (found : (Json.obj fields).field name = some value) :
    sizeOf value < sizeOf (Json.obj fields) := by
  obtain ⟨entry,mem,same⟩ := Option.map_eq_some_iff.mp found
  have inside : entry ∈ fields := List.mem_reverse.mp (List.mem_of_find?_eq_some mem)
  have smaller := List.sizeOf_lt_of_mem inside
  obtain ⟨key,held⟩ := entry
  subst same
  simp only [Json.obj.sizeOf_spec,Prod.mk.sizeOf_spec] at smaller ⊢
  omega

def rejectModelSwitchFields (fields : List (String × Json)) : Except Thrown Unit :=
  match overrideFields.find? (fun field => ((Json.obj fields).field field).isSome) with
  | some field => .error (.policy ("Request field \"" ++ field ++ "\" can override the resolved model"))
  | none =>
    match _nested : (Json.obj fields).field "extra_body" with
    | some (.obj extra) =>
      if ((Json.obj extra).field "model").isSome then .error (.policy "extra_body.model can override the resolved model")
      else rejectModelSwitchFields extra
    | _ => .ok ()
termination_by sizeOf (Json.obj fields)
decreasing_by exact fieldSmaller _nested

def enforceOutgoingModel (request : Request) (expectedModel : String) : Except Thrown String :=
  match request.json with
  | none => .error (.policy "Cannot verify serialized upstream request model")
  | some (.obj fields) => do
    rejectModelSwitchFields fields
    match (Json.obj fields).field "model" with
    | some (.str model) =>
      if model = expectedModel then .ok expectedModel
      else .error (.policy ("Upstream transformation changed the authorized model " ++ expectedModel))
    | _ => .error (.policy ("Upstream transformation changed the authorized model " ++ expectedModel))
  | some _ => .error (.policy "Upstream request must be a JSON object")

inductive Kind where
  | localReject | localSuccess | upstreamSend
  deriving DecidableEq

structure Attempt where
  ruleId : Option String
  routeSnapshot : String
  accountId : String
  provider : String
  requestedModel : String
  resolvedModel : String
  outgoingModel : Option String
  kind : Kind
  finished : Bool
  status : Option Nat
  error : Option String
  ignoredFields : Option (List ChatField)
  deriving DecidableEq

structure Response where
  status : Nat
  body : Bool

def Response.ok (response : Response) : Bool := 200 ≤ response.status && response.status ≤ 299

structure Inspected where
  reportedModel : Option String
  modelRejected : Bool
  protocolSucceeded : Bool
  protocolError : Option String

structure Call where
  account : Account
  customEndpoint : Bool
  credentialSha256 : String
  route : ResolvedRoute
  chat : Option (List ChatField)
  direct : Bool
  path : String
  request : Request
  provenance : Option DevinRequestProvenance
  transport : Bool
  getAccount : Except Thrown (Option Account)
  rowOfId : ∀ row, getAccount = .ok (some row) → row.id = account.id
  excluded : Bool
  permissions : Account → Except Thrown (Option AccountModelPermissions)
  isModelSuppressed : String → Except Thrown Bool
  recordAttempt : Attempt → Except Thrown Unit
  head : Except Thrown Response
  prepareResponse : Response → Except Thrown Response
  finishAttempt : Except Thrown Unit
  suppressModel : Except Thrown Unit
  inspect : List (List UInt8) → Inspected
  devinReportedModel : Option String

inductive Entry where
  | recordAttempt (attempt : Attempt) (committed : Bool)
  | quotaBegun
  | quotaEnded
  | makeProxyRequest
  | transport
  | suppressModel (committed : Bool)
  | finishAttempt (status : Nat) (error : Option String) (reportedModel : Option String) (committed : Bool)
  deriving DecidableEq

inductive Result where
  | observed (attempt : Attempt) (response : Response)
  | answered (response : Response)
  | threw (error : Thrown)

inductive BodyEvent where
  | chunk (bytes : List UInt8)
  | ended
  | failed
  | cancelled

def BodyEvent.ending : BodyEvent → Option (Option String)
  | .chunk _ => none
  | .ended => some none
  | .failed => some (some "Upstream response stream failed")
  | .cancelled => some (some "Response consumption canceled")

/-- `endQuotaUse?.()`: it is there if the send takes part in the account's quota. -/
def endQuotaUse (begun : Bool) : List Entry := if begun then [.quotaEnded] else []

def require (holds : Bool) (otherwise : String) : Except Thrown Unit := if holds then .ok () else .error (.policy otherwise)

def committed {α : Type} : Except Thrown α → Bool
  | .ok _ => true
  | .error _ => false

namespace Call
variable (digest : List (Option String) → String) (call : Call)

def suppressionIds (account : Account) (model : String) : List String :=
  let wire := if model.toLower.endsWith "[1m]" then (model.dropEnd 4).toString else model
  if isOfficialAnthropicProvider account.provider && wire ≠ model then [model,wire] else [model]

def isModelSuppressedFor : List String → Except Thrown Bool
  | [] => .ok false
  | id::rest => do
    let suppressed ← call.isModelSuppressed id
    if suppressed then .ok true else isModelSuppressedFor rest

def chatHolds : Bool := match call.chat with
  | none => true
  | some fields =>
    (chatFieldCapability call.account.provider call.transport).any (fun capability => (refusedChatField capability fields).isNone)

def currentPermissions (current : Account) : Except Thrown (Option AccountModelPermissions) :=
  match call.permissions current with
  | .error .identityChanged => .error (.policy "Destination identity changed before dispatch")
  | answer => answer

def permit (target : AuthorizedTarget) (current : Account) : Except Thrown Unit := do
  require (!call.excluded) "Destination already rejected the resolved model for this request"
  let permissions ← call.currentPermissions current
  require (call.route.permits digest current permissions) "Destination no longer permits the resolved model"
  let suppressed ← call.isModelSuppressedFor (suppressionIds current target.upstreamModel)
  require (!suppressed) "Destination no longer permits the resolved model"

def authorizeRow (target : AuthorizedTarget) : Option Account → Except Thrown Unit
  | none => .error (.policy "Destination identity changed before dispatch")
  | some current => do
    require (call.route.target digest current).isSome "Destination identity changed before dispatch"
    if call.route.maintenance then pure () else call.permit digest target current

def authorize (target : AuthorizedTarget) : Except Thrown Unit := do
  require call.chatHolds "Chat capability boundary changed before dispatch"
  require (call.transport || !isOfficialAnthropicProvider call.account.provider || call.direct)
    "Official Anthropic accounts serve this request only through the SDK bridge"
  let current ← call.getAccount
  require (!current.any (·.disabled)) "Account was disabled before dispatch"
  call.authorizeRow digest target current

def verifyProvenance (target : AuthorizedTarget) : Except Thrown Unit :=
  if call.account.provider ≠ "devin" then .ok ()
  else match call.provenance with
    | none => .error (.policy "Cannot verify Devin request provenance")
    | some provenance => do
      require (provenance.accountId = call.account.id && provenance.credentialSha256 = call.credentialSha256 &&
        provenance.url = call.request.url && provenance.method = call.request.method &&
        provenance.bodySha256 = call.request.bodySha256) "Cannot verify Devin request provenance"
      match provenance.kind with
      | .inference model =>
        require (!call.request.synthetic && call.request.contentType = some "application/connect+proto" && model = target.upstreamModel)
          "Devin transformation changed the authorized model or transport"
      | .synthetic status =>
        require (call.request.synthetic && call.request.syntheticStatus = some (toString status) &&
          (400 ≤ status || call.path = "/v1/messages/count_tokens" && call.request.url = localTokenCountUrl "devin"))
          "Unexpected Devin local response"

def localAllowed : Bool :=
  (call.account.provider = "devin" && call.provenance.any (fun provenance => match provenance.kind with
    | .synthetic status => 400 ≤ status
    | .inference _ => false)) ||
  call.path = "/v1/messages/count_tokens" && supportsLocalTokenCounting call.account.provider call.customEndpoint &&
    call.request.url = localTokenCountUrl call.account.provider

def devinModel : Option String := match call.provenance with
  | some ⟨_,_,_,_,_,.inference model⟩ => if call.account.provider = "devin" then some model else none
  | _ => none

def begin (target : AuthorizedTarget) : Attempt where
  ruleId := call.route.ruleId
  routeSnapshot := call.route.snapshot
  accountId := call.account.id
  provider := call.account.provider
  requestedModel := call.route.requestedModel
  resolvedModel := target.upstreamModel
  outgoingModel := none
  kind := .localReject
  finished := false
  status := none
  error := none
  ignoredFields := none

def outgoingModel (target : AuthorizedTarget) : Except Thrown String :=
  match call.devinModel with
  | some model => .ok model
  | none => enforceOutgoingModel call.request target.upstreamModel

def ignored : List ChatField :=
  match call.chat,chatFieldCapability call.account.provider call.transport with
  | some fields,some capability => ignoredChatFields capability fields
  | _,_ => []

def classify (target : AuthorizedTarget) : Except Thrown Attempt := do
  call.verifyProvenance target
  require (!(call.request.synthetic && call.transport)) "Unexpected local inference response"
  if call.request.synthetic then
    require call.localAllowed "Unexpected local inference response"
    .ok { call.begin target with
      kind := if call.request.syntheticStatus = some "200" then .localSuccess else .localReject }
  else
    let model ← call.outgoingModel target
    .ok { call.begin target with
      outgoingModel := some model
      kind := .upstreamSend
      ignoredFields := if call.ignored.isEmpty then none else some call.ignored }

def usesQuota (attempt : Attempt) : Bool :=
  attempt.kind = .upstreamSend && call.account.provider = "anthropic" && !call.customEndpoint

def verdict (error : Thrown) (answered : Option Response) : Nat × String :=
  match answered.filter (fun head => !head.ok) with
  | some head => (head.status,"Upstream HTTP " ++ toString head.status)
  | none => (error.status,error.text)

def failedRow (attempt : Attempt) (error : Thrown) (answered : Option Response) : Attempt :=
  { attempt with
    finished := true
    status := some (verdict error answered).1
    error := some (verdict error answered).2 }

def caught (attempt : Attempt) (error : Thrown) (recorded : Bool) (answered : Option Response) (trace : List Entry) : List Entry :=
  if recorded then
    trace ++ endQuotaUse (call.usesQuota attempt) ++
      [.finishAttempt (verdict error answered).1 (some (verdict error answered).2) none (committed call.finishAttempt)]
  else
    trace ++ [.recordAttempt (failedRow attempt error answered) (committed (call.recordAttempt (failedRow attempt error answered)))]

def localError (response : Response) : Option String :=
  if response.ok then none
  else if call.path = "/v1/messages/count_tokens" then some ("Local token count rejected (HTTP " ++ toString response.status ++ ")")
  else some ("Local provider response rejected (HTTP " ++ toString response.status ++ ")")

def sendAuthorizedRequest : List Entry × Result :=
  match call.route.target digest call.account with
  | none => ([],.threw (.policy ("Account " ++ call.account.id ++ " is outside this request's authorized destinations or its identity changed")))
  | some target =>
    match call.authorize digest target >>= fun _ => call.classify target with
    | .error error => (call.caught (call.begin target) error false none [],.threw error)
    | .ok attempt =>
      match call.recordAttempt attempt with
      | .error error => (call.caught attempt error false none [.recordAttempt attempt false],.threw error)
      | .ok _ =>
        let begun := .recordAttempt attempt true::if call.usesQuota attempt then [.quotaBegun] else []
        let sent := begun ++ [if call.transport then .transport else .makeProxyRequest]
        match call.head with
        | .error error => (call.caught attempt error true none sent,.threw error)
        | .ok head =>
          match call.prepareResponse head with
          | .error error => (call.caught attempt error true (some head) sent,.threw error)
          | .ok response =>
            if attempt.kind = .upstreamSend then (sent,.observed attempt response)
            else
              (sent ++ [.finishAttempt response.status (call.localError response) none (committed call.finishAttempt)],
                match call.finishAttempt with
                | .ok _ => .answered response
                | .error error => .threw error)

def finish (attempt : Attempt) (response : Response) (inspected : Inspected) (error : Option String) : List Entry :=
  let error := inspected.protocolError.or (if inspected.protocolSucceeded then none else error)
  let ended := endQuotaUse (call.usesQuota attempt)
  if call.transport then
    ended ++ [.finishAttempt response.status (error.or (if response.ok then none else some ("SDK bridge HTTP " ++ toString response.status)))
      inspected.reportedModel (committed call.finishAttempt)]
  else
    let finished := .finishAttempt response.status
      (error.or (if inspected.modelRejected then some "upstream_model_rejected"
        else if response.ok then none else some ("Upstream HTTP " ++ toString response.status)))
      (if call.account.provider = "devin" then call.devinReportedModel else inspected.reportedModel) (committed call.finishAttempt)
    if inspected.modelRejected then
      match call.suppressModel with
      | .ok _ => ended ++ [.suppressModel true,finished]
      | .error _ => ended ++ [.suppressModel false]
    else ended ++ [finished]

def observe (attempt : Attempt) (response : Response) : List (List UInt8) → List BodyEvent → List Entry
  | _,[] => []
  | seen,.chunk bytes::rest => observe attempt response (seen ++ [bytes]) rest
  | seen,event::_ => call.finish attempt response (call.inspect seen) (event.ending.getD none)

def life (events : List BodyEvent) : List Entry :=
  match call.sendAuthorizedRequest digest with
  | (trace,.observed attempt response) =>
    if response.body then trace ++ call.observe attempt response [] events
    else trace ++ call.finish attempt response (call.inspect []) none
  | (trace,_) => trace

end Call
end Clankermux.RoutingDispatch
