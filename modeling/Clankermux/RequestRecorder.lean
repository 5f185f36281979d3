import Clankermux.InsertionMap
import Clankermux.Machine

/-! The recorder of requests: when a request's row is written, what its usage column says, and
what the recorder still holds of it. A body is modelled by its length. -/
namespace Clankermux.RequestRecorder

inductive TransportOutcome where
  | success
  | error
  | disconnect
  | timeout
  deriving DecidableEq

inductive CostSource where
  | reported
  | estimated
  | unknown
  deriving DecidableEq

inductive UsageSource where
  | provider
  | approximate
  | none
  deriving DecidableEq

structure RequestRecorderConfig where
  captureBytesBudget : Nat
  maxRecords : Nat
  recordMaxAgeMs : Int
  patchRecordTtlMs : Int
  maxRequestBodyBytes : Nat
  maxResponseBodyBytes : Nat

structure RecordMeta where
  requestId : String
  requestBody : Option Nat

structure SummaryUsage where
  model : Option String
  inputTokens : Option Nat
  outputTokens : Option Nat
  cacheReadInputTokens : Option Nat
  cacheCreationInputTokens : Option Nat
  cacheCreation1hInputTokens : Option Nat
  totalTokens : Option Nat
  costUsd : Option Rat
  estimatedCostUsd : Option Rat
  costSource : Option CostSource
  costIsByok : Option Bool

structure SlimUsageSummary where
  usage : SummaryUsage
  tokensPerSecond : Option Rat
  tokensPerSecondApproximate : Option Bool
  outputApproximate : Option Bool
  inputClamped : Option Bool
  stopReason : Option String
  refusalCategory : Option String

structure RequestUsage where
  model : Option String
  promptTokens : Option Nat
  completionTokens : Option Nat
  totalTokens : Option Nat
  costUsd : Option Rat
  estimatedCostUsd : Option Rat
  costSource : CostSource
  costIsByok : Option Bool
  inputTokens : Option Nat
  outputTokens : Option Nat
  cacheReadInputTokens : Option Nat
  cacheCreationInputTokens : Option Nat
  cacheCreation1hInputTokens : Option Nat
  tokensPerSecond : Option Rat
  tokensPerSecondApproximate : Option Bool

def resolveCostSource (cost : Option Rat) (source : Option CostSource) : CostSource :=
  match cost,source with
  | some cost,some source => if 0 ≤ cost then source else .unknown
  | _,_ => .unknown

def SummaryUsage.namesModel (u : SummaryUsage) : Bool :=
  match u.model with
  | some model => model != ""
  | none => false

def toRequestUsage (summary : SlimUsageSummary) : Option RequestUsage :=
  let u := summary.usage
  if !u.namesModel && !(u.costSource == some .reported && u.costUsd.isSome) then none
  else
    let promptParts := [u.inputTokens,u.cacheReadInputTokens,u.cacheCreationInputTokens]
    some
      { model := u.model
        promptTokens := if promptParts.any (·.isSome) then some ((promptParts.map (·.getD 0)).sum) else none
        completionTokens := u.outputTokens
        totalTokens := u.totalTokens
        costUsd := u.costUsd
        estimatedCostUsd := u.estimatedCostUsd
        costSource := resolveCostSource u.costUsd u.costSource
        costIsByok := u.costIsByok
        inputTokens := u.inputTokens
        outputTokens := u.outputTokens
        cacheReadInputTokens := u.cacheReadInputTokens
        cacheCreationInputTokens := u.cacheCreationInputTokens
        cacheCreation1hInputTokens := u.cacheCreation1hInputTokens
        tokensPerSecond := summary.tokensPerSecond
        tokensPerSecondApproximate := if summary.tokensPerSecondApproximate = some true then some true else none }

structure SaveRequestData where
  id : String
  success : Bool
  usage : Option RequestUsage
  usageFinalizedAt : Option Int
  stopReason : Option String
  refusalCategory : Option String
  usageSource : Option UsageSource

structure UsagePatchWrite where
  requestId : String
  usage : Option RequestUsage
  usageFinalizedAt : Option Int
  stopReason : Option String
  refusalCategory : Option String
  usageSource : Option UsageSource

structure InternalRecord where
  recordMeta : RecordMeta
  reqBytes : Option Nat
  respBytes : Nat
  chargedBytes : Nat
  transport : Option TransportOutcome
  usage : Option SlimUsageSummary
  usageFinalizedAt : Option Int
  usageWaived : Bool
  settlementPending : Bool
  pendingPatch : Option SlimUsageSummary
  bodyDiscarded : Bool
  persisted : Bool
  createdAt : Int
  persistedAt : Option Int
  graceTimer : Bool
  patchTimer : Bool

inductive Job where
  | saveRequest (row : SaveRequestData) (payload : Option Nat)
  | markRequestUsageSource (requestId : String) (usageSource : UsageSource)
  | updateRequestUsage (patch : UsagePatchWrite)
  | shutdownBatch (heldPatches : List UsagePatchWrite) (unsettled : List String)

structure Moment where
  now : Int
  storePayloads : Bool
  accepts : String → Bool
  hasCapacity : String → Bool
  reserves : String → Bool

end Clankermux.RequestRecorder

namespace Clankermux
open RequestRecorder

/-- `enqueued` are the jobs offered to the metadata queue, oldest first, each with whether it was
taken; `persists` are the records that were written, as they stood. -/
structure RequestRecorder where
  records : InsertionMap String InternalRecord
  capturedBytesPending : Nat
  metadataDropped : Nat
  enqueued : List (Job × Bool)
  persists : List InternalRecord

namespace RequestRecorder

def start : RequestRecorder := ⟨[],0,0,[],[]⟩

def put (s : RequestRecorder) (record : InternalRecord) : RequestRecorder :=
  { s with records := s.records.set record.recordMeta.requestId record }

def enqueue (s : RequestRecorder) (job : Job) (accepted : Bool) : RequestRecorder :=
  { s with enqueued := s.enqueued ++ [(job,accepted)] }

def InternalRecord.released (record : InternalRecord) : InternalRecord :=
  { record with
    chargedBytes := 0
    reqBytes := none
    respBytes := 0 }

def releaseBuffers (s : RequestRecorder) (record : InternalRecord) : RequestRecorder :=
  put { s with capturedBytesPending := s.capturedBytesPending - record.chargedBytes } record.released

def InternalRecord.bodiesReleased (record : InternalRecord) : InternalRecord :=
  { record.released with recordMeta := { record.recordMeta with requestBody := none } }

def releaseCapturedBodies (s : RequestRecorder) (record : InternalRecord) : RequestRecorder :=
  put { s with capturedBytesPending := s.capturedBytesPending - record.chargedBytes } record.bodiesReleased

def dropRecord (s : RequestRecorder) (requestId : String) : RequestRecorder :=
  match s.records.get requestId with
  | none => s
  | some record =>
    let s := s.releaseBuffers record
    { s with records := s.records.delete requestId }

def deriveUsageSource (usage : Option RequestUsage) (summary : Option SlimUsageSummary) (recoverable : Bool) :
    Option UsageSource :=
  if usage.isSome then
    if summary.any (fun summary => summary.outputApproximate == some true || summary.inputClamped == some true)
    then some .approximate else some .provider
  else if recoverable then none else some .none

/-- `persistOrdered` up to the queued job: what the row says is read off the record here. -/
def requestRow (record : InternalRecord) : SaveRequestData :=
  let usage := record.usage.bind toRequestUsage
  { id := record.recordMeta.requestId
    success := record.transport == some .success
    usage := usage
    usageFinalizedAt := record.usageFinalizedAt
    stopReason := record.usage.bind (·.stopReason)
    refusalCategory := record.usage.bind (·.refusalCategory)
    usageSource := deriveUsageSource usage record.usage (record.usage.isNone && !record.usageWaived) }

def persistOrdered (m : Moment) (s : RequestRecorder) (record : InternalRecord) : RequestRecorder :=
  let requestId := record.recordMeta.requestId
  let payload := if m.storePayloads && !record.bodyDiscarded && m.reserves requestId
    then some (record.reqBytes.getD 0 + record.respBytes) else none
  let s := s.releaseCapturedBodies record
  let accepted := m.accepts requestId
  let s := s.enqueue (.saveRequest (requestRow record) payload) accepted
  { s with
    persists := s.persists ++ [record]
    metadataDropped := if accepted then s.metadataDropped else s.metadataDropped + 1 }

def persistWhenReady (m : Moment) (s : RequestRecorder) (requestId : String) (graceElapsed : Bool) : RequestRecorder :=
  match s.records.get requestId with
  | none => s
  | some record =>
    -- Never finalize an unfinished request.
    if record.persisted || record.transport.isNone then s
    -- Wait within grace for usage.
    else if record.usage.isNone && !record.usageWaived && !graceElapsed then s
    else
      let record := { record with graceTimer := false }
      let s := persistOrdered m s record
      let record :=
        { record.bodiesReleased with
          persistedAt := some m.now
          persisted := true }
      if record.usageWaived || record.usage.isSome then (s.put record).dropRecord requestId
      else s.put { record with patchTimer := true }

def needsUsageSourceSettlement (record : InternalRecord) : Bool :=
  record.persisted && record.usage.isNone && !record.usageWaived

def closeUnresolvedUsageSource (m : Moment) (s : RequestRecorder) (record : InternalRecord) : Bool × RequestRecorder :=
  if record.pendingPatch.isSome then (false,s)
  else if !needsUsageSourceSettlement record then (true,s)
  else
    let requestId := record.recordMeta.requestId
    let accepted := m.accepts requestId
    let s := s.enqueue (.markRequestUsageSource requestId .none) accepted
    if accepted then (true,s.put { record with settlementPending := false })
    else if record.settlementPending then (false,s)
    else
      -- Only on the transition into the refused state.
      let s := s.releaseCapturedBodies record
      (false,{ s with metadataDropped := s.metadataDropped + 1 }.put { record.bodiesReleased with settlementPending := true })

def buildUsagePatch (record : InternalRecord) (summary : SlimUsageSummary) : UsagePatchWrite :=
  let usage := toRequestUsage summary
  { requestId := record.recordMeta.requestId
    usage := usage
    usageFinalizedAt := record.usageFinalizedAt
    stopReason := summary.stopReason
    refusalCategory := summary.refusalCategory
    usageSource := deriveUsageSource usage (some summary) false }

def patchUsage (m : Moment) (s : RequestRecorder) (record : InternalRecord) (summary : SlimUsageSummary) : RequestRecorder :=
  let requestId := record.recordMeta.requestId
  let accepted := m.accepts requestId
  let s := s.enqueue (.updateRequestUsage (buildUsagePatch record summary)) accepted
  if accepted then (s.put { record with patchTimer := false }).dropRecord requestId
  else
    let s := if record.settlementPending then s else s.releaseCapturedBodies record
    let record := if record.settlementPending then record else record.bodiesReleased
    s.put
      { record with
        pendingPatch := some summary
        settlementPending := true
        patchTimer := false }

def evict (m : Moment) : List String → Nat → Nat → RequestRecorder → RequestRecorder
  | [],_,_,s => s
  | requestId::rest,excess,removed,s =>
    if excess ≤ removed then s
    else match s.records.get requestId with
    | none => evict m rest excess removed s
    | some record =>
      if record.settlementPending then evict m rest excess removed s
      else if record.persisted then
        match closeUnresolvedUsageSource m s record with
        | (false,s) => evict m rest (excess - 1) removed s
        | (true,s) => evict m rest excess (removed + 1) (s.dropRecord requestId)
      else if record.transport.isNone && !record.bodyDiscarded then
        -- Still streaming: the row is yet to be written.
        evict m rest excess removed ((s.releaseBuffers record).put { record.released with bodyDiscarded := true })
      else evict m rest excess removed s

def enforceRecordCap (c : RequestRecorderConfig) (m : Moment) (s : RequestRecorder) : RequestRecorder :=
  let retained := s.records.countP (fun entry => entry.2.settlementPending)
  evict m s.records.keys (s.records.length - retained - c.maxRecords) 0 s

def begin (c : RequestRecorderConfig) (m : Moment) (s : RequestRecorder) (recordMeta : RecordMeta) : RequestRecorder :=
  if (s.records.get recordMeta.requestId).isSome then s
  else
    let len := min (recordMeta.requestBody.getD 0) c.maxRequestBodyBytes
    let captures := m.storePayloads && 0 < recordMeta.requestBody.getD 0
    let fits := s.capturedBytesPending + len ≤ c.captureBytesBudget
    let charged := if captures && fits then len else 0
    let record : InternalRecord :=
      { recordMeta := recordMeta
        reqBytes := if captures && fits then some len else none
        respBytes := 0
        chargedBytes := charged
        transport := none
        usage := none
        usageFinalizedAt := none
        usageWaived := false
        settlementPending := false
        pendingPatch := none
        bodyDiscarded := !m.storePayloads || (captures && !fits)
        persisted := false
        createdAt := m.now
        persistedAt := none
        graceTimer := false
        patchTimer := false }
    enforceRecordCap c m ({ s with capturedBytesPending := s.capturedBytesPending + charged }.put record)

def captureResponseChunk (c : RequestRecorderConfig) (m : Moment) (s : RequestRecorder) (requestId : String) (byteLength : Nat) :
    RequestRecorder :=
  match s.records.get requestId with
  | none => s
  | some record =>
    if record.persisted || record.bodyDiscarded || !m.storePayloads then s
    else
      let remaining := c.maxResponseBodyBytes - record.respBytes
      let take := min remaining byteLength
      if take = 0 || c.captureBytesBudget < s.capturedBytesPending + take then s
      else { s with capturedBytesPending := s.capturedBytesPending + take }.put
        { record with
          respBytes := record.respBytes + take
          chargedBytes := record.chargedBytes + take }

def finishTransport (m : Moment) (s : RequestRecorder) (requestId : String) (outcome : TransportOutcome) : RequestRecorder :=
  match s.records.get requestId with
  | none => s
  | some record =>
    if record.persisted then s
    else
      -- First finish wins.
      let s := if record.transport.isNone
        then s.put
          { record with
            transport := some outcome
            graceTimer := true }
        else s
      persistWhenReady m s requestId false

def graceElapsed (m : Moment) (s : RequestRecorder) (requestId : String) : RequestRecorder :=
  match s.records.get requestId with
  | none => s
  | some record =>
    let s := s.put { record with graceTimer := false }
    if record.persisted || record.usage.isSome then s else persistWhenReady m s requestId true

def patchWindowShut (m : Moment) (s : RequestRecorder) (requestId : String) : RequestRecorder :=
  match s.records.get requestId with
  | none => s
  | some record =>
    let record := { record with patchTimer := false }
    match closeUnresolvedUsageSource m (s.put record) record with
    | (false,s) => s
    | (true,s) => s.dropRecord requestId

def attachUsageSummary (m : Moment) (s : RequestRecorder) (requestId : String) (summary : SlimUsageSummary) : RequestRecorder :=
  match s.records.get requestId with
  | none => s
  | some record =>
    -- The patch window is shut: the record is held for the retry of a settlement.
    if record.settlementPending then s
    else
      let record :=
        { record with
          usageFinalizedAt := if record.usageFinalizedAt.isNone && summary.usage.namesModel then some m.now
            else record.usageFinalizedAt }
      if record.persisted then patchUsage m (s.put record) record summary
      else persistWhenReady m (s.put { record with usage := some summary }) requestId false

def markUsageUnavailable (m : Moment) (s : RequestRecorder) (requestId : String) : RequestRecorder :=
  match s.records.get requestId with
  | none => s
  | some record =>
    if record.persisted then s else persistWhenReady m (s.put { record with usageWaived := true }) requestId false

def sweepOne (c : RequestRecorderConfig) (m : Moment) (overBudget : Bool) (s : RequestRecorder) (requestId : String) :
    RequestRecorder :=
  match s.records.get requestId with
  | none => s
  | some record =>
    if record.persisted then
      let anchor := record.persistedAt.getD record.createdAt
      let retrying := record.settlementPending
      if !retrying && decide (m.now - anchor ≤ c.patchRecordTtlMs) then s
      else if retrying && !m.hasCapacity requestId then s
      else match record.pendingPatch with
      | some pendingPatch => patchUsage m s record pendingPatch
      | none => match closeUnresolvedUsageSource m s record with
        | (false,s) => s
        | (true,s) => s.dropRecord requestId
    else if !decide (c.recordMaxAgeMs < m.now - record.createdAt) && !overBudget then s
    else if record.transport.isNone then
      -- Still streaming: free the buffers, write nothing.
      (s.releaseBuffers record).put { record.released with bodyDiscarded := true }
    else persistWhenReady m (s.put { record with usageWaived := true }) requestId false

def sweep (c : RequestRecorderConfig) (m : Moment) (s : RequestRecorder) : RequestRecorder :=
  s.records.keys.foldl (sweepOne c m (decide (c.captureBytesBudget < s.capturedBytesPending))) s

def dispose (s : RequestRecorder) : RequestRecorder :=
  let heldPatches := s.records.filterMap (fun entry => entry.2.pendingPatch.map (buildUsagePatch entry.2))
  let unsettled := (s.records.filter (fun entry => entry.2.pendingPatch.isNone && needsUsageSourceSettlement entry.2)).map
    (fun entry => entry.2.recordMeta.requestId)
  let s := if unsettled.isEmpty && heldPatches.isEmpty then s else s.enqueue (.shutdownBatch heldPatches unsettled) true
  { s with
    records := []
    capturedBytesPending := 0 }

end RequestRecorder
end Clankermux
