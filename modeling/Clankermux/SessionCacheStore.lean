import Clankermux.CacheBodyStore
import Clankermux.Json
import Clankermux.Utf8

/-! The warm bodies of the sessions: one for each account and session, bounded in number and in
bytes, with what their keepalives have cost. Numbers are exact and finite but for the two
that are set from outside. -/
namespace Clankermux.SessionCacheStore
open InsertionMap CacheBodyStore

def RISK_FACTOR : ℚ := 2/5
def DEFAULT_MIN_CACHE_TOKENS : ℚ := 100000
def MAX_SESSION_SLOTS : Nat := 100
def MAX_SESSION_BRIDGE_BYTES : Int := 64 * 1024 * 1024
def MAX_SESSION_BODY_BYTES : Nat := 2 * 1024 * 1024
def MAX_KEEPALIVE_FAILURES : Nat := 3
def KEEPALIVE_REFRESH_MS : Int := 3 * 60000
def KEEPALIVE_REFRESH_1H_MS : Int := 50 * 60000
def ONE_HOUR_WRITE_MULT : ℚ := 2
def MAX_RISK_FACTOR : ℚ := 1

abbrev Finite := Option ℚ

def clampRiskFactor (riskFactor : Finite) : ℚ :=
  match riskFactor with
  | none => RISK_FACTOR
  | some riskFactor => min (max riskFactor 0) MAX_RISK_FACTOR

def hasCacheWritePremium (cacheReadPer1M cacheWritePer1M : ℚ) : Bool := 0 < cacheReadPer1M && cacheReadPer1M < cacheWritePer1M

def resumePenaltyUsd (cachedTokens cacheReadPer1M cacheWritePer1M : ℚ) : ℚ :=
  if cachedTokens ≤ 0 ∨ hasCacheWritePremium cacheReadPer1M cacheWritePer1M = false then 0
  else (cacheWritePer1M - cacheReadPer1M)/1000000*cachedTokens

def keepaliveBudgetUsd (cachedTokens cacheReadPer1M cacheWritePer1M riskFactor : ℚ) : ℚ :=
  if cachedTokens ≤ 0 ∨ hasCacheWritePremium cacheReadPer1M cacheWritePer1M = false then 0
  else (cacheWritePer1M - cacheReadPer1M)/1000000*cachedTokens*clampRiskFactor (some riskFactor)

def keepaliveCostUsd (cachedTokens ratePer1M : ℚ) : ℚ :=
  if cachedTokens ≤ 0 ∨ ratePer1M ≤ 0 then 0 else ratePer1M/1000000*cachedTokens

def keepaliveHitCostUsd (cachedTokens cacheReadPer1M : ℚ) : ℚ := keepaliveCostUsd cachedTokens cacheReadPer1M
def keepaliveMissCostUsd (cachedTokens cacheWritePer1M : ℚ) : ℚ := keepaliveCostUsd cachedTokens cacheWritePer1M

def isEligibleByTokens (cachedTokens minTokens : ℚ) : Bool := minTokens ≤ cachedTokens

structure ModelCost where
  input : ℚ
  cacheRead : Option ℚ
  cacheWrite : Option ℚ

structure CacheRates where
  inputPer1M : ℚ
  cacheReadPer1M : ℚ
  cacheWritePer1M : ℚ

structure Platform where
  resolveBundledCost : String → Option ModelCost
  parseJson : List Char → Option Json

def getModelCacheRates (p : Platform) (modelId : String) : CacheRates :=
  match p.resolveBundledCost modelId with
  | none => ⟨3,3/10,15/4⟩
  | some cost => ⟨cost.input,cost.cacheRead.getD 0,cost.cacheWrite.getD 0⟩

def isEphemeral (block : Json) : Bool :=
  match (block.field "cache_control").bind (Json.field "type") with
  | some (.str type) => type == "ephemeral"
  | _ => false

def getTtl (block : Json) : Option Json := (block.field "cache_control").bind (Json.field "ttl")

def isOneHour (ttl : Option Json) : Bool :=
  match ttl with
  | some (.str ttl) => ttl == "1h"
  | _ => false

def breakpoints : Option Json → List Json
  | some (.arr blocks) => blocks.filter isEphemeral
  | _ => []

def messagesOf (body : Json) : List Json :=
  match body.field "messages" with
  | some (.arr messages) => messages
  | _ => []

def bodyCacheTtlIsOneHour (body : Json) : Bool :=
  let all := breakpoints (body.field "system") ++ (messagesOf body).flatMap (fun message => breakpoints (message.field "content"))
  all.all (fun block => isOneHour (getTtl block)) && !all.isEmpty

def bodyIsOneHour (p : Platform) (bytes : Body) : Bool :=
  let (decoder,text) := Utf8.decode .start bytes
  (p.parseJson (text ++ decoder.finish)).any bodyCacheTtlIsOneHour

structure SessionCacheSlot where
  accountId : String
  sessionKey : String
  body : Body
  headers : Headers
  path : String
  model : Option String
  cachedTokens : ℚ
  cacheReadPer1M : ℚ
  cacheWritePer1M : ℚ
  cacheWriteEffectivePer1M : ℚ
  priorityUsd : ℚ
  budgetUsd : ℚ
  spentUsd : ℚ
  lastActivityTs : Int
  lastKeepaliveTs : Option Int
  keepaliveFailures : Nat
  keepaliveCount : Nat
  refreshMs : Int

structure RegisterSessionParams where
  accountId : String
  sessionKey : String
  body : Body
  headers : Headers
  path : String
  model : Option String
  cacheReadTokens : ℚ
  cacheCreationTokens : ℚ

structure BridgeStats where
  keepalivesSent : Nat
  hits : Nat
  misses : Nat
  failures : Nat
  spentUsd : ℚ
  savedUsd : ℚ
  savedUsdConservative : ℚ
  warmResumes : Nat

namespace BridgeStats

def start : BridgeStats := ⟨0,0,0,0,0,0,0,0⟩

def recordResult (b : BridgeStats) (hit : Bool) (costUsd : ℚ) : BridgeStats :=
  { b with
    keepalivesSent := b.keepalivesSent + 1
    hits := if hit then b.hits + 1 else b.hits
    misses := if hit then b.misses else b.misses + 1
    spentUsd := b.spentUsd + max costUsd 0 }

def recordFailure (b : BridgeStats) (estimatedCostUsd : ℚ) : BridgeStats :=
  { b with failures := b.failures + 1,spentUsd := b.spentUsd + max estimatedCostUsd 0 }

def recordWarmResume (b : BridgeStats) (savedUsd savedUsdConservative : ℚ) : BridgeStats :=
  { b with
    warmResumes := b.warmResumes + 1
    savedUsd := b.savedUsd + max savedUsd 0
    savedUsdConservative := b.savedUsdConservative + max savedUsdConservative 0 }

end BridgeStats

structure Store where
  slots : InsertionMap String SessionCacheSlot
  totalBytes : Int
  enabled : Bool
  minTokens : ℚ
  riskFactor : ℚ
  bridgeStats : BridgeStats

def Store.start : Store := ⟨[],0,false,DEFAULT_MIN_CACHE_TOKENS,RISK_FACTOR,.start⟩

def keyOf (accountId sessionKey : String) : String := accountId ++ ":" ++ sessionKey

namespace Store

def deleteKey (s : Store) (key : String) : Store :=
  match get s.slots key with
  | some existing => { s with slots := delete s.slots key,totalBytes := s.totalBytes - existing.body.length }
  | none => s

def clear (s : Store) : Store := { s with slots := [],totalBytes := 0 }

def setEnabled (s : Store) (enabled : Bool) : Store :=
  if enabled then { s with enabled := true } else clear { s with enabled := false }

def setMinTokens (s : Store) (minTokens : Finite) : Store :=
  let threshold := match minTokens with
    | some minTokens => if 0 < minTokens then minTokens else 0
    | none => 0
  s.slots.foldl (fun s entry => if entry.2.cachedTokens < threshold then s.deleteKey entry.1 else s) { s with minTokens := threshold }

def setRiskFactor (s : Store) (riskFactor : Finite) : Store :=
  let clamped := clampRiskFactor riskFactor
  { s with
    riskFactor := clamped
    slots := s.slots.map (fun entry => (entry.1,{ entry.2 with
      budgetUsd := keepaliveBudgetUsd entry.2.cachedTokens entry.2.cacheReadPer1M entry.2.cacheWritePer1M clamped })) }

def bookWarmResume (s : Store) (slot : SessionCacheSlot) (readTokens : ℚ) : Store :=
  if slot.spentUsd ≤ 0 then s
  else
    let tokens := if 0 < readTokens then min readTokens slot.cachedTokens else slot.cachedTokens
    let savedUsd := (slot.cacheWriteEffectivePer1M - slot.cacheReadPer1M)/1000000*tokens
    let savedUsdConservative := (slot.cacheWritePer1M - slot.cacheReadPer1M)/1000000*tokens
    { s with bridgeStats := s.bridgeStats.recordWarmResume savedUsd savedUsdConservative }

def goesBefore (slot victim : SessionCacheSlot) : Bool :=
  slot.priorityUsd < victim.priorityUsd || (slot.priorityUsd == victim.priorityUsd && slot.lastActivityTs < victim.lastActivityTs)

def victimOf (slots : InsertionMap String SessionCacheSlot) : Option (String × SessionCacheSlot) :=
  slots.foldl (fun victim entry => match victim with
    | none => some entry
    | some victim => if goesBefore entry.2 victim.2 then some entry else some victim) none

def enforce : Nat → Store → Store × List SessionCacheSlot
  | 0,s => (s,[])
  | fuel+1,s =>
    if s.slots.length > MAX_SESSION_SLOTS ∨ s.totalBytes > MAX_SESSION_BRIDGE_BYTES then
      match victimOf s.slots with
      | none => (s,[])
      | some (victimKey,victim) =>
        let (last,evicted) := enforce fuel (s.deleteKey victimKey)
        (last,victim::evicted)
    else (s,[])

def enforceBounds (s : Store) : Store × List SessionCacheSlot := enforce s.slots.length s

def newSlot (p : Platform) (s : Store) (params : RegisterSessionParams) (now : Int) : SessionCacheSlot :=
  let cachedTokens := params.cacheReadTokens + params.cacheCreationTokens
  let rates := getModelCacheRates p (params.model.getD "")
  let isOneHour := bodyIsOneHour p params.body
  { accountId := params.accountId
    sessionKey := params.sessionKey
    body := params.body
    headers := sanitizeHeadersForReplay params.headers
    path := params.path
    model := params.model
    cachedTokens := cachedTokens
    cacheReadPer1M := rates.cacheReadPer1M
    cacheWritePer1M := rates.cacheWritePer1M
    cacheWriteEffectivePer1M := if isOneHour then rates.inputPer1M*ONE_HOUR_WRITE_MULT else rates.cacheWritePer1M
    priorityUsd := resumePenaltyUsd cachedTokens rates.cacheReadPer1M rates.cacheWritePer1M
    budgetUsd := keepaliveBudgetUsd cachedTokens rates.cacheReadPer1M rates.cacheWritePer1M s.riskFactor
    spentUsd := 0
    lastActivityTs := now
    lastKeepaliveTs := none
    keepaliveFailures := 0
    keepaliveCount := 0
    refreshMs := if isOneHour then KEEPALIVE_REFRESH_1H_MS else KEEPALIVE_REFRESH_MS }

def bookPrev (s : Store) (params : RegisterSessionParams) : Store :=
  match get s.slots (keyOf params.accountId params.sessionKey) with
  | some prev => if 0 < params.cacheReadTokens then s.bookWarmResume prev params.cacheReadTokens else s
  | none => s

def register (p : Platform) (s : Store) (params : RegisterSessionParams) (now : Int) : Store × List SessionCacheSlot :=
  if s.enabled = false then (s,[])
  else
    let key := keyOf params.accountId params.sessionKey
    let cachedTokens := params.cacheReadTokens + params.cacheCreationTokens
    let s := s.bookPrev params
    let rates := getModelCacheRates p (params.model.getD "")
    if isEligibleByTokens cachedTokens s.minTokens = false then (s.deleteKey key,[])
    else if hasCacheWritePremium rates.cacheReadPer1M rates.cacheWritePer1M = false then (s.deleteKey key,[])
    else if params.body.length > MAX_SESSION_BODY_BYTES then (s.deleteKey key,[])
    else
      let slot := newSlot p s params now
      let cleared := s.deleteKey key
      enforceBounds { cleared with slots := InsertionMap.set cleared.slots key slot,totalBytes := cleared.totalBytes + slot.body.length }

def stale (slot : SessionCacheSlot) (expectedLastActivityTs : Option Int) : Bool :=
  expectedLastActivityTs.any (slot.lastActivityTs ≠ ·)

def recordKeepaliveResult (s : Store) (accountId sessionKey : String) (cacheHit : Bool) (now : Int)
    (expectedLastActivityTs : Option Int) : Store :=
  let key := keyOf accountId sessionKey
  match get s.slots key with
  | none => s
  | some slot =>
    if stale slot expectedLastActivityTs then s
    else
      let cost := if cacheHit then keepaliveHitCostUsd slot.cachedTokens slot.cacheReadPer1M
        else keepaliveMissCostUsd slot.cachedTokens slot.cacheWriteEffectivePer1M
      { s with
        slots := InsertionMap.set s.slots key { slot with
          spentUsd := slot.spentUsd + cost
          lastKeepaliveTs := some now
          keepaliveCount := slot.keepaliveCount + 1
          keepaliveFailures := 0 }
        bridgeStats := s.bridgeStats.recordResult cacheHit cost }

def recordKeepaliveFailure (s : Store) (accountId sessionKey : String) (now : Int) (expectedLastActivityTs : Option Int)
    (usageUnknown : Bool) : Store :=
  let key := keyOf accountId sessionKey
  match get s.slots key with
  | none => s
  | some slot =>
    if stale slot expectedLastActivityTs then s
    else if usageUnknown then
      let cost := keepaliveMissCostUsd slot.cachedTokens slot.cacheWriteEffectivePer1M
      deleteKey { s with bridgeStats := s.bridgeStats.recordFailure cost } key
    else
      let failed := { slot with lastKeepaliveTs := some now,keepaliveFailures := slot.keepaliveFailures + 1 }
      let kept := { s with slots := InsertionMap.set s.slots key failed,bridgeStats := s.bridgeStats.recordFailure 0 }
      if failed.keepaliveFailures ≥ MAX_KEEPALIVE_FAILURES then kept.deleteKey key else kept

def touchActivity (s : Store) (accountId sessionKey : String) (now : Int) (readTokens : ℚ) : Store :=
  let key := keyOf accountId sessionKey
  match get s.slots key with
  | none => s
  | some slot =>
    let booked := s.bookWarmResume slot readTokens
    { booked with slots := InsertionMap.set booked.slots key { slot with
        lastActivityTs := now
        spentUsd := 0
        lastKeepaliveTs := none
        keepaliveCount := 0 } }

def evictSession (s : Store) (accountId sessionKey : String) (expectedLastActivityTs : Int) : Store :=
  let key := keyOf accountId sessionKey
  match get s.slots key with
  | none => s
  | some slot => if slot.lastActivityTs ≠ expectedLastActivityTs then s else s.deleteKey key

def evictAccount (s : Store) (accountId : String) : Store :=
  s.slots.foldl (fun s entry =>
    if entry.2.accountId = accountId then
      { s with slots := delete s.slots entry.1,totalBytes := s.totalBytes - entry.2.body.length }
    else s) s

end Store

inductive Operation where
  | register (params : RegisterSessionParams) (now : Int)
  | touchActivity (accountId sessionKey : String) (now : Int) (readTokens : ℚ)
  | recordKeepaliveResult (accountId sessionKey : String) (cacheHit : Bool) (now : Int) (expectedLastActivityTs : Option Int)
  | recordKeepaliveFailure (accountId sessionKey : String) (now : Int) (expectedLastActivityTs : Option Int) (usageUnknown : Bool)
  | evictSession (accountId sessionKey : String) (expectedLastActivityTs : Int)
  | evictAccount (accountId : String)
  | setMinTokens (minTokens : Finite)
  | setRiskFactor (riskFactor : Finite)
  | setEnabled (enabled : Bool)

def step (p : Platform) (s : Store) : Operation → Store × List SessionCacheSlot
  | .register params now => s.register p params now
  | .touchActivity accountId sessionKey now readTokens => (s.touchActivity accountId sessionKey now readTokens,[])
  | .recordKeepaliveResult accountId sessionKey cacheHit now expectedLastActivityTs =>
    (s.recordKeepaliveResult accountId sessionKey cacheHit now expectedLastActivityTs,[])
  | .recordKeepaliveFailure accountId sessionKey now expectedLastActivityTs usageUnknown =>
    (s.recordKeepaliveFailure accountId sessionKey now expectedLastActivityTs usageUnknown,[])
  | .evictSession accountId sessionKey expectedLastActivityTs => (s.evictSession accountId sessionKey expectedLastActivityTs,[])
  | .evictAccount accountId => (s.evictAccount accountId,[])
  | .setMinTokens minTokens => (s.setMinTokens minTokens,[])
  | .setRiskFactor riskFactor => (s.setRiskFactor riskFactor,[])
  | .setEnabled enabled => (s.setEnabled enabled,[])

def run (p : Platform) (operations : List Operation) : Store := operations.foldl (fun s operation => (step p s operation).1) .start

end Clankermux.SessionCacheStore
