import Mathlib.Data.List.Dedup
import Mathlib.Data.List.Sort
import Mathlib.Data.Rat.Floor

/-! How long the pool keeps going when every account's measured burn is held fixed. Instants,
percentages and slopes are rational numbers, so every reading is finite. -/
namespace Clankermux.CapacityRunway

def HOUR_MS : ℚ := 3600000
def RUNWAY_HORIZON_MS : ℚ := 14 * 24 * 60 * 60 * 1000
def MAX_PROJECTED_CYCLES : Nat := 4096
def RESET_JITTER_TOLERANCE_MS : ℚ := 60000
def ANCHOR_FULL_CONFIDENCE_MIN_SPAN_MS : ℚ := 60 * 60000
def UNSTARTED_WINDOW_TOLERANCE_MS : ℚ := 5 * 60000
def CALENDAR_RESET_WINDOWS : List String := ["daily"]

theorem hourPositive : 0 < HOUR_MS := by norm_num [HOUR_MS]

inductive PredictionState where
  | rising
  | stable
  | exhausted
  | insufficientData
  deriving DecidableEq

structure UsagePrediction where
  state : PredictionState
  slopePerHour : ℚ
  etaExhaustMs : Option ℚ
  resetsAtMs : Option ℚ
  lowConfidence : Bool

structure UsageBurnAnchor where
  anchorMs : ℚ
  anchorPct : ℚ
  windowResetMs : ℚ

inductive LifetimeConfidence where
  | low
  | full
  deriving DecidableEq

inductive WindowExhaustionSource where
  | regression
  | lifetimeAverage
  | lifetimePrimary
  | alreadyExhausted
  | noUsage
  | unstarted
  | none
  deriving DecidableEq

structure RunwayWindowInput where
  windowKind : String
  utilizationPct : ℚ
  resetsAtMs : Option ℚ
  windowStartMs : Option ℚ
  prediction : Option UsagePrediction := none
  lifetimeConfidence : LifetimeConfidence := .low
  observedAtMs : Option ℚ := none
  anchor : Option UsageBurnAnchor := none

structure WindowExhaustion where
  source : WindowExhaustionSource
  slopePctPerHour : Option ℚ := none
  exhaustsAtMs : Option ℚ := none
  lowConfidence : Bool := false
  anchored : Bool := false
  evidenceSpanMs : Option ℚ := none
  deriving DecidableEq

def NO_EVIDENCE : WindowExhaustion := { source := .none }

def isUsablePrediction (pred : UsagePrediction) (liveResetMs : Option ℚ) : Bool :=
  if pred.state = .insufficientData then false
  else if pred.lowConfidence then false
  else match pred.resetsAtMs,liveResetMs with
    | none,none => true
    | some predReset,some live => |predReset - live| ≤ RESET_JITTER_TOLERANCE_MS
    | _,_ => false

def usableAnchor (anchor : Option UsageBurnAnchor) (resetsAtMs windowStartMs : ℚ) : Option UsageBurnAnchor :=
  anchor.filter fun anchor =>
    |anchor.windowResetMs - resetsAtMs| ≤ RESET_JITTER_TOLERANCE_MS ∧ windowStartMs < anchor.anchorMs ∧ anchor.anchorMs < resetsAtMs

def activeAnchor (window : RunwayWindowInput) (resetsAtMs windowStartMs : ℚ) : Option UsageBurnAnchor :=
  (usableAnchor window.anchor resetsAtMs windowStartMs).filter fun anchor =>
    window.observedAtMs.any (· ≥ anchor.anchorMs)

def windowResetsOnCalendar (window : String) : Bool := CALENDAR_RESET_WINDOWS.contains window

def isUnstartedWindow (window : RunwayWindowInput) : Bool :=
  !windowResetsOnCalendar window.windowKind && !decide (window.utilizationPct > 0) &&
    match window.windowStartMs,window.observedAtMs with
    | some windowStartMs,some observedAtMs => |windowStartMs - observedAtMs| ≤ UNSTARTED_WINDOW_TOLERANCE_MS
    | _,_ => false

def regressionEstimate (prediction : UsagePrediction) (measuredAt windowStartMs : ℚ) (active : Option UsageBurnAnchor) :
    WindowExhaustion :=
  let slope := max 0 prediction.slopePerHour
  let span := measuredAt - (active.map (·.anchorMs)).getD windowStartMs
  { source := .regression
    slopePctPerHour := some slope
    exhaustsAtMs := if slope > 0 then prediction.etaExhaustMs else none
    lowConfidence := span < ANCHOR_FULL_CONFIDENCE_MIN_SPAN_MS
    evidenceSpanMs := some span }

/-- The burn since the anchor, told at `measuredAt`, or since the structural start when there is none.
A refund after the anchor is held flat. -/
def lifetimeEstimate (source : WindowExhaustionSource) (lowConfidence : ℚ → Bool) (pct measuredAt windowStartMs : ℚ) :
    Option UsageBurnAnchor → WindowExhaustion
  | some anchor =>
    let anchoredElapsed := measuredAt - anchor.anchorMs
    let burned := pct - anchor.anchorPct
    if burned ≤ 0 ∨ anchoredElapsed ≤ 0 then
      { source,slopePctPerHour := some 0,lowConfidence := lowConfidence anchoredElapsed,anchored := true
        evidenceSpanMs := some anchoredElapsed }
    else
      { source
        slopePctPerHour := some (burned / anchoredElapsed * HOUR_MS)
        exhaustsAtMs := some (measuredAt + (100 - pct) / burned * anchoredElapsed)
        lowConfidence := lowConfidence anchoredElapsed
        anchored := true
        evidenceSpanMs := some anchoredElapsed }
  | none =>
    let elapsed := measuredAt - windowStartMs
    { source
      slopePctPerHour := some (pct / elapsed * HOUR_MS)
      exhaustsAtMs := some (measuredAt + (100 - pct) / pct * elapsed)
      lowConfidence := lowConfidence elapsed
      evidenceSpanMs := some elapsed }

def estimateWindowExhaustion (window : RunwayWindowInput) (now : ℚ) : WindowExhaustion :=
  let pct := window.utilizationPct
  if pct ≥ 100 then { source := .alreadyExhausted,exhaustsAtMs := some now }
  else match window.windowStartMs,window.resetsAtMs with
    | some windowStartMs,some resetsAtMs =>
      if resetsAtMs ≤ now then NO_EVIDENCE
      else if windowStartMs ≥ resetsAtMs then NO_EVIDENCE
      else
        let active := activeAnchor window resetsAtMs windowStartMs
        match window.prediction.filter (isUsablePrediction · (some resetsAtMs)) with
        | some prediction => regressionEstimate prediction (window.observedAtMs.getD now) windowStartMs active
        | none =>
          if pct ≤ 0 then
            if isUnstartedWindow window then { source := .unstarted } else { source := .noUsage }
          else match window.observedAtMs.filter (fun observedAtMs => window.lifetimeConfidence = .full ∧ observedAtMs > windowStartMs) with
            | some observedAtMs =>
              lifetimeEstimate .lifetimePrimary (· < ANCHOR_FULL_CONFIDENCE_MIN_SPAN_MS) pct observedAtMs windowStartMs active
            | none =>
              if active = none ∧ now - windowStartMs ≤ 0 then NO_EVIDENCE
              else lifetimeEstimate .lifetimeAverage (fun _ => true) pct now windowStartMs active
    | _,_ => NO_EVIDENCE

def isLearningEstimate (estimate : WindowExhaustion) (utilizationPct : ℚ) : Bool :=
  utilizationPct ≤ 0 || estimate.source = .noUsage || estimate.source = .unstarted ||
    estimate.evidenceSpanMs.any (· < ANCHOR_FULL_CONFIDENCE_MIN_SPAN_MS)

structure ResetCredit where
  expiresAtMs : Option ℚ
  deriving DecidableEq

structure RunwayResetCreditBank where
  onWeeklyLimitEnabled : Bool
  onExpiryEnabled : Bool
  credits : List ResetCredit

structure RunwayAccountInput where
  accountId : String
  unmetered : Bool
  windows : List RunwayWindowInput
  codexResetCredits : Option RunwayResetCreditBank := none

structure DeadInterval where
  startMs : ℚ
  endMs : ℚ

structure WindowDeadInterval extends DeadInterval where
  windowKind : String

def DeadInterval.covers (interval : DeadInterval) (t : ℚ) : Bool := interval.startMs ≤ t ∧ t < interval.endMs

def clamped (windowKind : String) (now horizonEndMs startMs endMs : ℚ) : List WindowDeadInterval :=
  let clampedStart := max startMs now
  let clampedEnd := min endMs horizonEndMs
  if clampedEnd > clampedStart then [{ startMs := clampedStart,endMs := clampedEnd,windowKind }] else []

def projectedCycles (windowKind : String) (now horizonEndMs resetsAtMs durationMs timeToFullMs : ℚ) :
    (bound cycle : Nat) → List WindowDeadInterval
  | 0,_ => []
  | bound+1,cycle =>
    let cycleStartMs := resetsAtMs + cycle * durationMs
    let deadFromMs := cycleStartMs + timeToFullMs
    if deadFromMs ≥ horizonEndMs then []
    else clamped windowKind now horizonEndMs deadFromMs (cycleStartMs + durationMs) ++
      projectedCycles windowKind now horizonEndMs resetsAtMs durationMs timeToFullMs bound (cycle+1)

def laterIntervals (windowKind : String) (now horizonEndMs resetsAtMs windowStartMs : ℚ) (slope : Option ℚ) : List WindowDeadInterval :=
  match slope with
  | none => []
  | some slope =>
    let durationMs := resetsAtMs - windowStartMs
    let timeToFullMs := 100 / slope * HOUR_MS
    if slope ≤ 0 then []
    else if durationMs ≤ 0 then []
    else if ¬ timeToFullMs < durationMs then []
    else projectedCycles windowKind now horizonEndMs resetsAtMs durationMs timeToFullMs MAX_PROJECTED_CYCLES 0

def windowDeadIntervals (window : RunwayWindowInput) (estimate : WindowExhaustion) (now horizonEndMs : ℚ) : List WindowDeadInterval :=
  if estimate.source = .alreadyExhausted then
    match window.resetsAtMs.filter (· > now) with
    | some resetsAtMs => clamped window.windowKind now horizonEndMs now resetsAtMs
    | none => clamped window.windowKind now horizonEndMs now horizonEndMs
  else match estimate.exhaustsAtMs,window.resetsAtMs,window.windowStartMs with
    | some exhaustsAtMs,some resetsAtMs,some windowStartMs =>
      (if exhaustsAtMs < resetsAtMs then clamped window.windowKind now horizonEndMs exhaustsAtMs resetsAtMs else []) ++
        laterIntervals window.windowKind now horizonEndMs resetsAtMs windowStartMs estimate.slopePctPerHour
    | _,_,_ => []

def weeklyTimeToFull (window : RunwayWindowInput) (estimate : WindowExhaustion) (now pace : ℚ) : Option ℚ :=
  match estimate.slopePctPerHour.filter (· > 0) with
  | some slope => some (100 / slope * HOUR_MS)
  | none =>
    if estimate.source ≠ .alreadyExhausted then none
    else
      let anchor := match window.resetsAtMs,window.windowStartMs with
        | some resetsAtMs,some windowStartMs => usableAnchor window.anchor resetsAtMs windowStartMs
        | _,_ => none
      match anchor.filter (fun anchor => anchor.anchorPct < 100),window.observedAtMs with
      | some anchor,some observedAtMs =>
        if observedAtMs > anchor.anchorMs then
          some ((observedAtMs - anchor.anchorMs) * 100 / (100 - anchor.anchorPct) / pace)
        else fromStart observedAtMs
      | _,_ => fromStart (window.observedAtMs.getD now)
where
  fromStart (filledByMs : ℚ) : Option ℚ :=
    (window.windowStartMs.filter (filledByMs > ·)).map fun windowStartMs => (filledByMs - windowStartMs) / pace

def expiresNoLater (a b : ResetCredit) : Bool :=
  match a.expiresAtMs,b.expiresAtMs with
  | _,none => true
  | none,some _ => false
  | some x,some y => x ≤ y

def takeCreditAt (t : ℚ) : List ResetCredit → Option (List ResetCredit)
  | [] => none
  | credit::credits =>
    if credit.expiresAtMs.all (· > t) then some credits else (takeCreditAt t credits).map (credit::·)

def expiryInside (credits : List ResetCredit) (t0 t1 : ℚ) : Option ℚ :=
  (credits.filterMap (·.expiresAtMs)).find? fun expiresAtMs => expiresAtMs > t0 ∧ expiresAtMs < t1

def modeledReExhaustion (timeToFullMs : Option ℚ) (revivedAtMs endMs : ℚ) : Option ℚ :=
  (timeToFullMs.filter fun timeToFullMs => timeToFullMs > 0 ∧ revivedAtMs + timeToFullMs < endMs).map (revivedAtMs + ·)

/-- What is left of one dead span from `startMs` on, and the credits left. Every turn but the last takes a
credit, so as many turns as there are credits are enough. -/
def reviveSpan (timeToFullMs : Option ℚ) (bank : RunwayResetCreditBank) (interval : WindowDeadInterval) :
    (turns : Nat) → (startMs : ℚ) → List ResetCredit → List WindowDeadInterval × List ResetCredit
  | turns,startMs,credits =>
    match (if bank.onWeeklyLimitEnabled then takeCreditAt startMs credits else none),turns with
    | some left,turns+1 =>
      match modeledReExhaustion timeToFullMs startMs interval.endMs with
      | none => ([],left)
      | some reExhaustsAtMs => reviveSpan timeToFullMs bank interval turns reExhaustsAtMs left
    | _,turns =>
      match (if bank.onExpiryEnabled then expiryInside credits startMs interval.endMs else none),takeCreditAt startMs credits,turns with
      | some expiryMs,some left,turns+1 =>
        let dead := { interval with startMs,endMs := expiryMs }
        match modeledReExhaustion timeToFullMs expiryMs interval.endMs with
        | none => ([dead],left)
        | some reExhaustsAtMs =>
          let rest := reviveSpan timeToFullMs bank interval turns reExhaustsAtMs left
          (dead::rest.1,rest.2)
      | _,_,_ => ([{ interval with startMs }],credits)

def reviveSpans (timeToFullMs : Option ℚ) (bank : RunwayResetCreditBank) :
    List WindowDeadInterval → List ResetCredit → List WindowDeadInterval × List ResetCredit
  | [],credits => ([],credits)
  | interval::intervals,credits =>
    let first := reviveSpan timeToFullMs bank interval credits.length interval.startMs credits
    let rest := reviveSpans timeToFullMs bank intervals first.2
    (first.1 ++ rest.1,rest.2)

def applyResetCreditsToWeeklyIntervals (intervals : List WindowDeadInterval) (timeToFullMs : Option ℚ)
    (bank : RunwayResetCreditBank) : List WindowDeadInterval × Nat :=
  if bank.credits.length = 0 ∨ (!bank.onWeeklyLimitEnabled && !bank.onExpiryEnabled) then (intervals,0)
  else
    let credits := bank.credits.insertionSort (expiresNoLater · ·)
    let sorted := intervals.insertionSort (·.startMs ≤ ·.startMs)
    let out := reviveSpans timeToFullMs bank sorted credits
    (out.1,credits.length - out.2.length)

def mergeInto (current : DeadInterval) : List DeadInterval → List DeadInterval
  | [] => [current]
  | next::rest =>
    if next.startMs ≤ current.endMs then mergeInto { current with endMs := max current.endMs next.endMs } rest
    else current::mergeInto next rest

def unionIntervals (intervals : List DeadInterval) : List DeadInterval :=
  match intervals.insertionSort (·.startMs ≤ ·.startMs) with
  | [] => []
  | first::rest => mergeInto first rest

def isDeadAt (intervals : List DeadInterval) (t : ℚ) : Bool := intervals.any (·.covers t)

def scaleEstimatePace (estimate : WindowExhaustion) (pace now : ℚ) (observedAtMs : Option ℚ) : WindowExhaustion :=
  if pace = 1 then estimate
  else
    let anchorMs := match observedAtMs with
      | some observedAtMs => if estimate.source = .lifetimePrimary then observedAtMs else now
      | none => now
    let exhaustsAtMs := estimate.exhaustsAtMs.map fun exhaustsAtMs =>
      if estimate.source ≠ .alreadyExhausted ∧ exhaustsAtMs > anchorMs then anchorMs + (exhaustsAtMs - anchorMs) / pace
      else exhaustsAtMs
    { estimate with
      slopePctPerHour := estimate.slopePctPerHour.map fun slope => if slope > 0 then slope * pace else slope
      exhaustsAtMs }

structure PooledAccount where
  accountId : String
  windowIntervals : List WindowDeadInterval
  union : List DeadInterval

structure RunwayAssumedCredits where
  accountId : String
  count : Nat

structure PoolBuild where
  pooled : List PooledAccount := []
  unprojectableAccountIds : List String := []
  learningAccountIds : List String := []
  assumedCredits : List RunwayAssumedCredits := []

structure WindowsRead where
  windowIntervals : List WindowDeadInterval := []
  weeklyIntervals : List WindowDeadInterval := []
  weeklyTimeToFullMs : Option ℚ := none
  readable : Bool := false
  learning : Bool := false

def readWindow (banked : Bool) (now horizonEndMs pace : ℚ) (pacedWindowKinds : Option (List String)) (r : WindowsRead)
    (window : RunwayWindowInput) : WindowsRead :=
  let windowPace := if pacedWindowKinds.all (·.contains window.windowKind) then pace else 1
  let estimate := scaleEstimatePace (estimateWindowExhaustion window now) windowPace now window.observedAtMs
  if estimate.source = .none then r
  else if isLearningEstimate estimate window.utilizationPct then { r with readable := true,learning := true }
  else
    let intervals := windowDeadIntervals window estimate now horizonEndMs
    if banked && window.windowKind == "seven_day" then
      { r with
        readable := true
        weeklyIntervals := r.weeklyIntervals ++ intervals
        weeklyTimeToFullMs := weeklyTimeToFull window estimate now windowPace }
    else { r with readable := true,windowIntervals := r.windowIntervals ++ intervals }

def pooledAccount (accountId : String) (windowIntervals : List WindowDeadInterval) : PooledAccount :=
  { accountId,windowIntervals,union := unionIntervals (windowIntervals.map (·.toDeadInterval)) }

def poolAccount (now horizonEndMs pace : ℚ) (pacedWindowKinds : Option (List String)) (b : PoolBuild) (account : RunwayAccountInput) :
    PoolBuild :=
  if account.unmetered then { b with pooled := b.pooled ++ [{ accountId := account.accountId,windowIntervals := [],union := [] }] }
  else
    let r := account.windows.foldl (readWindow account.codexResetCredits.isSome now horizonEndMs pace pacedWindowKinds) {}
    if !r.readable then { b with unprojectableAccountIds := b.unprojectableAccountIds ++ [account.accountId] }
    else if r.learning then { b with
      unprojectableAccountIds := b.unprojectableAccountIds ++ [account.accountId]
      learningAccountIds := b.learningAccountIds ++ [account.accountId] }
    else match account.codexResetCredits.filter (fun _ => r.weeklyIntervals.length > 0) with
      | some bank =>
        let applied := applyResetCreditsToWeeklyIntervals r.weeklyIntervals r.weeklyTimeToFullMs bank
        { b with
          pooled := b.pooled ++ [pooledAccount account.accountId (r.windowIntervals ++ applied.1)]
          assumedCredits :=
            if applied.2 > 0 then b.assumedCredits ++ [⟨account.accountId,applied.2⟩] else b.assumedCredits }
      | none => { b with pooled := b.pooled ++ [pooledAccount account.accountId (r.windowIntervals ++ r.weeklyIntervals)] }

def buildPool (accounts : List RunwayAccountInput) (now horizonEndMs pace : ℚ) (pacedWindowKinds : Option (List String)) : PoolBuild :=
  accounts.foldl (poolAccount now horizonEndMs pace pacedWindowKinds) {}

structure RunwayCause where
  accountId : String
  windowKind : String
  deriving DecidableEq

structure AllOutHit where
  t : ℚ
  causes : List RunwayCause

def causesAt (pooled : List PooledAccount) (t : ℚ) : List RunwayCause :=
  pooled.flatMap fun account =>
    (account.windowIntervals.filter (·.covers t)).map fun interval => ⟨account.accountId,interval.windowKind⟩

def candidateInstants (pooled : List PooledAccount) (now horizonEndMs : ℚ) : List ℚ :=
  (now::pooled.flatMap fun account =>
    (account.union.map (·.startMs)).filter fun startMs => startMs ≥ now ∧ startMs < horizonEndMs).dedup.insertionSort (· ≤ ·)

def firstAllOut (pooled : List PooledAccount) (now horizonEndMs : ℚ) : Option AllOutHit :=
  ((candidateInstants pooled now horizonEndMs).find? fun t => pooled.all fun account => isDeadAt account.union t).map
    fun t => ⟨t,causesAt pooled t⟩

def PACE_MARGIN_PROBE_MAX : ℚ := 3 / 2
def PACE_MARGIN_PRECISION : ℚ := 1 / 100
def PACE_DEFICIT_PROBE_MIN : ℚ := 1 / 2

def round (x : ℚ) : Nat := ⌊x + 1 / 2⌋.toNat

structure PaceMargin where
  multiplier : ℚ
  exhaustsAtMs : ℚ

@[grind] def marginWalk {ε : Type} (scan : ℚ → Except ε (Option ℚ)) : (left step : Nat) → Except ε (Option PaceMargin)
  | 0,_ => .ok none
  | left+1,step =>
    let pace := 1 + step * PACE_MARGIN_PRECISION
    match scan pace with
    | .error aborted => .error aborted
    | .ok (some hit) => .ok (some ⟨pace,hit⟩)
    | .ok none => marginWalk scan left (step+1)

def probeMarginOver {ε : Type} (scan : ℚ → Except ε (Option ℚ)) : Except ε (Option PaceMargin) :=
  marginWalk scan (round ((PACE_MARGIN_PROBE_MAX - 1) / PACE_MARGIN_PRECISION)) 1

@[grind] def deficitWalk {ε : Type} (runsOut : ℚ → Except ε Bool) (safest : Option ℚ) : (step : Nat) → Except ε (Option ℚ)
  | 0 => .ok safest
  | step+1 =>
    let pace := 1 - (step+1 : Nat) * PACE_MARGIN_PRECISION
    match runsOut pace with
    | .error aborted => .error aborted
    | .ok true => .ok safest
    | .ok false => deficitWalk runsOut (some pace) step

def probeDeficitOver {ε : Type} (runsOut : ℚ → Except ε Bool) : Except ε (Option ℚ) :=
  deficitWalk runsOut none (round ((1 - PACE_DEFICIT_PROBE_MIN) / PACE_MARGIN_PRECISION))

inductive RunwayOutcome where
  | noAccounts
  | unknown (learningAccountIds : List String)
  | outNow (causes : List RunwayCause) (unprojectableAccountIds learningAccountIds : List String)
    (assumedResetCredits : List RunwayAssumedCredits)
  | runway (exhaustsAtMs durationMs : ℚ) (causes : List RunwayCause) (unprojectableAccountIds learningAccountIds : List String)
    (assumedResetCredits : List RunwayAssumedCredits) (paceDeficit : Option ℚ)
  | beyondHorizon (horizonMs : ℚ) (unprojectableAccountIds learningAccountIds : List String)
    (assumedResetCredits : List RunwayAssumedCredits) (paceMargin : Option PaceMargin)

structure RunwayOptions where
  probePaceMargin : Bool := true
  pacedWindowKinds : Option (List String) := none

def pooledAt (accounts : List RunwayAccountInput) (now horizonEndMs : ℚ) (pacedWindowKinds : Option (List String)) (pace : ℚ) :
    Except Unit (List PooledAccount) :=
  let pooled := (buildPool accounts now horizonEndMs pace pacedWindowKinds).pooled
  if pooled.length = 0 then .error () else .ok pooled

def probePaceMargin (accounts : List RunwayAccountInput) (now horizonEndMs : ℚ) (pacedWindowKinds : Option (List String)) : Option PaceMargin :=
  if accounts.any (·.unmetered) then none
  else (probeMarginOver fun pace => (pooledAt accounts now horizonEndMs pacedWindowKinds pace).map fun pooled =>
    (firstAllOut pooled now horizonEndMs).map (·.t)).toOption.join

def probePaceDeficit (accounts : List RunwayAccountInput) (now horizonEndMs : ℚ) (pacedWindowKinds : Option (List String)) : Option ℚ :=
  if accounts.any (·.unmetered) then none
  else (probeDeficitOver fun pace => (pooledAt accounts now horizonEndMs pacedWindowKinds pace).map fun pooled =>
    (firstAllOut pooled now horizonEndMs).isSome).toOption.join

def computeCapacityRunway (accounts : List RunwayAccountInput) (now horizonMs : ℚ) (options : RunwayOptions) : RunwayOutcome :=
  if accounts.length = 0 then .noAccounts
  else
    let horizonEndMs := now + horizonMs
    let pool := buildPool accounts now horizonEndMs 1 none
    if pool.pooled.length = 0 then .unknown pool.learningAccountIds
    else match firstAllOut pool.pooled now horizonEndMs with
      | some hit =>
        if hit.t = now then .outNow hit.causes pool.unprojectableAccountIds pool.learningAccountIds pool.assumedCredits
        else .runway hit.t (hit.t - now) hit.causes pool.unprojectableAccountIds pool.learningAccountIds pool.assumedCredits
          (if options.probePaceMargin then probePaceDeficit accounts now horizonEndMs options.pacedWindowKinds else none)
      | none => .beyondHorizon horizonMs pool.unprojectableAccountIds pool.learningAccountIds pool.assumedCredits
          (if options.probePaceMargin then probePaceMargin accounts now horizonEndMs options.pacedWindowKinds else none)

end Clankermux.CapacityRunway
