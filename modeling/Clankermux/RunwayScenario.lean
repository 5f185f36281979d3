import Clankermux.CapacityRunway
import Clankermux.InsertionMap

/-! How long the pool keeps going when the demand of a dead account moves onto the living: the
measured burn of a class is split anew, at every event, over the accounts that are alive. -/
namespace Clankermux.RunwayScenario
open CapacityRunway InsertionMap

def EVENT_TIE_TOLERANCE_MS : ℚ := 1
def MAX_SCENARIO_EVENTS : Nat := 100000

inductive RunwayTierProvenance where
  | recorded
  | assumed
  deriving DecidableEq

structure AccountTier where
  provider : String
  planTier : Option String
  rateLimitTier : Option String
  provenance : RunwayTierProvenance

structure TierCapacityEntry where
  provider : String
  planTier : String
  rateLimitTier : Option String
  units : ℚ

def TIER_CAPACITY_TABLE : List TierCapacityEntry :=
  [⟨"anthropic","pro",none,1⟩,⟨"anthropic","pro",some "pro",1⟩,⟨"anthropic","max",some "5x",5⟩,⟨"anthropic","max",some "20x",20⟩,
    ⟨"codex","plus",none,1⟩,⟨"codex","prolite",none,5⟩,⟨"codex","pro",none,20⟩]

def tierCapacityUnits (tier : AccountTier) : Option ℚ :=
  (TIER_CAPACITY_TABLE.find? fun candidate =>
    candidate.provider = tier.provider ∧ some candidate.planTier = tier.planTier ∧ candidate.rateLimitTier = tier.rateLimitTier).map (·.units)

inductive RunwayScenarioPresence where
  | alive
  | demandOnly
  deriving DecidableEq

structure RunwayScenarioAccountInput extends RunwayAccountInput where
  demandClass : String
  tier : Option AccountTier
  presence : RunwayScenarioPresence := .alive

structure CandidateWindow where
  windowKind : String
  utilizationPct : ℚ
  measuredUnitsPerHour : Option ℚ

structure ShareCandidate where
  accountId : String
  demandClass : String
  capacityUnits : Option ℚ
  windows : List CandidateWindow

abbrev ShareRule := List ShareCandidate → String → List ℚ

def equalShareRule : ShareRule := fun candidates _ => candidates.map fun _ => 1

def measuredWeight (windowKind : String) (candidate : ShareCandidate) : ℚ :=
  match (candidate.windows.find? (·.windowKind = windowKind)).bind (·.measuredUnitsPerHour) with
  | some units => if units > 0 then units else 0
  | none => 0

def proportionalShareRule : ShareRule := fun candidates windowKind =>
  let weights := candidates.map (measuredWeight windowKind)
  if weights.any (· > 0) then weights else equalShareRule candidates windowKind

inductive ObservationLag where
  | advance
  | ignore
  deriving DecidableEq

structure RunwayScenarioOptions where
  shareRule : ShareRule := proportionalShareRule
  capacityUnits : AccountTier → Option ℚ := tierCapacityUnits
  probePaceMargin : Bool := true
  maxEvents : Nat := MAX_SCENARIO_EVENTS
  observationLag : ObservationLag := .advance

structure PreparedWindow where
  kind : String
  pct : ℚ
  windowStartMs : Option ℚ
  resetsAtMs : Option ℚ
  durationMs : Option ℚ
  deadUntilMs : Option ℚ
  inactive : Bool
  learning : Bool
  contribution : Option ℚ
  lagMs : ℚ

/-- How far behind `now` the estimator measured. An anchor ahead of `now` clamps to 0. -/
def observationLagMs (estimate : WindowExhaustion) (window : RunwayWindowInput) (now : ℚ) : ℚ :=
  match estimate.source with
  | .regression =>
    match estimate.exhaustsAtMs,estimate.slopePctPerHour with
    | some exhaustsAtMs,some slope =>
      if slope ≤ 0 then 0
      else
        let anchorMs := exhaustsAtMs - (100 - window.utilizationPct) / slope * HOUR_MS
        max 0 (now - anchorMs)
    | _,_ => 0
  | .lifetimePrimary =>
    match window.observedAtMs with
    | none => 0
    | some observedAtMs => max 0 (now - observedAtMs)
  | _ => 0

def positiveSpan (resetsAtMs startMs : Option ℚ) : Option ℚ :=
  match resetsAtMs,startMs with
  | some resetsAtMs,some startMs => if resetsAtMs - startMs > 0 then some (resetsAtMs - startMs) else none
  | _,_ => none

def prepareExhausted (window : RunwayWindowInput) (estimate : WindowExhaustion) (capacityUnits now horizonEndMs : ℚ) : PreparedWindow :=
  let nextResetMs := window.resetsAtMs.filter (· > now)
  let fillMs := (nextResetMs.bind fun _ => weeklyTimeToFull window estimate now 1).filter (· ≥ ANCHOR_FULL_CONFIDENCE_MIN_SPAN_MS)
  { kind := window.windowKind
    pct := 100
    windowStartMs := window.windowStartMs
    resetsAtMs := nextResetMs
    durationMs := positiveSpan nextResetMs window.windowStartMs
    deadUntilMs := some (nextResetMs.getD horizonEndMs)
    inactive := false
    learning := false
    contribution := fillMs.map fun fillMs => 100 / fillMs * HOUR_MS * capacityUnits
    lagMs := 0 }

def prepareWindow (window : RunwayWindowInput) (capacityUnits now horizonEndMs : ℚ) (observationLag : ObservationLag) :
    Option PreparedWindow :=
  let estimate := estimateWindowExhaustion window now
  let durationMs := positiveSpan window.resetsAtMs window.windowStartMs
  match estimate.source with
  | .none => none
  | .alreadyExhausted => some (prepareExhausted window estimate capacityUnits now horizonEndMs)
  | .unstarted => some
    { kind := window.windowKind
      pct := 0
      windowStartMs := window.windowStartMs
      resetsAtMs := none
      durationMs
      deadUntilMs := none
      inactive := true
      learning := true
      contribution := none
      lagMs := 0 }
  | _ =>
    let learning := isLearningEstimate estimate window.utilizationPct
    some
    { kind := window.windowKind
      pct := if learning then max 0 window.utilizationPct else window.utilizationPct
      windowStartMs := window.windowStartMs
      resetsAtMs := window.resetsAtMs
      durationMs
      deadUntilMs := none
      inactive := false
      learning
      contribution := if learning then none else some (estimate.slopePctPerHour.getD 0 * capacityUnits)
      lagMs := if observationLag = .advance then observationLagMs estimate window now else 0 }

inductive PreparedStatus where
  | pooled
  | demandOnly
  | unknownTier
  | unreadable
  | withheld
  | dropped
  deriving DecidableEq

structure PreparedAccount where
  accountId : String
  demandClass : String
  alivePresence : Bool
  unmetered : Bool
  tier : Option AccountTier
  capacityUnits : Option ℚ
  windows : List PreparedWindow
  bank : Option RunwayResetCreditBank
  status : PreparedStatus

abbrev Demand := InsertionMap String (InsertionMap String ℚ)

def Demand.of (demand : Demand) (demandClass kind : String) : Option ℚ := (get demand demandClass).bind (get · kind)

def Demand.add (demandClass : String) (demand : Demand) (window : PreparedWindow) : Demand :=
  match window.contribution with
  | none => demand
  | some contribution =>
    let perClass := (get demand demandClass).getD []
    set demand demandClass (set perClass window.kind ((get perClass window.kind).getD 0 + contribution))

inductive Thrown where
  | capacityUnits (units : ℚ) (accountId : String)
  | weightCount (weights candidates : Nat) (demandClass windowKind : String)
  | badWeight (weight : ℚ) (demandClass windowKind : String)
  | allZero (demandClass windowKind : String)

def Thrown.message (rendered : ℚ → String) : Thrown → String
  | .capacityUnits units accountId =>
    "capacityUnits must return null or a finite number > 0; got " ++ rendered units ++ " for account " ++ accountId
  | .weightCount weights candidates demandClass windowKind =>
    "shareRule returned " ++ rendered weights ++ " weights for " ++ rendered candidates ++ " candidates of class " ++ demandClass ++
      " on window kind " ++ windowKind
  | .badWeight given demandClass windowKind =>
    "shareRule returned a weight that is not a finite number >= 0 (" ++ rendered given ++ ") for class " ++ demandClass ++
      " on window kind " ++ windowKind
  | .allZero demandClass windowKind =>
    "shareRule returned all-zero weights for class " ++ demandClass ++ " on window kind " ++ windowKind ++
      ", which still has demand to place"

def prepareAccount (options : RunwayScenarioOptions) (now horizonEndMs : ℚ) (account : RunwayScenarioAccountInput) :
    Except Thrown PreparedAccount :=
  let alivePresence := account.presence = .alive
  let units := account.tier.bind options.capacityUnits
  if account.unmetered then .ok
    { accountId := account.accountId,demandClass := account.demandClass,alivePresence,unmetered := true,tier := none
      capacityUnits := none,windows := [],bank := none,status := if alivePresence then .pooled else .dropped }
  else match units with
    | none => .ok
      { accountId := account.accountId,demandClass := account.demandClass,alivePresence,unmetered := false,tier := account.tier
        capacityUnits := none,windows := [],bank := account.codexResetCredits,status := .unknownTier }
    | some units =>
      if units ≤ 0 then .error (.capacityUnits units account.accountId)
      else
        let windows := account.windows.filterMap fun window => prepareWindow window units now horizonEndMs options.observationLag
        .ok
          { accountId := account.accountId,demandClass := account.demandClass,alivePresence,unmetered := false,tier := account.tier
            capacityUnits := some units,windows,bank := account.codexResetCredits
            status := if windows.length = 0 then .unreadable else if alivePresence then .pooled else .demandOnly }

def classDemand (prepared : List PreparedAccount) : Demand :=
  prepared.foldl (fun demand account => account.windows.foldl (Demand.add account.demandClass) demand) []

def withhold (demand : Demand) (account : PreparedAccount) : PreparedAccount :=
  if account.status = .pooled ∧
      (account.windows.any fun window => window.learning && (demand.of account.demandClass window.kind).isNone) = true then
    { account with status := .withheld }
  else account

structure ScanWindow where
  kind : String
  pct : ℚ
  windowStartMs : Option ℚ
  resetsAtMs : Option ℚ
  durationMs : Option ℚ
  deadUntilMs : Option ℚ
  inactive : Bool
  slope : ℚ
  measuredUnitsPerHour : Option ℚ
  firstCycle : Bool
  lagMs : ℚ
  lagExhaustAtMs : Option ℚ

structure ScanCredit extends ResetCredit where
  place : Nat
  deriving DecidableEq

structure ScanAccount where
  accountId : String
  demandClass : String
  capacityUnits : Option ℚ
  unmetered : Bool
  windows : List ScanWindow
  credits : List ScanCredit
  onWeeklyLimitEnabled : Bool
  onExpiryEnabled : Bool
  consumed : Nat

def startWindow (window : PreparedWindow) : ScanWindow :=
  { kind := window.kind,pct := window.pct,windowStartMs := window.windowStartMs,resetsAtMs := window.resetsAtMs
    durationMs := window.durationMs,deadUntilMs := window.deadUntilMs,inactive := window.inactive,slope := 0
    measuredUnitsPerHour := window.contribution,firstCycle := true,lagMs := window.lagMs,lagExhaustAtMs := none }

def sortedCredits (bank : RunwayResetCreditBank) : List ScanCredit :=
  (bank.credits.insertionSort (expiresNoLater · ·)).zipIdx.map fun entry => ⟨entry.1,entry.2⟩

def startAccount (account : PreparedAccount) : ScanAccount :=
  { accountId := account.accountId,demandClass := account.demandClass,capacityUnits := account.capacityUnits
    unmetered := account.unmetered,windows := account.windows.map startWindow
    credits := (account.bank.map sortedCredits).getD []
    onWeeklyLimitEnabled := account.bank.any (·.onWeeklyLimitEnabled),onExpiryEnabled := account.bank.any (·.onExpiryEnabled)
    consumed := 0 }

def takeScanCreditAt (t : ℚ) (account : ScanAccount) : Option ScanAccount :=
  (account.credits.find? fun credit => credit.expiresAtMs.all (· > t)).map fun credit =>
    { account with credits := account.credits.erase credit }

def redeemWindows (now : ℚ) : (account : ScanAccount) → List ScanWindow → ScanAccount × List ScanWindow
  | account,[] => (account,[])
  | account,window::windows =>
    match (if window.kind = "seven_day" ∧ window.deadUntilMs.isSome ∧ ¬ window.pct < 100 then takeScanCreditAt now account else none) with
    | none => ((redeemWindows now account windows).1,window::(redeemWindows now account windows).2)
    | some account =>
      let rest := redeemWindows now { account with consumed := account.consumed+1 } windows
      (rest.1,{ window with pct := 0,deadUntilMs := none }::rest.2)

def redeemAtSetup (now : ℚ) (account : ScanAccount) : ScanAccount :=
  if !account.onWeeklyLimitEnabled then account
  else { (redeemWindows now account account.windows).1 with windows := (redeemWindows now account account.windows).2 }

def ScanAccount.isAlive (account : ScanAccount) : Bool := account.unmetered || account.windows.all (·.deadUntilMs = none)

structure RunwayScenarioExhaustion where
  accountId : String
  windowKind : String
  exhaustsAtMs : ℚ

structure BaselineCapture where
  shares : InsertionMap String (InsertionMap String ℚ) := []
  exhaustions : InsertionMap String RunwayScenarioExhaustion := []
  firstExhaustionAfterNow : InsertionMap String ℚ := []

structure HitSnapshot where
  t : ℚ
  causes : List RunwayCause
  assumedCredits : List RunwayAssumedCredits

def ShareCandidate.of (account : ScanAccount) : ShareCandidate :=
  ⟨account.accountId,account.demandClass,account.capacityUnits,
    account.windows.map fun window => ⟨window.kind,window.pct,window.measuredUnitsPerHour⟩⟩

def kindShares (rule : ShareRule) (demandClass : String) (view : List ShareCandidate) (windowKind : String) (kindUnits : ℚ) :
    Except Thrown (List ((String × String) × ℚ)) :=
  let weights := rule view windowKind
  if weights.length ≠ view.length then .error (.weightCount weights.length view.length demandClass windowKind)
  else match weights.find? (· < 0) with
    | some weight => .error (.badWeight weight demandClass windowKind)
    | none =>
      if weights.sum = 0 ∧ kindUnits > 0 then .error (.allZero demandClass windowKind)
      else .ok ((view.zip weights).map fun entry =>
        ((entry.1.accountId,windowKind),if weights.sum > 0 then entry.2 / weights.sum else 0))

def classShares (rule : ShareRule) (demandClass : String) (view : List ShareCandidate) (perKind : InsertionMap String ℚ) :
    Except Thrown (List ((String × String) × ℚ)) :=
  (perKind.mapM fun entry => kindShares rule demandClass view entry.1 entry.2).map List.flatten

def BaselineCapture.share (atNow : Bool) (capture : BaselineCapture) (entry : (String × String) × ℚ) : BaselineCapture :=
  let captured := (get capture.shares entry.1.1).getD []
  if atNow || (get captured entry.1.2).isNone then
    { capture with shares := set capture.shares entry.1.1 (set captured entry.1.2 entry.2) }
  else capture

def pinCycle (t : ℚ) (window : ScanWindow) : ScanWindow :=
  if window.inactive && decide (window.slope > 0) then
    { window with inactive := false,windowStartMs := some t,resetsAtMs := window.durationMs.map (t + ·) }
  else window

def advanceLag (now pace : ℚ) (window : ScanWindow) : ScanWindow :=
  if window.lagMs > 0 then
    let lagSlope := window.slope / pace
    let advancePct := if lagSlope > 0 then lagSlope * window.lagMs / HOUR_MS else 0
    if advancePct > 0 ∧ window.pct + advancePct ≥ 100 then
      { window with lagExhaustAtMs := some (now - window.lagMs + (100 - window.pct) / lagSlope * HOUR_MS),lagMs := 0 }
    else { window with pct := window.pct + advancePct,lagMs := 0 }
  else window

def assignedSlope (pace share : ℚ) : (units capacityUnits : Option ℚ) → ℚ
  | some units,some capacityUnits => units * pace * share / capacityUnits
  | _,_ => 0

def assignWindow (now pace t : ℚ) (units : Option ℚ) (share : ℚ) (capacityUnits : Option ℚ) (window : ScanWindow) : ScanWindow :=
  let pinned := pinCycle t { window with slope := assignedSlope pace share units capacityUnits }
  if t = now then advanceLag now pace pinned else pinned

def assignAccount (now pace t : ℚ) (perKind : InsertionMap String ℚ) (shares : InsertionMap (String × String) ℚ) (account : ScanAccount) :
    ScanAccount :=
  { account with windows := account.windows.map fun window =>
      assignWindow now pace t (get perKind window.kind) ((get shares (account.accountId,window.kind)).getD 0) account.capacityUnits window }

structure Walk where
  state : List ScanAccount
  t : ℚ
  firstHit : Option HitSnapshot := none
  capture : Option BaselineCapture

def restDead (account : ScanAccount) : ScanAccount :=
  if account.isAlive then account else { account with windows := account.windows.map fun window => { window with slope := 0 } }

def assignClass (rule : ShareRule) (demand : Demand) (now pace : ℚ) (w : Walk) (demandClass : String) : Except Thrown Walk :=
  let candidates := w.state.filter fun account => account.isAlive && account.demandClass = demandClass
  if candidates.length = 0 then .ok w
  else
    let perKind := (get demand demandClass).getD []
    (classShares rule demandClass (candidates.map ShareCandidate.of) perKind).map fun shares =>
      { w with
        state := w.state.map fun account =>
          if account.isAlive && account.demandClass = demandClass then assignAccount now pace w.t perKind (written shares) account
          else account
        capture := w.capture.map fun capture => shares.foldl (BaselineCapture.share (w.t = now)) capture }

def assign (rule : ShareRule) (demand : Demand) (classes : List String) (now pace : ℚ) (w : Walk) : Except Thrown Walk :=
  classes.foldlM (assignClass rule demand now pace) { w with state := w.state.map restDead }

inductive ScanEventKind where
  | reset
  | expiry
  | exhaust
  deriving DecidableEq

structure ScanEvent where
  kind : ScanEventKind
  atMs : ℚ
  account : Nat
  window : Nat
  credit : Option ScanCredit := none
  lagOrigin : Bool := false
  exhaustsAtMs : Option ℚ := none

def ScanEvent.admitted (t horizonEndMs : ℚ) (event : ScanEvent) : Bool :=
  (if event.lagOrigin then event.atMs ≥ t else event.atMs > t) && decide (event.atMs < horizonEndMs)

def exhaustEvents (t : ℚ) (accountAlive : Bool) (account place : Nat) (window : ScanWindow) : List ScanEvent :=
  if !accountAlive then []
  else match window.lagExhaustAtMs with
    | some exhaustsAtMs =>
      [{ kind := .exhaust,atMs := t,account,window := place,lagOrigin := true,exhaustsAtMs := some exhaustsAtMs }]
    | none =>
      if window.slope > 0 ∧ window.pct < 100 then
        [{ kind := .exhaust,atMs := t + (100 - window.pct) / window.slope * HOUR_MS,account,window := place }]
      else []

def resetEvents (account place : Nat) (window : ScanWindow) : List ScanEvent :=
  match window.resetsAtMs with
  | some resetsAtMs => if window.inactive then [] else [{ kind := .reset,atMs := resetsAtMs,account,window := place }]
  | none => []

def expiryEvents (t : ℚ) (owner : ScanAccount) (account place : Nat) (window : ScanWindow) : List ScanEvent :=
  match window.deadUntilMs with
  | some deadUntilMs =>
    if owner.onExpiryEnabled ∧ window.kind = "seven_day" then
      match owner.credits.find? fun credit => credit.expiresAtMs.any fun expiresAtMs => expiresAtMs > t ∧ expiresAtMs < deadUntilMs with
      | some credit => [{ kind := .expiry,atMs := credit.expiresAtMs.getD 0,account,window := place,credit := some credit }]
      | none => []
    else []
  | none => []

def windowEvents (t : ℚ) (owner : ScanAccount) (account place : Nat) (window : ScanWindow) : List ScanEvent :=
  exhaustEvents t owner.isAlive account place window ++ resetEvents account place window ++ expiryEvents t owner account place window

def candidateEvents (t horizonEndMs : ℚ) (state : List ScanAccount) : List ScanEvent :=
  (state.zipIdx.flatMap fun owner => owner.1.windows.zipIdx.flatMap fun window =>
    windowEvents t owner.1 owner.2 window.2 window.1).filter (·.admitted t horizonEndMs)

def settleLags (account : ScanAccount) : ScanAccount :=
  if account.isAlive then { account with windows := account.windows.map fun window => { window with lagExhaustAtMs := none } } else account

def burn (elapsedMs : ℚ) (window : ScanWindow) : ScanWindow :=
  if window.slope ≤ 0 then window else { window with pct := min 100 (window.pct + window.slope * elapsedMs / HOUR_MS) }

abbrev Place := Nat × Nat

def ScanEvent.place (event : ScanEvent) : Place := (event.account,event.window)

def modifyWindow (state : List ScanAccount) (place : Place) (change : ScanWindow → ScanWindow) : List ScanAccount :=
  state.modify place.1 fun account => { account with windows := account.windows.modify place.2 change }

def resetWindow (atMs : ℚ) (window : ScanWindow) : ScanWindow :=
  { window with
    pct := 0
    deadUntilMs := none
    firstCycle := false
    windowStartMs := if window.durationMs = none then window.windowStartMs else some atMs
    resetsAtMs := window.durationMs.map (atMs + ·) }

def applyReset (state : List ScanAccount) (event : ScanEvent) : List ScanAccount :=
  modifyWindow state event.place (resetWindow event.atMs)

def reviveWindow (window : ScanWindow) : ScanWindow := { window with pct := 0,deadUntilMs := none,firstCycle := false }

def applyExpiry (w : List ScanAccount × List Place) (event : ScanEvent) : List ScanAccount × List Place :=
  match event.credit,w.1[event.account]? with
  | some credit,some account =>
    if credit ∈ account.credits then
      (modifyWindow (w.1.modify event.account fun account =>
          { account with credits := account.credits.erase credit,consumed := account.consumed+1 }) event.place reviveWindow,
        event.place::w.2)
    else w
  | _,_ => w

def BaselineCapture.record (now : ℚ) (account : ScanAccount) (window : ScanWindow) (event : ScanEvent) (capture : BaselineCapture) :
    BaselineCapture :=
  let capture :=
    if event.atMs > now ∧ (get capture.firstExhaustionAfterNow account.demandClass).all (event.atMs < ·) then
      { capture with firstExhaustionAfterNow := set capture.firstExhaustionAfterNow account.demandClass event.atMs }
    else capture
  let key := account.accountId ++ "::" ++ window.kind
  if window.firstCycle && (get capture.exhaustions key).isNone then
    let exhaustion := ⟨account.accountId,window.kind,event.exhaustsAtMs.getD event.atMs⟩
    { capture with exhaustions := set capture.exhaustions key exhaustion }
  else capture

def deadWindow (horizonEndMs : ℚ) (window : ScanWindow) : ScanWindow :=
  { window with pct := 100,deadUntilMs := some (window.resetsAtMs.getD horizonEndMs) }

def exhaustAccount (horizonEndMs next : ℚ) (place : Nat) (window : ScanWindow) (account : ScanAccount) : ScanAccount :=
  let dead := { account with windows := account.windows.modify place (deadWindow horizonEndMs) }
  if window.kind = "seven_day" ∧ account.onWeeklyLimitEnabled then
    match takeScanCreditAt next dead with
    | some paid => { paid with windows := paid.windows.modify place reviveWindow,consumed := paid.consumed+1 }
    | none => dead
  else dead

def applyExhaust (now horizonEndMs next : ℚ) (touched : List Place) (w : List ScanAccount × Option BaselineCapture) (event : ScanEvent) :
    List ScanAccount × Option BaselineCapture :=
  if event.place ∈ touched then w
  else match w.1[event.account]? with
    | none => w
    | some account => match account.windows[event.window]? with
      | none => w
      | some window =>
        (w.1.modify event.account (exhaustAccount horizonEndMs next event.window window),
          w.2.map (BaselineCapture.record now account window event))

def applyBatch (now horizonEndMs next : ℚ) (batch : List ScanEvent) (state : List ScanAccount) (capture : Option BaselineCapture) :
    List ScanAccount × Option BaselineCapture :=
  let resets := batch.filter (·.kind = .reset)
  let revived := (batch.filter (·.kind = .expiry)).foldl applyExpiry (resets.foldl applyReset state,resets.map (·.place))
  (batch.filter (·.kind = .exhaust)).foldl (applyExhaust now horizonEndMs next revived.2) (revived.1,capture)

def burned (elapsedMs : ℚ) (window : ScanWindow) : ScanWindow := burn elapsedMs { window with lagExhaustAtMs := none }

def emptiedPlaces (batch : List ScanEvent) : List Place := (batch.filter (·.kind = .reset)).map (·.place)

def filledPlaces (batch : List ScanEvent) : List Place :=
  ((batch.filter (·.kind = .exhaust)).filter (·.place ∉ emptiedPlaces batch)).map (·.place)

def turned (next elapsedMs horizonEndMs : ℚ) (batch : List ScanEvent) (place : Place) (window : ScanWindow) : ScanWindow :=
  let reset := if place ∈ emptiedPlaces batch then resetWindow next (burned elapsedMs window) else burned elapsedMs window
  if place ∈ filledPlaces batch then deadWindow horizonEndMs reset else reset

inductive ScanResult where
  | hit (t : ℚ) (causes : List RunwayCause) (projectionBudgetExhausted : Bool)
  | clear
  | budget
  deriving DecidableEq

def consumedSoFar (state : List ScanAccount) : List RunwayAssumedCredits :=
  (state.filter (·.consumed > 0)).map fun account => ⟨account.accountId,account.consumed⟩

def deadWindows (state : List ScanAccount) : List RunwayCause :=
  state.flatMap fun account => (account.windows.filter (·.deadUntilMs ≠ none)).map fun window => ⟨account.accountId,window.kind⟩

structure Scanned where
  result : ScanResult
  capture : BaselineCapture
  assumedCredits : List RunwayAssumedCredits

def finish (result : ScanResult) (w : Walk) (assumedCredits : List RunwayAssumedCredits) : Scanned :=
  let capture := w.capture.getD {}
  ⟨result,if result = .budget then { capture with exhaustions := [],firstExhaustionAfterNow := [] } else capture,assumedCredits⟩

def stopped (w : Walk) (otherwise : ScanResult) (projectionBudgetExhausted : Bool) : Scanned :=
  match w.firstHit with
  | none => finish otherwise w (consumedSoFar w.state)
  | some hit => finish (.hit hit.t hit.causes projectionBudgetExhausted) w hit.assumedCredits

def notice (w : Walk) : Walk :=
  if w.state.all (fun account => !account.isAlive) ∧ w.firstHit = none then
    { w with firstHit := some ⟨w.t,deadWindows w.state,consumedSoFar w.state⟩ }
  else w

inductive Turn where
  | done (scanned : Scanned)
  | next (w : Walk)

def advanceWalk (now horizonEndMs : ℚ) (w : Walk) : Turn :=
  let events := candidateEvents w.t horizonEndMs w.state
  let settled := w.state.map settleLags
  match (events.map (·.atMs)).min? with
  | none => .done (stopped { w with state := settled } .clear false)
  | some next =>
    let batch := events.filter (·.atMs ≤ next + EVENT_TIE_TOLERANCE_MS)
    let batchEnd := ((batch.map (·.atMs)).max?).getD next
    let burned := settled.map fun account => { account with windows := account.windows.map (burn (batchEnd - w.t)) }
    let applied := applyBatch now horizonEndMs next batch burned w.capture
    .next { w with state := applied.1,t := batchEnd,capture := applied.2 }

section
variable (rule : ShareRule) (demand : Demand) (classes : List String) (now horizonEndMs pace : ℚ)

def turn (w : Walk) : Except Thrown Turn :=
  let noticed := notice w
  -- a probe only needs the instant, so it stops at the pool-out
  match noticed.firstHit,noticed.capture with
  | some hit,none => .ok (.done (finish (.hit hit.t hit.causes false) noticed (consumedSoFar noticed.state)))
  | _,_ => (assign rule demand classes now pace noticed).map (advanceWalk now horizonEndMs)

/-- The turns of a scan that may apply `left` more batches after this one. -/
@[grind] def walkFrom : (left : Nat) → Walk → Except Thrown Scanned
  | left,w => (turn rule demand classes now horizonEndMs pace w).bind fun
    | .done scanned => .ok scanned
    | .next w => match left with
      | 0 => .ok (stopped w .budget true)
      | left+1 => walkFrom left w

end

def runScan (options : RunwayScenarioOptions) (pooled : List PreparedAccount) (demand : Demand) (now horizonEndMs pace : ℚ)
    (capture : Option BaselineCapture) : Except Thrown Scanned :=
  let classes := (pooled.map (·.demandClass)).reverse.dedup.reverse
  walkFrom options.shareRule demand classes now horizonEndMs pace options.maxEvents
    { state := pooled.map fun account => redeemAtSetup now (startAccount account),t := now,capture }

structure RunwayScenarioDemand where
  demandClass : String
  windowKind : String
  unitsPerHour : ℚ

structure RunwayScenarioTier where
  accountId : String
  provider : String
  planTier : Option String
  rateLimitTier : Option String
  capacityUnits : ℚ
  provenance : RunwayTierProvenance

structure RunwayScenarioShare where
  accountId : String
  shareOfClassByKind : InsertionMap String ℚ

structure ClassExhaustion where
  demandClass : String
  atMs : ℚ

inductive BudgetExhausted where
  | baseline
  | probe
  | projection
  deriving DecidableEq

structure RunwayScenarioBasis where
  demandUnitsPerHour : List RunwayScenarioDemand := []
  tiers : List RunwayScenarioTier := []
  includedLearningAccounts : List RunwayScenarioShare := []
  unknownTierAccountIds : List String := []
  demandOnlyAccountIds : List String := []
  projectedExhaustions : List RunwayScenarioExhaustion := []
  firstExhaustionAfterNowByClass : List ClassExhaustion := []
  eventBudgetExhausted : Option BudgetExhausted := none

structure RunwayScenarioOutcome extends RunwayScenarioBasis where
  outcome : RunwayOutcome

inductive Aborted where
  | thrown (thrown : Thrown)
  | budget

def verdict (scanned : Except Thrown Scanned) : Except Aborted ScanResult :=
  match scanned with
  | .error thrown => .error (.thrown thrown)
  | .ok ⟨.budget,_,_⟩ => .error .budget
  | .ok ⟨result,_,_⟩ => .ok result

def probed {α : Type} (probe : Except Aborted (Option α)) : Except Thrown (Option α × Bool) :=
  match probe with
  | .ok answer => .ok (answer,false)
  | .error .budget => .ok (none,true)
  | .error (.thrown thrown) => .error thrown

def ScanResult.instant : ScanResult → Option ℚ
  | .hit t _ _ => some t
  | _ => none

section
variable (localeCompare : String → String → Ordering)

def projectedBefore (a b : RunwayScenarioExhaustion) : Bool :=
  a.exhaustsAtMs < b.exhaustsAtMs || a.exhaustsAtMs = b.exhaustsAtMs &&
    ((localeCompare a.accountId b.accountId).then (localeCompare a.windowKind b.windowKind)).isLE

def demandUnitsPerHour (demand : Demand) : List RunwayScenarioDemand :=
  (demand.flatMap fun perClass => perClass.2.map fun entry => ⟨perClass.1,entry.1,entry.2⟩).insertionSort fun a b =>
    ((localeCompare a.demandClass b.demandClass).then (localeCompare a.windowKind b.windowKind)).isLE

def tiersOf (prepared : List PreparedAccount) : List RunwayScenarioTier :=
  prepared.filterMap fun account => match account.tier,account.capacityUnits with
    | some tier,some capacityUnits =>
      some ⟨account.accountId,tier.provider,tier.planTier,tier.rateLimitTier,capacityUnits,tier.provenance⟩
    | _,_ => none

def idsWith (statuses : List PreparedStatus) (prepared : List PreparedAccount) : List String :=
  (prepared.filter (statuses.contains ·.status)).map (·.accountId)

def basisOf (prepared : List PreparedAccount) (demand : Demand) (capture : BaselineCapture)
    (includedLearningAccounts : List RunwayScenarioShare) (eventBudgetExhausted : Option BudgetExhausted) : RunwayScenarioBasis :=
  { demandUnitsPerHour := demandUnitsPerHour localeCompare demand
    tiers := tiersOf prepared
    includedLearningAccounts
    unknownTierAccountIds := idsWith [.unknownTier] prepared
    demandOnlyAccountIds :=
      (prepared.filter fun account => account.status = .demandOnly && account.windows.any (·.contribution.isSome)).map (·.accountId)
    projectedExhaustions := (capture.exhaustions.map Prod.snd).insertionSort (projectedBefore localeCompare · ·)
    firstExhaustionAfterNowByClass := (capture.firstExhaustionAfterNow.map fun entry => ⟨entry.1,entry.2⟩).insertionSort fun a b =>
      (localeCompare a.demandClass b.demandClass).isLE
    eventBudgetExhausted }

def includedLearning (pooled : List PreparedAccount) (capture : BaselineCapture) : List RunwayScenarioShare :=
  (pooled.filter fun account => account.windows.any (·.learning)).map fun account =>
    ⟨account.accountId,(get capture.shares account.accountId).getD []⟩

@[grind] def concluded (options : RunwayScenarioOptions) (prepared : List PreparedAccount) (demand : Demand) (now horizonMs : ℚ)
    (baseline : Scanned) : Except Thrown RunwayScenarioOutcome :=
  let pooled := prepared.filter (·.status = .pooled)
  let scan := fun pace => verdict (runScan options pooled demand now (now + horizonMs) pace none)
  let unprojectable := (prepared.filter fun account =>
    account.alivePresence && [.unknownTier,.unreadable,.withheld].contains account.status).map (·.accountId)
  let learning := idsWith [.withheld] prepared
  let basis := basisOf localeCompare prepared demand baseline.capture (includedLearning pooled baseline.capture)
  let probeable := options.probePaceMargin && !pooled.any (·.unmetered)
  match baseline.result with
  | .budget => .ok { basis (some .baseline) with outcome := .unknown learning }
  | .hit t causes truncated =>
    if t = now then .ok { basis (if truncated then some .projection else none) with
      outcome := .outNow causes unprojectable learning baseline.assumedCredits }
    else
      (if probeable then probed (probeDeficitOver fun pace => (scan pace).map (·.instant.isSome)) else .ok (none,false)).map fun deficit =>
        { basis (if truncated then some .projection else if deficit.2 then some .probe else none) with
          outcome := .runway t (t - now) causes unprojectable learning baseline.assumedCredits deficit.1 }
  | .clear =>
    (if probeable then probed (probeMarginOver fun pace => (scan pace).map (·.instant)) else .ok (none,false)).map fun margin =>
      { basis (if margin.2 then some .probe else none) with
        outcome := .beyondHorizon horizonMs unprojectable learning baseline.assumedCredits margin.1 }

def computeCapacityRunwayScenario (accounts : List RunwayScenarioAccountInput) (now horizonMs : ℚ) (options : RunwayScenarioOptions) :
    Except Thrown RunwayScenarioOutcome :=
  if accounts.length = 0 then .ok { outcome := .noAccounts }
  else (accounts.mapM (prepareAccount options now (now + horizonMs))).bind fun accounts =>
    let demand := classDemand accounts
    let prepared := accounts.map (withhold demand)
    let pooled := prepared.filter (·.status = .pooled)
    if pooled.length = 0 then
      .ok { basisOf localeCompare prepared demand {} [] none with outcome := .unknown (idsWith [.withheld] prepared) }
    else (runScan options pooled demand now (now + horizonMs) 1 (some {})).bind
      (concluded localeCompare options prepared demand now horizonMs)

end
end Clankermux.RunwayScenario
