import Clankermux.RunwayStart

/-! Until an account dies the two runways agree: the earliest death the scenario hears of is where the
earliest dead interval begins, and for a single account so are the verdicts. -/
namespace Clankermux.RunwayScenario
open CapacityRunway

variable {demand : Demand} {classes : List String} {now horizonEndMs horizonMs pace : ℚ} {options : RunwayScenarioOptions}

theorem walkEnds (left : Nat) (w : Walk) :
    ∃ scanned, walkFrom proportionalShareRule demand classes now horizonEndMs pace left w = .ok scanned := by
  have turns : ∀ w, ∃ result, turn proportionalShareRule demand classes now horizonEndMs pace w = .ok result := by
    intro w
    obtain ⟨after,assigned,-⟩ := assignsAlways demand classes now pace (notice w)
    simp only [turn,assigned]
    split <;> exact ⟨_,rfl⟩
  induction left generalizing w with
  | zero =>
    obtain ⟨result,done⟩ := turns w
    rw [walkFrom,done]
    cases result <;> exact ⟨_,rfl⟩
  | succ left ih =>
    obtain ⟨result,done⟩ := turns w
    rw [walkFrom,done]
    cases result with
    | done scanned => exact ⟨scanned,rfl⟩
    | next w => exact ih w

def Unthrown {α : Type} (probe : Except Aborted α) : Prop := ∀ thrown, probe ≠ .error (.thrown thrown)

theorem verdictUnthrown {scanned : Scanned} : Unthrown (verdict (.ok scanned)) := by
  intro thrown
  obtain ⟨result,capture,credits⟩ := scanned
  cases result <;> exact nofun

theorem marginUnthrown {scan : ℚ → Except Aborted (Option ℚ)} (unthrown : ∀ pace, Unthrown (scan pace)) (left step : Nat) :
    Unthrown (marginWalk scan left step) := by
  induction left generalizing step with
  | zero => exact fun _ => nofun
  | succ left ih =>
    intro thrown
    rw [marginWalk]
    cases found : scan (1 + step * PACE_MARGIN_PRECISION) with
    | error aborted =>
      rintro ⟨⟩
      exact unthrown _ thrown found
    | ok hit =>
      cases hit with
      | some hit => exact nofun
      | none => exact ih (step+1) thrown

theorem deficitUnthrown {runsOut : ℚ → Except Aborted Bool} (unthrown : ∀ pace, Unthrown (runsOut pace)) (step : Nat) (safest : Option ℚ) :
    Unthrown (deficitWalk runsOut safest step) := by
  induction step generalizing safest with
  | zero => exact fun _ => nofun
  | succ step ih =>
    intro thrown
    rw [deficitWalk]
    cases found : runsOut (1 - (step+1 : Nat) * PACE_MARGIN_PRECISION) with
    | error aborted =>
      rintro ⟨⟩
      exact unthrown _ thrown found
    | ok out =>
      cases out with
      | true => exact nofun
      | false => exact ih _ thrown

theorem Unthrown.map {α β : Type} {probe : Except Aborted α} (unthrown : Unthrown probe) (f : α → β) : Unthrown (probe.map f) := by
  intro thrown
  cases probe with
  | error aborted =>
    rintro ⟨⟩
    exact unthrown thrown rfl
  | ok value => exact nofun

theorem probedAnswers {α : Type} {probe : Except Aborted (Option α)} (unthrown : Unthrown probe) : ∃ answer, probed probe = .ok answer := by
  cases probe with
  | ok answer => exact ⟨_,rfl⟩
  | error aborted =>
    cases aborted with
    | budget => exact ⟨_,rfl⟩
    | thrown thrown => exact absurd rfl (unthrown thrown)

theorem scanUnthrown (rule : options.shareRule = proportionalShareRule) (pooled : List PreparedAccount) (capture : Option BaselineCapture) :
    Unthrown (verdict (runScan options pooled demand now horizonEndMs pace capture)) := by
  rw [runScan,rule]
  obtain ⟨scanned,done⟩ := @walkEnds demand (pooled.map (·.demandClass)).reverse.dedup.reverse now horizonEndMs pace options.maxEvents
    { state := pooled.map fun account => redeemAtSetup now (startAccount account),t := now,capture }
  rw [done]
  exact verdictUnthrown

inductive OutcomeKind where
  | noAccounts
  | unknown
  | outNow
  | runway
  | beyondHorizon
  deriving DecidableEq

structure RunOut where
  kind : OutcomeKind
  exhaustsAtMs : Option ℚ := none
  causes : List RunwayCause := []

@[grind] def runOut : RunwayOutcome → RunOut
  | .noAccounts => { kind := .noAccounts }
  | .unknown _ => { kind := .unknown }
  | .outNow causes _ _ _ => { kind := .outNow,causes }
  | .runway exhaustsAtMs _ causes _ _ _ _ => { kind := .runway,exhaustsAtMs := some exhaustsAtMs,causes }
  | .beyondHorizon _ _ _ _ _ => { kind := .beyondHorizon }

@[grind] def runOutAt (now : ℚ) : Option AllOutHit → RunOut
  | none => { kind := .beyondHorizon }
  | some hit =>
    if hit.t = now then { kind := .outNow,causes := hit.causes }
    else { kind := .runway,exhaustsAtMs := some hit.t,causes := hit.causes }

/-- The earliest death that the scenario reports; one that falls into the lag counts at `now`. -/
def firstDeath (now : ℚ) (basis : RunwayScenarioBasis) : Option ℚ :=
  (basis.projectedExhaustions.map (heardAt now) ++ basis.firstExhaustionAfterNowByClass.map (·.atMs)).min?

theorem basisDeaths (localeCompare : String → String → Ordering) (prepared : List PreparedAccount) (demand : Demand) (capture : BaselineCapture)
    (shares : List RunwayScenarioShare) (budget : Option BudgetExhausted) :
    firstDeath now (basisOf localeCompare prepared demand capture shares budget) = (deaths now capture).min? := by
  refine minimumMembers (fun x => ?_)
  simp only [basisOf,deaths,List.mem_append,List.mem_map,List.mem_insertionSort]
  constructor
  · rintro (⟨_,⟨entry,inside,rfl⟩,rfl⟩ | ⟨_,⟨entry,inside,rfl⟩,rfl⟩)
    · exact .inl ⟨entry,inside,rfl⟩
    · exact .inr ⟨entry,inside,rfl⟩
  · rintro (⟨entry,inside,rfl⟩ | ⟨entry,inside,rfl⟩)
    · exact .inl ⟨_,⟨entry,inside,rfl⟩,rfl⟩
    · exact .inr ⟨_,⟨entry,inside,rfl⟩,rfl⟩

theorem concludes (localeCompare : String → String → Ordering) (rule : options.shareRule = proportionalShareRule)
    (prepared : List PreparedAccount) (demand : Demand) (baseline : Scanned) :
    ∃ outcome, concluded localeCompare options prepared demand now horizonMs baseline = .ok outcome ∧
      firstDeath now outcome.toRunwayScenarioBasis = (deaths now baseline.capture).min? ∧
      (baseline.result = .budget → outcome.eventBudgetExhausted = some .baseline) ∧
      (baseline.result = .clear → runOut outcome.outcome = runOutAt now none) ∧
      ∀ t causes truncated, baseline.result = .hit t causes truncated → runOut outcome.outcome = runOutAt now (some ⟨t,causes⟩) := by
  have scans : ∀ pace, Unthrown (verdict (runScan options (prepared.filter (·.status = .pooled)) demand now (now + horizonMs) pace none)) :=
    fun pace => scanUnthrown rule _ _
  obtain ⟨result,capture,credits⟩ := baseline
  rw [concluded]
  cases result with
  | budget => exact ⟨_,rfl,basisDeaths _ _ _ _ _ _,fun _ => rfl,nofun,nofun⟩
  | hit t causes truncated =>
    by_cases here : t = now
    · simp only [here]
      refine ⟨_,rfl,basisDeaths _ _ _ _ _ _,nofun,nofun,?_⟩
      rintro _ _ _ ⟨⟩
      simp [runOut,runOutAt]
    · obtain ⟨deficit,answered⟩ : ∃ deficit, (if (options.probePaceMargin && !(prepared.filter (·.status = .pooled)).any (·.unmetered)) = true then
          probed (probeDeficitOver fun pace => (verdict (runScan options (prepared.filter (·.status = .pooled)) demand now (now + horizonMs)
            pace none)).map (·.instant.isSome)) else .ok (none,false)) = .ok deficit := by
        split
        · exact probedAnswers (deficitUnthrown (fun pace => (scans pace).map _) _ _)
        · exact ⟨_,rfl⟩
      simp only [if_neg here,answered]
      refine ⟨_,rfl,basisDeaths _ _ _ _ _ _,nofun,nofun,?_⟩
      rintro _ _ _ ⟨⟩
      simp [runOut,runOutAt,here]
  | clear =>
    obtain ⟨margin,answered⟩ : ∃ margin, (if (options.probePaceMargin && !(prepared.filter (·.status = .pooled)).any (·.unmetered)) = true then
        probed (probeMarginOver fun pace => (verdict (runScan options (prepared.filter (·.status = .pooled)) demand now (now + horizonMs)
          pace none)).map (·.instant)) else .ok (none,false)) = .ok margin := by
      split
      · exact probedAnswers (marginUnthrown (fun pace => (scans pace).map _) _ _)
      · exact ⟨_,rfl⟩
    simp only [answered]
    exact ⟨_,rfl,basisDeaths _ _ _ _ _ _,nofun,fun _ => rfl,nofun⟩

variable {account : RunwayScenarioAccountInput} {accounts : List RunwayScenarioAccountInput}

theorem causesAlone (readable : (readableWindows now account.toRunwayAccountInput).isEmpty = false) (T : ℚ) :
    causesOf (startWalk options now [account]).state (startPool now [account]) T = fullWindows now T account.toRunwayAccountInput := by
  have only : readableAccounts now [account] = [account] := by simp [readableAccounts,readable]
  have windows : (started options now account).windows.zipIdx =
      (readableWindows now account.toRunwayAccountInput).zipIdx.map
        (Prod.map (fun window => startWindow (preparedPlain now (unitsOf options account) window)) id) := by
    rw [startedWindows,List.zipIdx_map]
  have same : (readableWindows now account.toRunwayAccountInput).zipIdx.filter
      (fun entry => decide ((startPool now [account] (0,entry.2)).firstFullAt = some T)) =
      (readableWindows now account.toRunwayAccountInput).zipIdx.filter fun entry => decide ((burnOf now entry.1).firstFullAt = some T) := by
    refine List.filter_congr (fun entry inside => ?_)
    have found := List.mk_mem_zipIdx_iff_getElem?.mp inside
    simp [startPool,only,found]
  have whole := filterZipIdx (fun window => decide ((burnOf now window).firstFullAt = some T))
    (fun window : RunwayWindowInput => (⟨account.accountId,window.windowKind⟩ : RunwayCause)) (readableWindows now account.toRunwayAccountInput)
  rw [fullWindows,← whole,← same,causesOf,picked,startWalk,only]
  simp only [List.map_cons,List.map_nil,List.zipIdx_cons,List.zipIdx_nil,List.flatMap_cons,List.flatMap_nil,List.append_nil,windows,
    List.filter_map,List.map_map]
  rfl

theorem classesCover (pooled : List PreparedAccount) : ((pooled.map (·.demandClass)).reverse.dedup.reverse).Nodup ∧
    ∀ account ∈ pooled, account.demandClass ∈ (pooled.map (·.demandClass)).reverse.dedup.reverse := by
  refine ⟨List.nodup_reverse.mpr (List.nodup_dedup _),fun account inside => ?_⟩
  simp only [List.mem_reverse,List.mem_dedup]
  exact List.mem_map_of_mem inside

theorem scanTells (steady : ∀ account ∈ accounts, Steady options now account) (ids : (accounts.map (·.accountId)).Nodup)
    (rule : options.shareRule = proportionalShareRule)
    (apart : Burn.Apart (poolBurns now (accounts.map (·.toRunwayAccountInput))) EVENT_TIE_TOLERANCE_MS horizonEndMs)
    (readable : readableAccounts now accounts ≠ []) :
    ∃ scanned, runScan options ((readableAccounts now accounts).map (preparedSteady options now)) (steadyDemand options now accounts) now
        horizonEndMs 1 (some {}) = .ok scanned ∧
      (scanned.result ≠ .budget → Tells now scanned
        (firstFulls horizonEndMs (poolBurns now (accounts.map (·.toRunwayAccountInput)))).min?
        (causesOf (startWalk options now accounts).state (startPool now accounts)) ((startWalk options now accounts).state.length = 1)) := by
  obtain ⟨once,covers⟩ := classesCover ((readableAccounts now accounts).map (preparedSteady options now))
  have running := startRunning steady ids apart readable (fun account inside => covers _ (List.mem_map_of_mem inside))
  obtain ⟨scanned,walked,tells⟩ := running.walk once options.maxEvents
  refine ⟨scanned,?_,?_⟩
  · rw [runScan,rule,← walked,startWalk]
    simp only [List.map_map]
    rfl
  · have same : (firstFulls horizonEndMs (burnsOf (startWalk options now accounts).state (startPool now accounts))).min? =
        (firstFulls horizonEndMs (poolBurns now (accounts.map (·.toRunwayAccountInput)))).min? := by
      refine minimumMembers (fun x => ?_)
      simp only [memFirstFulls,startBurns]
    rw [← same]
    exact tells

theorem steadyPlain (steady : ∀ account ∈ accounts, Steady options now account) :
    ∀ account ∈ accounts.map (·.toRunwayAccountInput), Plain now account := by
  intro account inside
  obtain ⟨source,member,rfl⟩ := List.mem_map.mp inside
  exact (steady source member).plain

theorem unreadableDeaths (steady : ∀ account ∈ accounts, Steady options now account) (none_ : readableAccounts now accounts = []) :
    (deadStarts (accounts.map (·.toRunwayAccountInput)) now horizonEndMs).min? = none := by
  have pooled : pooledOf now horizonEndMs (accounts.map (·.toRunwayAccountInput)) = [] := by
    rw [pooledOf,List.filter_map,List.map_map]
    exact (congrArg (List.map _) none_)
  rw [deadStarts,(buildPlain (steadyPlain steady)).1,pooled]
  rfl

theorem currentVerdict (steady : Steady options now account) (currently : RunwayOptions) :
    runOut (computeCapacityRunway [account.toRunwayAccountInput] now horizonMs currently) =
      if (readableWindows now account.toRunwayAccountInput).isEmpty then { kind := .unknown }
      else runOutAt now ((firstFulls (now + horizonMs) (accountBurns now account.toRunwayAccountInput)).min?.map fun t =>
        ⟨t,fullWindows now t account.toRunwayAccountInput⟩) := by
  have plain : ∀ other ∈ [account.toRunwayAccountInput], Plain now other := by
    intro other inside
    exact List.mem_singleton.mp inside ▸ steady.plain
  have pool := (@buildPlain now (now + horizonMs) _ plain).1
  by_cases blind : (readableWindows now account.toRunwayAccountInput).isEmpty
  · have none_ : pooledOf now (now + horizonMs) [account.toRunwayAccountInput] = [] := by simp [pooledOf,blind]
    rw [none_] at pool
    simp [computeCapacityRunway,pool,blind,runOut]
  · have one : pooledOf now (now + horizonMs) [account.toRunwayAccountInput] =
        [pooledAccount account.accountId (accountIntervals now (now + horizonMs) account.toRunwayAccountInput)] := by
      simp [pooledOf,blind]
    rw [one] at pool
    simp only [computeCapacityRunway,pool,allOutOne steady.plain,blind]
    cases (firstFulls (now + horizonMs) (accountBurns now account.toRunwayAccountInput)).min? with
    | none => rfl
    | some t =>
      by_cases here : t = now <;> simp [here,runOut,runOutAt]

theorem computeSteady (localeCompare : String → String → Ordering) (steady : ∀ account ∈ accounts, Steady options now account)
    (advance : options.observationLag = .advance) (some_ : accounts ≠ []) :
    computeCapacityRunwayScenario localeCompare accounts now horizonMs options =
      if readableAccounts now accounts = [] then
        .ok { basisOf localeCompare (accounts.map (preparedSteady options now)) (steadyDemand options now accounts) {} [] none with
          outcome := .unknown (idsWith [.withheld] (accounts.map (preparedSteady options now))) }
      else (runScan options ((readableAccounts now accounts).map (preparedSteady options now)) (steadyDemand options now accounts) now
        (now + horizonMs) 1 (some {})).bind
          (concluded localeCompare options (accounts.map (preparedSteady options now)) (steadyDemand options now accounts) now horizonMs) := by
  have withheld : (accounts.map (preparedSteady options now)).map (withhold (classDemand (accounts.map (preparedSteady options now)))) =
      accounts.map (preparedSteady options now) := by
    rw [List.map_map]
    exact List.map_congr_left (fun account _ => withholdsNone _)
  rw [computeCapacityRunwayScenario,if_neg (by simpa using some_),preparedAll steady advance]
  simp only [Except.bind,withheld,pooledSteady,List.length_map,List.length_eq_zero_iff]
  rfl

/-- Until an account dies the two runways agree. -/
theorem scenarioAgrees (localeCompare : String → String → Ordering) (options : RunwayScenarioOptions) (currently : RunwayOptions)
    (now horizonMs : ℚ) (accounts : List RunwayScenarioAccountInput) (steady : ∀ account ∈ accounts, Steady options now account)
    (ids : (accounts.map (·.accountId)).Nodup) (rule : options.shareRule = proportionalShareRule)
    (advance : options.observationLag = .advance)
    (apart : Burn.Apart (poolBurns now (accounts.map (·.toRunwayAccountInput))) EVENT_TIE_TOLERANCE_MS (now + horizonMs)) :
    ∃ outcome, computeCapacityRunwayScenario localeCompare accounts now horizonMs options = .ok outcome ∧
      (outcome.eventBudgetExhausted ≠ some .baseline →
        firstDeath now outcome.toRunwayScenarioBasis = (deadStarts (accounts.map (·.toRunwayAccountInput)) now (now + horizonMs)).min? ∧
        (accounts.length = 1 → runOut outcome.outcome =
          runOut (computeCapacityRunway (accounts.map (·.toRunwayAccountInput)) now horizonMs currently))) := by
  by_cases empty : accounts = []
  · subst empty
    exact ⟨_,rfl,fun _ => ⟨rfl,nofun⟩⟩
  rw [computeSteady localeCompare steady advance empty]
  by_cases none_ : readableAccounts now accounts = []
  · rw [if_pos none_]
    refine ⟨_,rfl,fun _ => ⟨?_,fun alone => ?_⟩⟩
    · rw [unreadableDeaths steady none_]
      exact basisDeaths _ _ _ _ _ _
    · obtain ⟨account,rfl⟩ := List.length_eq_one_iff.mp alone
      have blind : (readableWindows now account.toRunwayAccountInput).isEmpty = true := by
        by_contra readable
        rw [readableCons,if_neg readable] at none_
        cases none_
      have current := @currentVerdict now horizonMs options account (steady account List.mem_cons_self) currently
      rw [if_pos blind] at current
      exact current.symm
  · rw [if_neg none_]
    obtain ⟨scanned,scans,tells⟩ := @scanTells now (now + horizonMs) options accounts steady ids rule apart none_
    obtain ⟨outcome,done,deaths_,budget,clear,hit⟩ := @concludes now horizonMs options localeCompare rule
      (accounts.map (preparedSteady options now)) (steadyDemand options now accounts) scanned
    refine ⟨outcome,by rw [scans]; exact done,fun within => ?_⟩
    have tells := tells (fun its => within (budget its))
    refine ⟨?_,fun alone => ?_⟩
    · rw [deaths_,tells.earliest.minimum]
      exact (deadStartsEarliest (steadyPlain steady)).minimum.symm
    · obtain ⟨account,rfl⟩ := List.length_eq_one_iff.mp alone
      have readable : (readableWindows now account.toRunwayAccountInput).isEmpty = false := by
        by_contra blind
        rw [Bool.not_eq_false] at blind
        rw [readableCons,if_pos blind] at none_
        exact none_ rfl
      have one : (startWalk options now [account]).state.length = 1 := by simp [startWalk,readableAccounts,readable]
      have pool : poolBurns now [account.toRunwayAccountInput] = accountBurns now account.toRunwayAccountInput := by simp [poolBurns]
      have single := steady account List.mem_cons_self
      rw [List.map_singleton,pool] at tells
      refine Eq.trans ?_ (currentVerdict single currently).symm
      rw [if_neg (by simp [readable])]
      cases first : (firstFulls (now + horizonMs) (accountBurns now account.toRunwayAccountInput)).min? with
      | none => exact clear (tells.clear first)
      | some t =>
        obtain ⟨truncated,its⟩ := tells.hit one t first
        rw [hit t _ truncated its,causesAlone readable]
        rfl

def plus : AccountTier := ⟨"codex",some "plus",none,.recorded⟩

def oneWindow (accountId : String) (window : RunwayWindowInput) : RunwayScenarioAccountInput :=
  { accountId,unmetered := false,windows := [window],demandClass := "codex",tier := some plus }

def fiveHour (utilizationPct : ℚ) (prediction : Option UsagePrediction) (observedAtMs : Option ℚ) : RunwayWindowInput :=
  { windowKind := "five_hour",utilizationPct,resetsAtMs := some (2 * HOUR_MS),windowStartMs := some (-3 * HOUR_MS),prediction
    lifetimeConfidence := .full,observedAtMs }

def observedAhead : RunwayScenarioAccountInput := oneWindow "a" (fiveHour 70 none (some HOUR_MS))

def withoutEta : RunwayScenarioAccountInput :=
  oneWindow "a" (fiveHour 50 (some ⟨.rising,60,none,some (2 * HOUR_MS),false⟩) (some 0))

def burning (accountId : String) (utilizationPct : ℚ) : RunwayScenarioAccountInput := oneWindow accountId (fiveHour utilizationPct none (some 0))

def scenarioDeath (accounts : List RunwayScenarioAccountInput) (options : RunwayScenarioOptions) : Option (Option ℚ) :=
  (computeCapacityRunwayScenario compare accounts 0 (10 * HOUR_MS) options).toOption.map fun outcome => firstDeath 0 outcome.toRunwayScenarioBasis

def currentDeath (accounts : List RunwayScenarioAccountInput) : Option ℚ :=
  (deadStarts (accounts.map (·.toRunwayAccountInput)) 0 (10 * HOUR_MS)).min?

/-- The two runways differ where a reading is told ahead of now, where a burn states no ETA, where two accounts share an
id, and where the scan ran out of its budget. -/
theorem scenarioDiffers :
    (scenarioDeath [observedAhead] { probePaceMargin := false } = some (some (43200000 / 7)) ∧ currentDeath [observedAhead] = none) ∧
    (scenarioDeath [withoutEta] { probePaceMargin := false } = some (some 3000000) ∧ currentDeath [withoutEta] = none) ∧
    (scenarioDeath [burning "a" 80,burning "a" 20] { probePaceMargin := false } = some none ∧
      currentDeath [burning "a" 80,burning "a" 20] = some 2700000) ∧
    scenarioDeath [burning "a" 80] { probePaceMargin := false,maxEvents := 0 } = some none ∧
      currentDeath [burning "a" 80] = some 2700000 := by
  decide +kernel

def lagging : List RunwayScenarioAccountInput := [oneWindow "a" (fiveHour 50 none (some (-HOUR_MS))),burning "b" 20]

theorem laggingWindow {window account} (inside : account ∈ lagging)
    (readable : window ∈ readableWindows 0 account.toRunwayAccountInput) :
    window = fiveHour 50 none (some (-HOUR_MS)) ∨ window = fiveHour 20 none (some 0) := by
  have its : window ∈ account.windows := (List.mem_filter.mp readable).1
  rcases List.mem_cons.mp inside with rfl | later
  · exact .inl (List.mem_singleton.mp its)
  · obtain rfl := List.mem_singleton.mp later
    exact .inr (List.mem_singleton.mp its)

theorem laggingMeasured {window : RunwayWindowInput}
    (its : window = fiveHour 50 none (some (-HOUR_MS)) ∨ window = fiveHour 20 none (some 0)) : Projects 0 window ∧ MeasuredBy 0 window := by
  rcases its with rfl | rfl
  · have told : estimateWindowExhaustion (fiveHour 50 none (some (-HOUR_MS))) 0 =
        { source := .lifetimePrimary,slopePctPerHour := some 25,exhaustsAtMs := some HOUR_MS,evidenceSpanMs := some (2 * HOUR_MS) } := by decide +kernel
    refine ⟨⟨by rw [told]; decide,by rw [told]; decide,by rw [told]; decide +kernel⟩,fun slope slopes _ => ?_⟩
    rw [told] at slopes ⊢
    cases slopes
    exact ⟨_,rfl,by decide +kernel⟩
  · have told : estimateWindowExhaustion (fiveHour 20 none (some 0)) 0 =
        { source := .lifetimePrimary,slopePctPerHour := some (20 / 3),exhaustsAtMs := some (12 * HOUR_MS)
          evidenceSpanMs := some (3 * HOUR_MS) } := by decide +kernel
    refine ⟨⟨by rw [told]; decide,by rw [told]; decide,by rw [told]; decide +kernel⟩,fun slope slopes _ => ?_⟩
    rw [told] at slopes ⊢
    cases slopes
    exact ⟨_,rfl,by decide +kernel⟩

theorem laggingSteady : ∀ account ∈ lagging, Steady { probePaceMargin := false } 0 account := by
  intro account inside
  have plain : Plain 0 account.toRunwayAccountInput := by
    refine ⟨?_,?_,fun window readable => (laggingMeasured (laggingWindow inside readable)).1,
      fun window readable => (laggingMeasured (laggingWindow inside readable)).2⟩
    · rcases List.mem_cons.mp inside with rfl | later
      · rfl
      · obtain rfl := List.mem_singleton.mp later
        rfl
    · rcases List.mem_cons.mp inside with rfl | later
      · rfl
      · obtain rfl := List.mem_singleton.mp later
        rfl
  rcases List.mem_cons.mp inside with rfl | later
  · exact ⟨plain,rfl,⟨1,by decide +kernel,by decide⟩,by decide⟩
  · obtain rfl := List.mem_singleton.mp later
    exact ⟨plain,rfl,⟨1,by decide +kernel,by decide⟩,by decide⟩

theorem laggingApart : Burn.Apart (poolBurns 0 (lagging.map (·.toRunwayAccountInput))) EVENT_TIE_TOLERANCE_MS (0 + 3 / 2 * HOUR_MS) := by
  have burns : poolBurns 0 (lagging.map (·.toRunwayAccountInput)) =
      [⟨some HOUR_MS,2 * HOUR_MS,5 * HOUR_MS,some (4 * HOUR_MS)⟩,⟨some (12 * HOUR_MS),2 * HOUR_MS,5 * HOUR_MS,some (15 * HOUR_MS)⟩] := by
    decide +kernel
  have only : ∀ b ∈ poolBurns 0 (lagging.map (·.toRunwayAccountInput)), ∀ x, b.Instant x → x < 0 + 3 / 2 * HOUR_MS → x = HOUR_MS := by
    intro b inside x happens near
    have hour := hourPositive
    rw [burns] at inside
    rcases List.mem_cons.mp inside with rfl | later
    · rcases Burn.instantCases (by decide +kernel) (by rintro _ ⟨⟩; decide +kernel) happens with full | emptied
      · exact (Option.some.inj full).symm
      · linarith
    · obtain rfl := List.mem_singleton.mp later
      rcases Burn.instantCases (by decide +kernel) (by rintro _ ⟨⟩; decide +kernel) happens with full | emptied
      · linarith [show 12 * HOUR_MS = x from Option.some.inj full]
      · linarith
  intro b inside c member x y first second near far less
  exact absurd less (by rw [only b inside x first near,only c member y second far]; exact lt_irrefl _)

theorem laggingAgrees : ∃ outcome, computeCapacityRunwayScenario compare lagging 0 (3 / 2 * HOUR_MS) { probePaceMargin := false } = .ok outcome ∧
    (outcome.eventBudgetExhausted ≠ some .baseline →
      firstDeath 0 outcome.toRunwayScenarioBasis = (deadStarts (lagging.map (·.toRunwayAccountInput)) 0 (0 + 3 / 2 * HOUR_MS)).min? ∧
      (lagging.length = 1 → runOut outcome.outcome =
        runOut (computeCapacityRunway (lagging.map (·.toRunwayAccountInput)) 0 (3 / 2 * HOUR_MS) {}))) :=
  scenarioAgrees compare { probePaceMargin := false } {} 0 (3 / 2 * HOUR_MS) lagging laggingSteady (by decide) rfl rfl laggingApart

end Clankermux.RunwayScenario
