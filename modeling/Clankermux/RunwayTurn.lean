import Clankermux.RunwayBatch

/-! One turn of the scan while every account is alive. Each window is a burn at its own slope: the
lag is carried into it, the next instant of the pool is the next batch, and what fills in it dies. -/
namespace Clankermux.RunwayScenario
open CapacityRunway

variable {now t next horizonEndMs slope : ℚ} {window : ScanWindow} {account : ScanAccount} {state : List ScanAccount} {b : Burn}

structure Cycles (t slope : ℚ) (window : ScanWindow) (b : Burn) : Prop where
  awake : window.deadUntilMs = none
  active : window.inactive = false
  resets : window.resetsAtMs = some b.emptiedAt
  ahead : t < b.emptiedAt
  lasts : 0 < b.period
  cycle : window.durationMs = some b.period
  falls : 0 ≤ slope
  rate : b.timeToFull = if 0 < slope then some (100 / slope * HOUR_MS) else none

structure Runs (now t slope : ℚ) (window : ScanWindow) (b : Burn) : Prop extends Cycles t slope window b where
  pending : window.lagExhaustAtMs = none
  lag : 0 ≤ window.lagMs
  first : 0 < window.lagMs → t = now ∧ window.firstCycle = true
  unfilled : window.pct < 100
  full : b.fullAt = if 0 < slope then some (max t (t - window.lagMs + (100 - window.pct) / slope * HOUR_MS)) else none

structure LagFilled (now t slope : ℚ) (window : ScanWindow) (b : Burn) (x : ℚ) : Prop where
  waiting : window.lagExhaustAtMs = some x
  past : x ≤ now
  here : t = now
  first : window.firstCycle = true
  burns : 0 < slope
  full : b.fullAt = some t

structure Unfilled (t slope : ℚ) (window : ScanWindow) (b : Burn) : Prop where
  pending : window.lagExhaustAtMs = none
  unfilled : window.pct < 100
  full : b.fullAt = if 0 < slope then some (t + (100 - window.pct) / slope * HOUR_MS) else none

structure Carried (now t slope : ℚ) (window : ScanWindow) (b : Burn) : Prop extends Cycles t slope window b where
  assigned : window.slope = slope
  lag : window.lagMs = 0
  burns : (∃ x, LagFilled now t slope window b x) ∨ Unfilled t slope window b

theorem Runs.carried (runs : Runs now t slope window b) : Carried now t slope (carried now t slope window) b := by
  have pinned : pinCycle t { window with slope } = { window with slope } := by simp [pinCycle,runs.active]
  have cycles : ∀ after, after.deadUntilMs = window.deadUntilMs → after.inactive = window.inactive →
      after.resetsAtMs = window.resetsAtMs → after.durationMs = window.durationMs → Cycles t slope after b :=
    fun _ awake active resets cycle => ⟨awake.trans runs.awake,active.trans runs.active,resets.trans runs.resets,runs.ahead,runs.lasts,
      cycle.trans runs.cycle,runs.falls,runs.rate⟩
  rcases runs.lag.eq_or_lt with none_ | lags
  · have still : RunwayScenario.carried now t slope window = { window with slope } := by
      simp only [RunwayScenario.carried,pinned,advanceLag,if_neg none_.not_lt,ite_self]
    rw [still]
    refine ⟨cycles _ rfl rfl rfl rfl,rfl,none_.symm,.inr ⟨runs.pending,runs.unfilled,?_⟩⟩
    rw [runs.full,← none_]
    by_cases burns : 0 < slope
    · have left : 0 ≤ (100 - window.pct) / slope * HOUR_MS :=
        mul_nonneg (div_nonneg (sub_pos.mpr runs.unfilled).le burns.le) hourPositive.le
      rw [if_pos burns,if_pos burns,sub_zero,max_eq_right (by linarith)]
    · rw [if_neg burns,if_neg burns]
  · obtain ⟨rfl,cycle⟩ := runs.first lags
    have rate : slope / 1 = slope := div_one slope
    by_cases burns : 0 < slope
    · have advance : 0 < slope * window.lagMs / HOUR_MS := div_pos (mul_pos burns lags) hourPositive
      by_cases filled : window.pct + slope * window.lagMs / HOUR_MS ≥ 100
      · have lagged : RunwayScenario.carried t t slope window = { window with
            slope
            lagExhaustAtMs := some (t - window.lagMs + (100 - window.pct) / slope * HOUR_MS)
            lagMs := 0 } := by
          simp only [RunwayScenario.carried,pinned,advanceLag,rate,lags,burns,advance,filled,if_true,and_self]
        have past : t - window.lagMs + (100 - window.pct) / slope * HOUR_MS ≤ t := by
          have scaled : (100 - window.pct) / slope * HOUR_MS ≤ slope * window.lagMs / HOUR_MS / slope * HOUR_MS :=
            mul_le_mul_of_nonneg_right (div_le_div_of_nonneg_right (by linarith) burns.le) hourPositive.le
          have back : slope * window.lagMs / HOUR_MS / slope * HOUR_MS = window.lagMs := by
            have := hourPositive
            field_simp
          linarith
        rw [lagged]
        refine ⟨cycles _ rfl rfl rfl rfl,rfl,rfl,.inl ⟨_,rfl,past,rfl,cycle,burns,?_⟩⟩
        rw [runs.full,if_pos burns,max_eq_left past]
      · have lagged : RunwayScenario.carried t t slope window = { window with
            slope
            pct := window.pct + slope * window.lagMs / HOUR_MS
            lagMs := 0 } := by
          simp only [RunwayScenario.carried,pinned,advanceLag,rate,lags,burns,filled,if_true,and_false,if_false]
        rw [lagged]
        refine ⟨cycles _ rfl rfl rfl rfl,rfl,rfl,.inr ⟨runs.pending,not_le.mp filled,?_⟩⟩
        have same : t + (100 - (window.pct + slope * window.lagMs / HOUR_MS)) / slope * HOUR_MS =
            t - window.lagMs + (100 - window.pct) / slope * HOUR_MS := by
          have := hourPositive
          field_simp
          ring
        have left : 0 ≤ (100 - (window.pct + slope * window.lagMs / HOUR_MS)) / slope * HOUR_MS :=
          mul_nonneg (div_nonneg (sub_pos.mpr (not_le.mp filled)).le burns.le) hourPositive.le
        rw [runs.full,if_pos burns,if_pos burns,same,max_eq_right (by linarith)]
    · have lagged : RunwayScenario.carried t t slope window = { window with slope,pct := window.pct + 0,lagMs := 0 } := by
        simp only [RunwayScenario.carried,pinned,advanceLag,rate,lags,burns,if_true,if_false,lt_irrefl,false_and]
      rw [lagged]
      refine ⟨cycles _ rfl rfl rfl rfl,rfl,rfl,.inr ⟨runs.pending,?_,?_⟩⟩
      · simpa using runs.unfilled
      · rw [runs.full,if_neg burns,if_neg burns]

theorem burnedKeeps (elapsedMs : ℚ) (window : ScanWindow) : ∃ pct, burned elapsedMs window = { window with lagExhaustAtMs := none,pct } := by
  rw [burned,burn]
  split
  · exact ⟨window.pct,rfl⟩
  · exact ⟨_,rfl⟩

theorem Carried.burned (carried : Carried now t slope window b) (since : t ≤ next) (before : next < b.emptiedAt)
    (fills : ∀ x, b.fullAt = some x → next < x) : Runs now next slope (burned (next - t) window) b := by
  have unfilled : Unfilled t slope window b := by
    rcases carried.burns with ⟨x,filled⟩ | unfilled
    · exact absurd (fills t filled.full) (not_lt.mpr since)
    · exact unfilled
  have cycles : ∀ pct, Cycles next slope { window with lagExhaustAtMs := none,pct } b := fun pct =>
    { carried with ahead := before }
  by_cases burns : 0 < slope
  · have full := unfilled.full
    rw [if_pos burns] at full
    have ahead := fills _ full
    have hour := hourPositive
    have left : (next - t) / HOUR_MS * slope < 100 - window.pct := by
      rw [← lt_div_iff₀ burns,div_lt_iff₀ hour]
      linarith
    have whole : RunwayScenario.burned (next - t) window =
        { window with lagExhaustAtMs := none,pct := window.pct + slope * (next - t) / HOUR_MS } := by
      have below : window.pct + slope * (next - t) / HOUR_MS ≤ 100 := by
        have same : slope * (next - t) / HOUR_MS = (next - t) / HOUR_MS * slope := by ring
        linarith
      rw [RunwayScenario.burned,burn,carried.assigned,if_neg (not_le.mpr burns),min_eq_right below]
    have same : slope * (next - t) / HOUR_MS = (next - t) / HOUR_MS * slope := by ring
    rw [whole]
    refine ⟨cycles _,rfl,carried.lag.ge,fun lags => absurd carried.lag lags.ne',?_,?_⟩
    · show window.pct + slope * (next - t) / HOUR_MS < 100
      linarith
    · have moved : next - window.lagMs + (100 - (window.pct + slope * (next - t) / HOUR_MS)) / slope * HOUR_MS =
          t + (100 - window.pct) / slope * HOUR_MS := by
        rw [carried.lag]
        field_simp
        ring
      rw [full,if_pos burns,moved,max_eq_right ahead.le]
  · have whole : RunwayScenario.burned (next - t) window = { window with lagExhaustAtMs := none } := by
      rw [RunwayScenario.burned,burn,carried.assigned,if_pos (not_lt.mp burns)]
    rw [whole]
    refine ⟨cycles _,rfl,carried.lag.ge,fun lags => absurd carried.lag lags.ne',unfilled.unfilled,?_⟩
    rw [unfilled.full,if_neg burns,if_neg burns]

theorem Carried.renewed (carried : Carried now t slope window b) (emptied : b.emptiedAt = next) :
    Runs now next slope (resetWindow next (RunwayScenario.burned (next - t) window)) b.renewed := by
  obtain ⟨pct,whole⟩ := burnedKeeps (next - t) window
  rw [whole]
  refine ⟨{ carried with awake := rfl, resets := ?_, ahead := ?_ },rfl,carried.lag.ge,
    fun lags => absurd carried.lag lags.ne',?_,?_⟩
  · show window.durationMs.map (next + ·) = some (b.emptiedAt + b.period)
    rw [carried.cycle,emptied]
    rfl
  · show next < b.emptiedAt + b.period
    linarith [carried.lasts]
  · show (0 : ℚ) < 100
    norm_num
  · show b.timeToFull.map (b.emptiedAt + ·) = _
    rw [carried.rate]
    by_cases burns : 0 < slope
    · have positive : 0 < 100 / slope * HOUR_MS := mul_pos (div_pos (by norm_num) burns) hourPositive
      simp only [if_pos burns]
      show some (b.emptiedAt + 100 / slope * HOUR_MS) = some (max next (next - window.lagMs + (100 - 0) / slope * HOUR_MS))
      rw [carried.lag,sub_zero,sub_zero,emptied,max_eq_right (by linarith)]
    · simp only [if_neg burns,Option.map_none]

structure At (state : List ScanAccount) (place : Place) (account : ScanAccount) (window : ScanWindow) : Prop where
  owner : state[place.1]? = some account
  held : account.windows[place.2]? = some window

variable {place : Place}

theorem At.accountIn (at_ : At state place account window) : account ∈ state := List.mem_of_getElem? at_.owner

theorem At.windowIn (at_ : At state place account window) : window ∈ account.windows := List.mem_of_getElem? at_.held

theorem atMember (inside : account ∈ state) (its : window ∈ account.windows) : ∃ place, At state place account window := by
  obtain ⟨i,owner⟩ := List.mem_iff_getElem?.mp inside
  obtain ⟨j,held⟩ := List.mem_iff_getElem?.mp its
  exact ⟨(i,j),owner,held⟩

def rework (change : Place → ScanAccount → ScanWindow → ScanWindow) (state : List ScanAccount) : List ScanAccount :=
  state.mapIdx fun i account => { account with windows := account.windows.mapIdx fun j window => change (i,j) account window }

variable {change : Place → ScanAccount → ScanWindow → ScanWindow}

theorem atRework (at_ : At state place account window) : ∃ after, At (rework change state) place after (change place account window) ∧
    after = { account with windows := account.windows.mapIdx fun j window => change (place.1,j) account window } := by
  refine ⟨_,⟨?_,?_⟩,rfl⟩
  · rw [rework,List.getElem?_mapIdx,at_.owner]
    rfl
  · show (account.windows.mapIdx fun j window => change (place.1,j) account window)[place.2]? = some (change place account window)
    rw [List.getElem?_mapIdx,at_.held]
    rfl

theorem ofRework {after later} (at_ : At (rework change state) place after later) :
    ∃ account window, At state place account window ∧ later = change place account window ∧
      after = { account with windows := account.windows.mapIdx fun j window => change (place.1,j) account window } := by
  obtain ⟨owner,held⟩ := at_
  rw [rework,List.getElem?_mapIdx] at owner
  obtain ⟨account,found,rfl⟩ := Option.map_eq_some_iff.mp owner
  have held : (account.windows.mapIdx fun j window => change (place.1,j) account window)[place.2]? = some later := held
  rw [List.getElem?_mapIdx] at held
  obtain ⟨window,there,rfl⟩ := Option.map_eq_some_iff.mp held
  exact ⟨account,window,⟨found,there⟩,rfl,rfl⟩

theorem mapRework (change : ScanAccount → ScanWindow → ScanWindow) (state : List ScanAccount) :
    state.map (fun account => { account with windows := account.windows.map (change account) }) = rework (fun _ => change) state := by
  refine List.ext_getElem? (fun i => ?_)
  rw [rework,List.getElem?_map,List.getElem?_mapIdx]
  refine congrArg (fun change => Option.map change state[i]?) (funext fun account => ?_)
  refine congrArg (fun windows => { account with windows }) (List.ext_getElem? (fun j => ?_))
  rw [List.getElem?_map,List.getElem?_mapIdx]

theorem modifyRework (later : Place → ScanWindow → ScanWindow) :
    modifyAll later (rework change state) = rework (fun place account window => later place (change place account window)) state := by
  refine List.ext_getElem? (fun i => ?_)
  rw [modifyAll,rework,rework,List.getElem?_mapIdx,List.getElem?_mapIdx,List.getElem?_mapIdx,Option.map_map]
  refine congrArg (fun change => Option.map change state[i]?) (funext fun account => ?_)
  refine congrArg (fun windows => { account with windows }) (List.ext_getElem? (fun j => ?_))
  rw [List.getElem?_mapIdx,List.getElem?_mapIdx,List.getElem?_mapIdx,Option.map_map]
  rfl

def KeepsReading (change : Place → ScanAccount → ScanWindow → ScanWindow) : Prop := ∀ place account window,
  (change place account window).kind = window.kind ∧ (change place account window).measuredUnitsPerHour = window.measuredUnitsPerHour

theorem workedReading (keeps : KeepsReading change) (i : Nat) (account : ScanAccount) :
    ScanAccount.reading { account with windows := account.windows.mapIdx fun j window => change (i,j) account window } = account.reading := by
  refine congrArg (fun windows => (account.accountId,account.demandClass,account.capacityUnits,windows)) (List.ext_getElem? (fun j => ?_))
  rw [List.getElem?_map,List.getElem?_mapIdx,Option.map_map,List.getElem?_map]
  refine congrArg (fun told => Option.map told account.windows[j]?) (funext fun window => ?_)
  exact Prod.ext (keeps (i,j) account window).1 (keeps (i,j) account window).2

theorem reworkReadings (keeps : KeepsReading change) : SameReadings (rework change state) state := by
  refine List.ext_getElem? (fun i => ?_)
  rw [List.getElem?_map,rework,List.getElem?_mapIdx,Option.map_map,List.getElem?_map]
  exact congrArg (fun reading => Option.map reading state[i]?) (funext fun account => workedReading keeps i account)

variable {event : ScanEvent}

def Occurs (now : ℚ) (b : Burn) (window : ScanWindow) (event : ScanEvent) : Prop :=
  event.kind = .reset ∧ event.atMs = b.emptiedAt ∨ event.kind = .exhaust ∧ b.fullAt = some event.atMs ∧ Sounds now event window

theorem candidateMember : event ∈ candidateEvents t horizonEndMs state ↔ ∃ place account window, At state place account window ∧
    event ∈ windowEvents t account place.1 place.2 window ∧ event.admitted t horizonEndMs = true := by
  simp only [candidateEvents,List.mem_filter,List.mem_flatMap]
  constructor
  · rintro ⟨⟨owner,its,window,held,inside⟩,admitted⟩
    exact ⟨(owner.2,window.2),owner.1,window.1,⟨List.mk_mem_zipIdx_iff_getElem?.mp its,List.mk_mem_zipIdx_iff_getElem?.mp held⟩,
      inside,admitted⟩
  · rintro ⟨place,account,window,at_,inside,admitted⟩
    exact ⟨⟨(account,place.1),List.mk_mem_zipIdx_iff_getElem?.mpr at_.owner,(window,place.2),
      List.mk_mem_zipIdx_iff_getElem?.mpr at_.held,inside⟩,admitted⟩

variable {owner : ScanAccount} {i j : Nat}

section
variable (carried : Carried now t slope window b)
include carried

theorem Carried.resetEvents :
    RunwayScenario.resetEvents i j window = [{ kind := .reset,atMs := b.emptiedAt,account := i,window := j }] := by
  simp [RunwayScenario.resetEvents,carried.resets,carried.active]

theorem Carried.expiryEvents : RunwayScenario.expiryEvents t owner i j window = [] := by
  simp [RunwayScenario.expiryEvents,carried.awake]

theorem Carried.exhaustEvents (alive : owner.isAlive = true) :
    (∃ x, LagFilled now t slope window b x ∧ RunwayScenario.exhaustEvents t owner.isAlive i j window =
      [{ kind := .exhaust,atMs := t,account := i,window := j,lagOrigin := true,exhaustsAtMs := some x }]) ∨
    (0 < slope ∧ 0 < (100 - window.pct) / slope * HOUR_MS ∧ b.fullAt = some (t + (100 - window.pct) / slope * HOUR_MS) ∧
      RunwayScenario.exhaustEvents t owner.isAlive i j window =
        [{ kind := .exhaust,atMs := t + (100 - window.pct) / slope * HOUR_MS,account := i,window := j }]) ∨
    (b.fullAt = none ∧ RunwayScenario.exhaustEvents t owner.isAlive i j window = []) := by
  rcases carried.burns with ⟨x,filled⟩ | unfilled
  · exact .inl ⟨x,filled,by simp [RunwayScenario.exhaustEvents,alive,filled.waiting]⟩
  · have full := unfilled.full
    by_cases burns : 0 < slope
    · rw [if_pos burns] at full
      refine .inr (.inl ⟨burns,?_,full,?_⟩)
      · exact mul_pos (div_pos (sub_pos.mpr unfilled.unfilled) burns) hourPositive
      · simp [RunwayScenario.exhaustEvents,alive,unfilled.pending,carried.assigned,burns,unfilled.unfilled]
    · rw [if_neg burns] at full
      exact .inr (.inr ⟨full,by simp [RunwayScenario.exhaustEvents,unfilled.pending,carried.assigned,burns]⟩)

theorem Carried.occurs (alive : owner.isAlive = true) (live : now ≤ t)
    (inside : event ∈ windowEvents t owner i j window) :
    event.place = (i,j) ∧ t ≤ event.atMs ∧ Occurs now b window event := by
  rw [windowEvents,carried.resetEvents,carried.expiryEvents,List.append_nil] at inside
  rcases List.mem_append.mp inside with fills | empties
  · rcases carried.exhaustEvents (i := i) (j := j) alive with ⟨x,filled,whole⟩ | ⟨-,left,full,whole⟩ | ⟨-,none_⟩
    · rw [whole] at fills
      cases List.mem_singleton.mp fills
      exact ⟨rfl,le_rfl,.inr ⟨rfl,filled.full,.inr ⟨filled.here,filled.past,filled.first⟩⟩⟩
    · rw [whole] at fills
      cases List.mem_singleton.mp fills
      refine ⟨rfl,by linarith,.inr ⟨rfl,full,.inl ⟨?_,rfl⟩⟩⟩
      linarith
    · rw [none_] at fills
      cases fills
  · cases List.mem_singleton.mp empties
    exact ⟨rfl,carried.ahead.le,.inl ⟨rfl,rfl⟩⟩

theorem Carried.empties (near : b.emptiedAt < horizonEndMs) :
    ∃ event ∈ windowEvents t owner i j window, event.admitted t horizonEndMs = true ∧ event.kind = .reset ∧ event.place = (i,j) ∧
      event.atMs = b.emptiedAt := by
  refine ⟨{ kind := .reset,atMs := b.emptiedAt,account := i,window := j },?_,?_,rfl,rfl,rfl⟩
  · rw [windowEvents,carried.resetEvents]
    simp
  · simp [ScanEvent.admitted,carried.ahead,near]

end

theorem Carried.fills {x} (carried : Carried now t slope window b) (alive : owner.isAlive = true) (full : b.fullAt = some x) (near : x < horizonEndMs) :
    ∃ event ∈ windowEvents t owner i j window, event.admitted t horizonEndMs = true ∧ event.kind = .exhaust ∧ event.place = (i,j) ∧
      event.atMs = x := by
  rcases carried.exhaustEvents (i := i) (j := j) alive with ⟨y,filled,whole⟩ | ⟨-,left,its,whole⟩ | ⟨none_,-⟩
  · cases filled.full.symm.trans full
    refine ⟨_,by rw [windowEvents,whole]; exact List.mem_append_left _ (List.mem_append_left _ (.head _)),?_,rfl,rfl,rfl⟩
    simp [ScanEvent.admitted,near]
  · cases its.symm.trans full
    refine ⟨_,by rw [windowEvents,whole]; exact List.mem_append_left _ (List.mem_append_left _ (.head _)),?_,rfl,rfl,rfl⟩
    simp [ScanEvent.admitted,near,left]
  · rw [none_] at full
    cases full

variable {pool : Place → Burn}

def burnsOf (state : List ScanAccount) (pool : Place → Burn) : List Burn :=
  state.zipIdx.flatMap fun owner => owner.1.windows.zipIdx.map fun window => pool (owner.2,window.2)

theorem memBurns : b ∈ burnsOf state pool ↔ ∃ place account window, At state place account window ∧ pool place = b := by
  simp only [burnsOf,List.mem_flatMap,List.mem_map]
  constructor
  · rintro ⟨owner,its,window,held,rfl⟩
    exact ⟨(owner.2,window.2),owner.1,window.1,⟨List.mk_mem_zipIdx_iff_getElem?.mp its,List.mk_mem_zipIdx_iff_getElem?.mp held⟩,rfl⟩
  · rintro ⟨place,account,window,at_,rfl⟩
    exact ⟨(account,place.1),List.mk_mem_zipIdx_iff_getElem?.mpr at_.owner,(window,place.2),List.mk_mem_zipIdx_iff_getElem?.mpr at_.held,rfl⟩

structure Living (now t : ℚ) (state : List ScanAccount) (pool : Place → Burn) : Prop where
  live : now ≤ t
  alive : ∀ account ∈ state, account.isAlive = true
  burns : ∀ place account window, At state place account window → Carried now t window.slope window (pool place)

structure Nothing (next : ℚ) (state : List ScanAccount) (pool : Place → Burn) : Prop where
  emptied : ∀ place account window, At state place account window → next ≤ (pool place).emptiedAt
  fills : ∀ place account window, At state place account window → ∀ x, (pool place).fullAt = some x → next ≤ x

section
variable (living : Living now t state pool)
include living

theorem Living.occurs (inside : event ∈ candidateEvents t horizonEndMs state) :
    ∃ account window, At state event.place account window ∧ t ≤ event.atMs ∧ event.atMs < horizonEndMs ∧
      Occurs now (pool event.place) window event := by
  obtain ⟨place,account,window,at_,its,admitted⟩ := candidateMember.mp inside
  obtain ⟨same,since,occurs⟩ := (living.burns place account window at_).occurs (living.alive account at_.accountIn) living.live its
  obtain rfl : event.place = place := same
  exact ⟨account,window,at_,since,of_decide_eq_true (Bool.and_eq_true_iff.mp admitted).2,occurs⟩

theorem Living.empties (at_ : At state place account window) (near : (pool place).emptiedAt < horizonEndMs) :
    ∃ event ∈ candidateEvents t horizonEndMs state, event.kind = .reset ∧ event.place = place ∧ event.atMs = (pool place).emptiedAt := by
  obtain ⟨event,inside,admitted,told⟩ := @Carried.empties now t horizonEndMs _ window _ account place.1 place.2
    (living.burns place account window at_) near
  exact ⟨event,candidateMember.mpr ⟨place,account,window,at_,inside,admitted⟩,told⟩

theorem Living.fills (at_ : At state place account window) {x}
    (full : (pool place).fullAt = some x) (near : x < horizonEndMs) :
    ∃ event ∈ candidateEvents t horizonEndMs state, event.kind = .exhaust ∧ event.place = place ∧ event.atMs = x := by
  obtain ⟨event,inside,admitted,told⟩ := @Carried.fills now t horizonEndMs _ window _ account place.1 place.2 x
    (living.burns place account window at_) (living.alive account at_.accountIn) full near
  exact ⟨event,candidateMember.mpr ⟨place,account,window,at_,inside,admitted⟩,told⟩

theorem Living.silent (none_ : ((candidateEvents t horizonEndMs state).map (·.atMs)).min? = none) :
    Nothing horizonEndMs state pool := by
  have empty := List.map_eq_nil_iff.mp (List.min?_eq_none_iff.mp none_)
  constructor
  · intro place account window at_
    by_contra near
    obtain ⟨event,inside,-⟩ := living.empties at_ (not_le.mp near)
    rw [empty] at inside
    cases inside
  · intro place account window at_ x full
    by_contra near
    obtain ⟨event,inside,-⟩ := living.fills at_ full (not_le.mp near)
    rw [empty] at inside
    cases inside

theorem Living.upcoming (first : ((candidateEvents t horizonEndMs state).map (·.atMs)).min? = some next) :
    t ≤ next ∧ next < horizonEndMs ∧ Nothing next state pool := by
  obtain ⟨member,least⟩ := List.min?_eq_some_iff.mp first
  obtain ⟨event,inside,rfl⟩ := List.mem_map.mp member
  obtain ⟨account,window,-,since,near,-⟩ := living.occurs inside
  have ahead : ∀ other ∈ candidateEvents t horizonEndMs state, event.atMs ≤ other.atMs := fun other its => least _ (List.mem_map_of_mem its)
  refine ⟨since,near,?_,?_⟩
  · intro place account window at_
    rcases lt_or_ge (pool place).emptiedAt horizonEndMs with soon | late
    · obtain ⟨other,its,-,-,same⟩ := living.empties at_ soon
      exact same ▸ ahead other its
    · exact near.le.trans late
  · intro place account window at_ x full
    rcases lt_or_ge x horizonEndMs with soon | late
    · obtain ⟨other,its,-,-,same⟩ := living.fills at_ full soon
      exact same ▸ ahead other its
    · exact near.le.trans late

end

theorem Occurs.instant {b} (occurs : Occurs now b window event) : b.Instant event.atMs := by
  rcases occurs with ⟨-,same⟩ | ⟨-,full,-⟩
  · exact same ▸ .emptied b
  · exact .full b _ full

theorem Living.together (living : Living now t state pool) (apart : Burn.Apart (burnsOf state pool) EVENT_TIE_TOLERANCE_MS horizonEndMs)
    (first : ((candidateEvents t horizonEndMs state).map (·.atMs)).min? = some next) :
    (candidateEvents t horizonEndMs state).filter (·.atMs ≤ next + EVENT_TIE_TOLERANCE_MS) =
      (candidateEvents t horizonEndMs state).filter (·.atMs = next) := by
  obtain ⟨member,least⟩ := List.min?_eq_some_iff.mp first
  obtain ⟨event,inside,rfl⟩ := List.mem_map.mp member
  obtain ⟨account,window,at_,-,near,occurs⟩ := living.occurs inside
  refine List.filter_congr (fun other its => decide_eq_decide.mpr ⟨fun within => ?_,fun same => ?_⟩)
  · have ahead : event.atMs ≤ other.atMs := least _ (List.mem_map_of_mem its)
    obtain ⟨_,_,there,-,far,happens⟩ := living.occurs its
    by_contra different
    have less := apart _ (memBurns.mpr ⟨_,_,_,at_,rfl⟩) _ (memBurns.mpr ⟨_,_,_,there,rfl⟩) _ _ occurs.instant happens.instant near far
      (lt_of_le_of_ne ahead (Ne.symm different))
    exact absurd within (not_le.mpr less)
  · have tolerance : (0 : ℚ) ≤ EVENT_TIE_TOLERANCE_MS := by norm_num [EVENT_TIE_TOLERANCE_MS]
    linarith

theorem Bankless.rework (bankless : Bankless state) : Bankless (rework change state) := by
  intro account inside
  obtain ⟨i,bound,rfl⟩ := List.mem_mapIdx.mp inside
  have kept := bankless _ (List.getElem_mem bound)
  exact kept

variable {batch : List ScanEvent} {elapsedMs : ℚ}

theorem batchApplied (bankless : Bankless state) (together : ∀ event ∈ batch, event.atMs = next)
    (creditless : ∀ event ∈ batch, event.kind ≠ .expiry) (capture : Option BaselineCapture) :
    applyBatch now horizonEndMs next batch (rework (fun _ _ => burned elapsedMs) state) capture =
      (batch.filter (·.kind = .exhaust)).foldl (applyExhaust now horizonEndMs next (emptiedPlaces batch))
        (rework (fun place _ window => if place ∈ emptiedPlaces batch then resetWindow next (burned elapsedMs window)
          else burned elapsedMs window) state,capture) ∧
    (applyBatch now horizonEndMs next batch (rework (fun _ _ => burned elapsedMs) state) capture).1 =
      rework (fun place _ => turned next elapsedMs horizonEndMs batch place) state := by
  have resets : ∀ event ∈ batch.filter (·.kind = .reset), event.atMs = next := fun event inside => together event (List.mem_filter.mp inside).1
  have expiries : batch.filter (·.kind = .expiry) = [] := by
    refine List.filter_eq_nil_iff.mpr (fun event inside => ?_)
    simpa using creditless event inside
  have applied : applyBatch now horizonEndMs next batch (rework (fun _ _ => burned elapsedMs) state) capture =
      (batch.filter (·.kind = .exhaust)).foldl (applyExhaust now horizonEndMs next (emptiedPlaces batch))
        (rework (fun place _ window => if place ∈ emptiedPlaces batch then resetWindow next (burned elapsedMs window)
          else burned elapsedMs window) state,capture) := by
    simp only [applyBatch,expiries,resetsApplied resets,modifyRework]
    rfl
  refine ⟨applied,?_⟩
  rw [applied,exhaustsApplied bankless.rework,modifyRework]
  rfl

theorem settledBurned (alive : ∀ account ∈ state, account.isAlive = true) :
    (state.map settleLags).map (fun account => { account with windows := account.windows.map (burn elapsedMs) }) =
      rework (fun _ _ => burned elapsedMs) state := by
  rw [← mapRework (fun _ => burned elapsedMs),List.map_map]
  refine List.map_congr_left (fun account inside => ?_)
  show { settleLags account with windows := (settleLags account).windows.map (burn elapsedMs) } = _
  rw [settleLags,if_pos (alive account inside),List.map_map]
  rfl

def batchAt (t horizonEndMs next : ℚ) (state : List ScanAccount) : List ScanEvent :=
  (candidateEvents t horizonEndMs state).filter (·.atMs = next)

theorem Living.emptiedAt (living : Living now t state pool) (near : next < horizonEndMs) (at_ : At state place account window) :
    place ∈ emptiedPlaces (batchAt t horizonEndMs next state) ↔ (pool place).emptiedAt = next := by
  simp only [emptiedPlaces,batchAt,List.mem_map,List.mem_filter,decide_eq_true_eq]
  constructor
  · rintro ⟨event,⟨⟨inside,rfl⟩,reset⟩,rfl⟩
    obtain ⟨_,_,-,-,-,occurs⟩ := living.occurs inside
    rcases occurs with ⟨-,same⟩ | ⟨exhaust,-⟩
    · exact same.symm
    · rw [reset] at exhaust
      cases exhaust
  · rintro rfl
    obtain ⟨event,inside,reset,same,when_⟩ := living.empties at_ near
    exact ⟨event,⟨⟨inside,when_⟩,reset⟩,same⟩

theorem Living.filledAt (living : Living now t state pool) (near : next < horizonEndMs) (at_ : At state place account window) :
    place ∈ filledPlaces (batchAt t horizonEndMs next state) ↔ (pool place).fullAt = some next ∧ (pool place).emptiedAt ≠ next := by
  rw [Ne,← living.emptiedAt near at_]
  simp only [filledPlaces,List.mem_map,List.mem_filter,decide_eq_true_eq]
  constructor
  · rintro ⟨event,⟨⟨inside,exhaust⟩,untouched⟩,rfl⟩
    obtain ⟨within,rfl⟩ := List.mem_filter.mp inside |>.imp_right of_decide_eq_true
    obtain ⟨_,_,-,-,-,occurs⟩ := living.occurs within
    rcases occurs with ⟨reset,-⟩ | ⟨-,full,-⟩
    · rw [reset] at exhaust
      cases exhaust
    · exact ⟨full,untouched⟩
  · rintro ⟨full,untouched⟩
    obtain ⟨event,inside,exhaust,rfl,when_⟩ := living.fills at_ full near
    exact ⟨event,⟨⟨List.mem_filter.mpr ⟨inside,decide_eq_true when_⟩,exhaust⟩,untouched⟩,rfl⟩

theorem Living.placed (living : Living now t state pool) (inside : event ∈ batchAt t horizonEndMs next state) :
    event.kind ≠ .expiry ∧ event.atMs = next ∧ ∃ account window, At state event.place account window ∧
      (event.kind = .exhaust → Sounds now event window) := by
  obtain ⟨within,same⟩ := List.mem_filter.mp inside
  obtain ⟨account,window,at_,-,-,occurs⟩ := living.occurs within
  refine ⟨?_,of_decide_eq_true same,account,window,at_,fun exhaust => ?_⟩
  · rcases occurs with ⟨kind,-⟩ | ⟨kind,-⟩ <;> simp [kind]
  · rcases occurs with ⟨kind,-⟩ | ⟨-,-,sounds⟩
    · rw [kind] at exhaust
      cases exhaust
    · exact sounds

structure Advanced (now horizonEndMs : ℚ) (w : Walk) (pool : Place → Burn) (next : ℚ) (after : Walk) : Prop where
  since : w.t ≤ next
  near : next < horizonEndMs
  nothing : Nothing next w.state pool
  clock : after.t = next
  hit : after.firstHit = w.firstHit
  state : after.state = rework (fun place _ => turned next (next - w.t) horizonEndMs (batchAt w.t horizonEndMs next w.state) place) w.state
  heard : ∀ capture, w.capture = some capture → deaths now capture = [] → ∃ later, after.capture = some later ∧
    Earliest (deaths now later) (if filledPlaces (batchAt w.t horizonEndMs next w.state) = [] then none else some next)

theorem Living.advanced {w} (living : Living now w.t w.state pool) (bankless : Bankless w.state)
    (apart : Burn.Apart (burnsOf w.state pool) EVENT_TIE_TOLERANCE_MS horizonEndMs) :
    (advanceWalk now horizonEndMs w = .done (stopped { w with state := w.state.map settleLags } .clear false) ∧
      Nothing horizonEndMs w.state pool) ∨
    ∃ next after, advanceWalk now horizonEndMs w = .next after ∧ Advanced now horizonEndMs w pool next after := by
  cases first : ((candidateEvents w.t horizonEndMs w.state).map (·.atMs)).min? with
  | none => exact .inl ⟨by simp only [advanceWalk,first],living.silent first⟩
  | some next =>
    obtain ⟨since,near,nothing⟩ := living.upcoming first
    have filled : (batchAt w.t horizonEndMs next w.state).map (·.atMs) ≠ [] := by
      obtain ⟨event,inside,same⟩ := List.mem_map.mp (List.min?_eq_some_iff.mp first).1
      exact List.ne_nil_of_mem (List.mem_map_of_mem (List.mem_filter.mpr ⟨inside,decide_eq_true same⟩))
    have all_ : ∀ x ∈ (batchAt w.t horizonEndMs next w.state).map (·.atMs), x = next := by
      intro x inside
      obtain ⟨event,its,rfl⟩ := List.mem_map.mp inside
      exact (living.placed its).2.1
    have last : ((batchAt w.t horizonEndMs next w.state).map (·.atMs)).max?.getD next = next := by
      cases found : ((batchAt w.t horizonEndMs next w.state).map (·.atMs)).max? with
      | none => rfl
      | some x => exact all_ x (List.max?_eq_some_iff.mp found).1
    have batch : (candidateEvents w.t horizonEndMs w.state).filter (·.atMs ≤ next + EVENT_TIE_TOLERANCE_MS) =
        batchAt w.t horizonEndMs next w.state := living.together apart first
    obtain ⟨applied,moved⟩ := @batchApplied now next horizonEndMs w.state (batchAt w.t horizonEndMs next w.state) (next - w.t) bankless
      (fun event inside => (living.placed inside).2.1) (fun event inside => (living.placed inside).1) w.capture
    refine .inr ⟨next,{ w with
      state := (applyBatch now horizonEndMs next (batchAt w.t horizonEndMs next w.state) (rework (fun _ _ => burned (next - w.t)) w.state)
        w.capture).1
      t := next
      capture := (applyBatch now horizonEndMs next (batchAt w.t horizonEndMs next w.state) (rework (fun _ _ => burned (next - w.t)) w.state)
        w.capture).2 },?_,since,near,nothing,rfl,rfl,moved,?_⟩
    · simp only [advanceWalk,first,batch,last,settledBurned living.alive]
    · intro capture its silent
      have sounds : ∀ event ∈ (batchAt w.t horizonEndMs next w.state).filter (·.kind = .exhaust),
          event.place ∉ emptiedPlaces (batchAt w.t horizonEndMs next w.state) → ∃ account window,
            (rework (fun place _ window => if place ∈ emptiedPlaces (batchAt w.t horizonEndMs next w.state) then
              resetWindow next (burned (next - w.t) window) else burned (next - w.t) window) w.state)[event.account]? = some account ∧
            account.windows[event.window]? = some window ∧ Sounds now event window := by
        intro event inside untouched
        obtain ⟨within,exhaust⟩ := List.mem_filter.mp inside
        obtain ⟨-,-,account,window,at_,sounds⟩ := living.placed within
        obtain ⟨after,there,-⟩ := @atRework _ _ _ _ (fun place _ window =>
          if place ∈ emptiedPlaces (batchAt w.t horizonEndMs next w.state) then resetWindow next (burned (next - w.t) window)
          else burned (next - w.t) window) at_
        refine ⟨after,_,there.owner,there.held,?_⟩
        obtain ⟨pct,whole⟩ := burnedKeeps (next - w.t) window
        rw [if_neg untouched,whole]
        exact sounds (of_decide_eq_true exhaust)
      rw [applied]
      obtain ⟨later,told,earliest⟩ := @exhaustsFirst _ now horizonEndMs next _ capture next (_,w.capture) its silent
        (fun event inside => (living.placed (List.mem_filter.mp inside).1).2.1) sounds
      refine ⟨later,told,?_⟩
      simpa only [filledPlaces,List.map_eq_nil_iff] using earliest

end Clankermux.RunwayScenario
