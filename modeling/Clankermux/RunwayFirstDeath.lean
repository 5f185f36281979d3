import Clankermux.CapacityRunway
import Clankermux.PeriodicBurn
import Mathlib.Tactic.Positivity

/-! The first dead instant of the pool at fixed slopes: the windows that project are burns, and
their dead intervals begin where these are first full. -/
namespace Clankermux.CapacityRunway

/-- The window that a reading tells of, at its measured slope. What has filled before `now` is full at `now`. -/
def burnOf (now : ℚ) (window : RunwayWindowInput) : Burn :=
  let estimate := estimateWindowExhaustion window now
  let resetsAtMs := window.resetsAtMs.getD now
  { fullAt := estimate.exhaustsAtMs.map (max now ·)
    emptiedAt := resetsAtMs
    period := resetsAtMs - window.windowStartMs.getD resetsAtMs
    timeToFull := (estimate.slopePctPerHour.filter (0 < ·)).map (100 / · * HOUR_MS) }

structure Projects (now : ℚ) (window : RunwayWindowInput) : Prop where
  readable : (estimateWindowExhaustion window now).source ≠ .none
  unspent : (estimateWindowExhaustion window now).source ≠ .alreadyExhausted
  mature : isLearningEstimate (estimateWindowExhaustion window now) window.utilizationPct = false

/-- An estimate that burns states its ETA, and the instant it is measured from, back-solved from the ETA, is not
ahead of `now`. -/
def MeasuredBy (now : ℚ) (window : RunwayWindowInput) : Prop :=
  ∀ slope, (estimateWindowExhaustion window now).slopePctPerHour = some slope → 0 < slope →
    ∃ exhaustsAtMs, (estimateWindowExhaustion window now).exhaustsAtMs = some exhaustsAtMs ∧
      exhaustsAtMs - (100 - window.utilizationPct) / slope * HOUR_MS ≤ now

variable {window : RunwayWindowInput} {now horizonEndMs : ℚ}

structure Guarded (now : ℚ) (window : RunwayWindowInput) (windowStartMs resetsAtMs slope : ℚ) : Prop where
  starts : window.windowStartMs = some windowStartMs
  resets : window.resetsAtMs = some resetsAtMs
  live : now < resetsAtMs
  ordered : windowStartMs < resetsAtMs
  unfilled : window.utilizationPct < 100
  used : 0 < window.utilizationPct
  slopes : (estimateWindowExhaustion window now).slopePctPerHour = some slope
  falls : 0 ≤ slope
  flat : slope = 0 → (estimateWindowExhaustion window now).exhaustsAtMs = none

theorem lifetimeSlopes {source low} {pct measuredAt windowStartMs : ℚ} {active}
    (used : 0 < pct) (elapsed : active = none → windowStartMs < measuredAt) :
    ∃ slope, (lifetimeEstimate source low pct measuredAt windowStartMs active).slopePctPerHour = some slope ∧ 0 ≤ slope ∧
      (slope = 0 → (lifetimeEstimate source low pct measuredAt windowStartMs active).exhaustsAtMs = none) := by
  cases active with
  | none =>
    have span : 0 < measuredAt - windowStartMs := sub_pos.mpr (elapsed rfl)
    have positive : 0 < pct / (measuredAt - windowStartMs) * HOUR_MS := mul_pos (div_pos used span) hourPositive
    exact ⟨_,rfl,positive.le,fun zero => absurd zero positive.ne'⟩
  | some anchor =>
    by_cases held : pct - anchor.anchorPct ≤ 0 ∨ measuredAt - anchor.anchorMs ≤ 0
    · simp only [lifetimeEstimate,if_pos held]
      exact ⟨0,rfl,le_rfl,fun _ => trivial⟩
    · obtain ⟨burned,span⟩ := not_or.mp held
      have positive : 0 < (pct - anchor.anchorPct) / (measuredAt - anchor.anchorMs) * HOUR_MS :=
        mul_pos (div_pos (not_le.mp burned) (not_le.mp span)) hourPositive
      simp only [lifetimeEstimate,if_neg held]
      exact ⟨_,rfl,positive.le,fun zero => absurd zero positive.ne'⟩

theorem Projects.guarded (projects : Projects now window) : ∃ windowStartMs resetsAtMs slope, Guarded now window windowStartMs resetsAtMs slope := by
  obtain ⟨readable,unspent,mature⟩ := projects
  have used : 0 < window.utilizationPct := by
    by_contra empty
    simp [isLearningEstimate,not_lt.mp empty] at mature
  have unfilled : window.utilizationPct < 100 := by
    by_contra full
    exact unspent (by simp [estimateWindowExhaustion,not_lt.mp full])
  have here : ¬ window.utilizationPct ≥ 100 := not_le.mpr unfilled
  cases starts : window.windowStartMs with
  | none => exact absurd (by simp [estimateWindowExhaustion,here,starts,NO_EVIDENCE]) readable
  | some windowStartMs =>
    cases resets : window.resetsAtMs with
    | none => exact absurd (by simp [estimateWindowExhaustion,here,resets,NO_EVIDENCE]) readable
    | some resetsAtMs =>
      have live : ¬ resetsAtMs ≤ now := fun stale => readable (by simp [estimateWindowExhaustion,here,starts,resets,stale,NO_EVIDENCE])
      have ordered : ¬ windowStartMs ≥ resetsAtMs := fun swapped =>
        readable (by simp [estimateWindowExhaustion,here,starts,resets,swapped,NO_EVIDENCE])
      have guards : ∀ slope, (estimateWindowExhaustion window now).slopePctPerHour = some slope ∧ 0 ≤ slope ∧
          (slope = 0 → (estimateWindowExhaustion window now).exhaustsAtMs = none) → Guarded now window windowStartMs resetsAtMs slope :=
        fun slope told => ⟨starts,resets,not_le.mp live,not_le.mp ordered,unfilled,used,told.1,told.2.1,told.2.2⟩
      suffices told : ∃ slope, (estimateWindowExhaustion window now).slopePctPerHour = some slope ∧ 0 ≤ slope ∧
          (slope = 0 → (estimateWindowExhaustion window now).exhaustsAtMs = none) by
        obtain ⟨slope,told⟩ := told
        exact ⟨_,_,_,guards slope told⟩
      simp only [estimateWindowExhaustion,here,starts,resets,live,ordered,not_le.mpr used,if_false] at readable ⊢
      cases usable : window.prediction.filter (isUsablePrediction · (some resetsAtMs)) with
      | some prediction => exact ⟨_,rfl,le_max_left _ _,fun zero => by simp [regressionEstimate,zero]⟩
      | none =>
        cases observed : window.observedAtMs.filter (fun observedAtMs => window.lifetimeConfidence = .full ∧ observedAtMs > windowStartMs) with
        | some observedAtMs =>
          have after := (Option.filter_eq_some_iff.mp observed).2
          exact lifetimeSlopes used (fun _ => (of_decide_eq_true after).2)
        | none =>
          by_cases early : activeAnchor window resetsAtMs windowStartMs = none ∧ now - windowStartMs ≤ 0
          · simp only [usable,observed,if_pos early] at readable
            exact absurd rfl readable
          · simp only [if_neg early]
            exact lifetimeSlopes used (fun none_ => sub_pos.mp (not_le.mp (fun stale => early ⟨none_,stale⟩)))

variable {windowStartMs resetsAtMs slope : ℚ}

theorem Guarded.emptied (guarded : Guarded now window windowStartMs resetsAtMs slope) : (burnOf now window).emptiedAt = resetsAtMs := by
  simp [burnOf,guarded.resets]

theorem Guarded.cycle (guarded : Guarded now window windowStartMs resetsAtMs slope) :
    (burnOf now window).period = resetsAtMs - windowStartMs := by
  simp [burnOf,guarded.resets,guarded.starts]

theorem Guarded.fills (guarded : Guarded now window windowStartMs resetsAtMs slope) :
    (burnOf now window).timeToFull = if 0 < slope then some (100 / slope * HOUR_MS) else none := by
  by_cases burns : 0 < slope
  · simp [burnOf,guarded.slopes,burns]
  · simp [burnOf,guarded.slopes,Option.filter]

theorem fillPositive (burns : 0 < slope) : 0 < 100 / slope * HOUR_MS := mul_pos (div_pos (by norm_num) burns) hourPositive

theorem Guarded.full (guarded : Guarded now window windowStartMs resetsAtMs slope) (measured : MeasuredBy now window) :
    (slope = 0 ∧ (estimateWindowExhaustion window now).exhaustsAtMs = none) ∨
    (0 < slope ∧ ∃ exhaustsAtMs, (estimateWindowExhaustion window now).exhaustsAtMs = some exhaustsAtMs ∧
      exhaustsAtMs - (100 - window.utilizationPct) / slope * HOUR_MS ≤ now) := by
  rcases guarded.falls.eq_or_lt with zero | burns
  · exact .inl ⟨zero.symm,guarded.flat zero.symm⟩
  · exact .inr ⟨burns,measured slope guarded.slopes burns⟩

def Heads (windowKind : String) (intervals : List WindowDeadInterval) : Option ℚ → Prop
  | none => intervals = []
  | some t => ∃ head rest, intervals = head::rest ∧ head.windowKind = windowKind ∧ head.startMs = t ∧ t < head.endMs ∧
      ∀ interval ∈ rest, t < interval.startMs
variable {windowKind : String} {startMs endMs : ℚ} {r : WindowsRead} {t : ℚ}

theorem clampedStarts :
    ∀ interval ∈ clamped windowKind now horizonEndMs startMs endMs, startMs ≤ interval.startMs := by
  intro interval inside
  simp only [clamped] at inside
  split at inside
  · cases List.mem_singleton.mp inside
    exact le_max_left _ _
  · cases inside

theorem clampedHead (windowKind : String) (live : now < endMs) (ordered : startMs < endMs)
    (within : max now startMs < horizonEndMs) :
    ∃ head, clamped windowKind now horizonEndMs startMs endMs = [head] ∧ head.windowKind = windowKind ∧
      head.startMs = max now startMs ∧ max now startMs < head.endMs := by
  have filled : min endMs horizonEndMs > max startMs now := lt_min (max_lt ordered live) (max_comm startMs now ▸ within)
  exact ⟨_,by rw [clamped,if_pos filled],rfl,max_comm _ _,max_comm startMs now ▸ filled⟩

theorem clampedNone (beyond : horizonEndMs ≤ max now startMs) :
    clamped windowKind now horizonEndMs startMs endMs = [] := by
  have empty : ¬ min endMs horizonEndMs > max startMs now :=
    not_lt.mpr ((min_le_right _ _).trans (max_comm now startMs ▸ beyond))
  rw [clamped,if_neg empty]

theorem projectedStarts {durationMs timeToFullMs : ℚ} (lasts : 0 ≤ durationMs) (bound cycle : Nat) :
    ∀ interval ∈ projectedCycles windowKind now horizonEndMs resetsAtMs durationMs timeToFullMs bound cycle,
      resetsAtMs + cycle * durationMs + timeToFullMs ≤ interval.startMs := by
  induction bound generalizing cycle with
  | zero => exact nofun
  | succ bound ih =>
    intro interval inside
    rw [projectedCycles] at inside
    split at inside
    · cases inside
    · rcases List.mem_append.mp inside with first | later
      · exact clampedStarts interval first
      · have after := ih (cycle+1) interval later
        push_cast at after
        linarith

theorem laterStarts (burns : 0 < slope) :
    ∀ interval ∈ laterIntervals window.windowKind now horizonEndMs resetsAtMs windowStartMs (some slope),
      resetsAtMs + 100 / slope * HOUR_MS ≤ interval.startMs := by
  intro interval inside
  simp only [laterIntervals,not_le.mpr burns,if_false] at inside
  split at inside
  · cases inside
  · rename_i lasts
    split at inside
    · cases inside
    · simpa using projectedStarts (not_le.mp lasts).le MAX_PROJECTED_CYCLES 0 interval inside

theorem cyclesLeft : MAX_PROJECTED_CYCLES = 4095 + 1 := rfl

theorem laterNone (beyond : horizonEndMs ≤ resetsAtMs + 100 / slope * HOUR_MS) :
    laterIntervals window.windowKind now horizonEndMs resetsAtMs windowStartMs (some slope) = [] := by
  simp only [laterIntervals]
  split
  · rfl
  · split
    · rfl
    · rw [cyclesLeft,projectedCycles]
      simp [beyond]

theorem laterHeads (live : now < resetsAtMs) (ordered : windowStartMs < resetsAtMs) (burns : 0 < slope) :
    Heads window.windowKind (laterIntervals window.windowKind now horizonEndMs resetsAtMs windowStartMs (some slope))
      ((((some (100 / slope * HOUR_MS)).filter (· < resetsAtMs - windowStartMs)).map (resetsAtMs + ·)).filter (· < horizonEndMs)) := by
  by_cases within : 100 / slope * HOUR_MS < resetsAtMs - windowStartMs
  · by_cases near : resetsAtMs + 100 / slope * HOUR_MS < horizonEndMs
    · have positive := fillPositive burns
      have lasts : 0 < resetsAtMs - windowStartMs := sub_pos.mpr ordered
      have start : max now (resetsAtMs + 100 / slope * HOUR_MS) = resetsAtMs + 100 / slope * HOUR_MS := max_eq_right (by linarith)
      have ends : resetsAtMs + 100 / slope * HOUR_MS < resetsAtMs + (resetsAtMs - windowStartMs) := by linarith
      obtain ⟨head,first,kind,at_,ends⟩ := clampedHead window.windowKind (by linarith) ends (start.symm ▸ near)
      rw [start] at at_ ends
      have whole : laterIntervals window.windowKind now horizonEndMs resetsAtMs windowStartMs (some slope) =
          head::projectedCycles window.windowKind now horizonEndMs resetsAtMs (resetsAtMs - windowStartMs) (100 / slope * HOUR_MS) 4095 1 := by
        simp only [laterIntervals,if_neg (not_le.mpr burns),if_neg (not_le.mpr lasts),if_neg (not_not.mpr within)]
        rw [cyclesLeft,projectedCycles]
        simp [not_le.mpr near,first]
      simp only [within,near,Option.filter,decide_true,if_true,Option.map_some]
      refine ⟨head,_,whole,kind,at_,ends,fun interval inside => ?_⟩
      have after := projectedStarts lasts.le 4095 1 interval inside
      linarith
    · simp only [within,near,Option.filter,decide_true,if_true,Option.map_some]
      exact laterNone (not_lt.mp near)
  · simp only [Option.filter]
    simp [Heads,laterIntervals,within]

theorem deadHeads (projects : Projects now window) (measured : MeasuredBy now window) :
    Heads window.windowKind (windowDeadIntervals window (estimateWindowExhaustion window now) now horizonEndMs)
      ((burnOf now window).firstFullAt.filter (· < horizonEndMs)) := by
  obtain ⟨windowStartMs,resetsAtMs,slope,guarded⟩ := projects.guarded
  have emptied := guarded.emptied
  have cycle := guarded.cycle
  have fills := guarded.fills
  rcases guarded.full measured with ⟨zero,none_⟩ | ⟨burns,exhaustsAtMs,its,-⟩
  · have full : (burnOf now window).fullAt = none := by simp [burnOf,none_]
    rw [if_neg (by simp [zero])] at fills
    rw [Burn.firstFullLate (by simp [full]),fills]
    simp [Heads,windowDeadIntervals,projects.unspent,none_]
  · have full : (burnOf now window).fullAt = some (max now exhaustsAtMs) := by simp [burnOf,its]
    rw [if_pos burns] at fills
    have whole : windowDeadIntervals window (estimateWindowExhaustion window now) now horizonEndMs =
        (if exhaustsAtMs < resetsAtMs then clamped window.windowKind now horizonEndMs exhaustsAtMs resetsAtMs else []) ++
          laterIntervals window.windowKind now horizonEndMs resetsAtMs windowStartMs (some slope) := by
      simp [windowDeadIntervals,projects.unspent,its,guarded.resets,guarded.starts,guarded.slopes]
    by_cases soon : exhaustsAtMs < resetsAtMs
    · -- it is dead in its own cycle
      have before : max now exhaustsAtMs < resetsAtMs := max_lt guarded.live soon
      rw [Burn.firstFullSoon full (emptied.symm ▸ before),whole,if_pos soon]
      by_cases near : max now exhaustsAtMs < horizonEndMs
      · obtain ⟨head,first,kind,at_,ends⟩ := clampedHead window.windowKind guarded.live soon near
        simp only [near,Option.filter]
        refine ⟨head,_,by rw [first]; rfl,kind,at_,ends,fun interval inside => ?_⟩
        have after := laterStarts burns interval inside
        have positive := fillPositive burns
        linarith
      · have positive := fillPositive burns
        simp only [near,Option.filter]
        rw [clampedNone (not_lt.mp near),laterNone (by linarith [not_lt.mp near])]
        rfl
    · have late : ∀ t, (burnOf now window).fullAt = some t → (burnOf now window).emptiedAt ≤ t := by
        intro t its
        rw [full] at its
        cases its
        rw [emptied]
        exact (not_lt.mp soon).trans (le_max_right _ _)
      rw [Burn.firstFullLate late,fills,cycle,emptied,whole,if_neg soon]
      exact laterHeads guarded.live guarded.ordered burns

def readableWindows (now : ℚ) (account : RunwayAccountInput) : List RunwayWindowInput :=
  account.windows.filter fun window => (estimateWindowExhaustion window now).source ≠ .none

/-- A metered account without credits, whose readable windows all project from no later than `now`. -/
structure Plain (now : ℚ) (account : RunwayAccountInput) : Prop where
  metered : account.unmetered = false
  bankless : account.codexResetCredits = none
  projects : ∀ window ∈ readableWindows now account, Projects now window
  measured : ∀ window ∈ readableWindows now account, MeasuredBy now window

def accountBurns (now : ℚ) (account : RunwayAccountInput) : List Burn := (readableWindows now account).map (burnOf now)

def poolBurns (now : ℚ) (accounts : List RunwayAccountInput) : List Burn := accounts.flatMap (accountBurns now)

def deadIntervalsOf (now horizonEndMs : ℚ) (window : RunwayWindowInput) : List WindowDeadInterval :=
  windowDeadIntervals window (estimateWindowExhaustion window now) now horizonEndMs

def accountIntervals (now horizonEndMs : ℚ) (account : RunwayAccountInput) : List WindowDeadInterval :=
  (readableWindows now account).flatMap (deadIntervalsOf now horizonEndMs)

def deadStarts (accounts : List RunwayAccountInput) (now horizonEndMs : ℚ) : List ℚ :=
  (buildPool accounts now horizonEndMs 1 none).pooled.flatMap fun account => account.windowIntervals.map (·.startMs)

variable {account : RunwayAccountInput} {accounts : List RunwayAccountInput}

theorem readUnreadable (blind : (estimateWindowExhaustion window now).source = .none) :
    readWindow false now horizonEndMs 1 none r window = r := by
  simp [readWindow,scaleEstimatePace,blind]

theorem readProjecting (projects : Projects now window) :
    readWindow false now horizonEndMs 1 none r window =
      { r with readable := true,windowIntervals := r.windowIntervals ++ deadIntervalsOf now horizonEndMs window } := by
  simp [readWindow,scaleEstimatePace,projects.readable,projects.mature,deadIntervalsOf]

theorem readWindows {windows : List RunwayWindowInput}
    (projects : ∀ window ∈ windows, (estimateWindowExhaustion window now).source ≠ .none → Projects now window) :
    windows.foldl (readWindow false now horizonEndMs 1 none) r =
      let readable := windows.filter fun window => (estimateWindowExhaustion window now).source ≠ .none
      { r with
        readable := r.readable || !readable.isEmpty
        windowIntervals := r.windowIntervals ++ readable.flatMap (deadIntervalsOf now horizonEndMs) } := by
  induction windows generalizing r with
  | nil => simp
  | cons window windows ih =>
    have rest := fun r => @ih r (fun other inside => projects other (.tail _ inside))
    rw [List.foldl_cons,rest]
    by_cases blind : (estimateWindowExhaustion window now).source = .none
    · rw [readUnreadable blind]
      simp [blind]
    · rw [readProjecting (projects window (.head _) blind)]
      simp [blind]

theorem Plain.read (plain : Plain now account) :
    account.windows.foldl (readWindow account.codexResetCredits.isSome now horizonEndMs 1 none) {} =
      { readable := !(readableWindows now account).isEmpty,windowIntervals := accountIntervals now horizonEndMs account } := by
  rw [plain.bankless]
  refine (readWindows fun window inside readable => ?_).trans (by simp [accountIntervals,readableWindows])
  exact plain.projects window (List.mem_filter.mpr ⟨inside,decide_eq_true readable⟩)

def pooledOf (now horizonEndMs : ℚ) (accounts : List RunwayAccountInput) : List PooledAccount :=
  (accounts.filter fun account => !(readableWindows now account).isEmpty).map fun account =>
    pooledAccount account.accountId (accountIntervals now horizonEndMs account)

theorem poolPlain {b : PoolBuild} (plain : Plain now account) :
    poolAccount now horizonEndMs 1 none b account =
      if (readableWindows now account).isEmpty then
        { b with unprojectableAccountIds := b.unprojectableAccountIds ++ [account.accountId] }
      else { b with pooled := b.pooled ++ [pooledAccount account.accountId (accountIntervals now horizonEndMs account)] } := by
  simp only [poolAccount,plain.metered,plain.read]
  by_cases blind : (readableWindows now account).isEmpty
  · simp
  · simp

theorem buildPlain (plain : ∀ account ∈ accounts, Plain now account) :
    (buildPool accounts now horizonEndMs 1 none).pooled = pooledOf now horizonEndMs accounts ∧
      (buildPool accounts now horizonEndMs 1 none).learningAccountIds = [] := by
  suffices folded : ∀ b,
      (accounts.foldl (poolAccount now horizonEndMs 1 none) b).pooled = b.pooled ++ pooledOf now horizonEndMs accounts ∧
        (accounts.foldl (poolAccount now horizonEndMs 1 none) b).learningAccountIds = b.learningAccountIds by
    simpa [buildPool] using folded {}
  induction accounts with
  | nil => simp [pooledOf]
  | cons account accounts ih =>
    intro b
    have rest := ih (fun other inside => plain other (.tail _ inside))
    rw [List.foldl_cons,poolPlain (plain account (.head _))]
    by_cases blind : (readableWindows now account).isEmpty
    · rw [if_pos blind]
      simpa [pooledOf,blind] using rest _
    · rw [if_neg blind]
      have added := rest { b with pooled := b.pooled ++ [pooledAccount account.accountId (accountIntervals now horizonEndMs account)] }
      simpa [pooledOf,blind] using added

theorem Plain.heads (plain : Plain now account) (horizonEndMs : ℚ) (inside : window ∈ readableWindows now account) :
    Heads window.windowKind (deadIntervalsOf now horizonEndMs window) ((burnOf now window).firstFullAt.filter (· < horizonEndMs)) :=
  deadHeads (plain.projects window inside) (plain.measured window inside)

theorem accountStarts (plain : Plain now account) (horizonEndMs : ℚ) :
    (∀ interval ∈ accountIntervals now horizonEndMs account, ∃ t ∈ firstFulls horizonEndMs (accountBurns now account), t ≤ interval.startMs) ∧
      ∀ t ∈ firstFulls horizonEndMs (accountBurns now account), ∃ interval ∈ accountIntervals now horizonEndMs account,
        interval.startMs = t ∧ t < interval.endMs := by
  constructor
  · intro interval inside
    obtain ⟨window,readable,its⟩ := List.mem_flatMap.mp inside
    have heads := plain.heads horizonEndMs readable
    cases first : (burnOf now window).firstFullAt.filter (· < horizonEndMs) with
    | none =>
      rw [first] at heads
      rw [show deadIntervalsOf now horizonEndMs window = [] from heads] at its
      cases its
    | some t =>
      rw [first] at heads
      obtain ⟨head,rest,whole,-,at_,-,later⟩ := heads
      refine ⟨t,List.mem_filterMap.mpr ⟨_,List.mem_map_of_mem readable,first⟩,?_⟩
      rw [whole] at its
      rcases List.mem_cons.mp its with rfl | tail
      · exact at_.ge
      · exact (later interval tail).le
  · intro t inside
    obtain ⟨b,its,first⟩ := List.mem_filterMap.mp inside
    obtain ⟨window,readable,rfl⟩ := List.mem_map.mp its
    have heads := plain.heads horizonEndMs readable
    rw [first] at heads
    obtain ⟨head,rest,whole,-,at_,ends,-⟩ := heads
    exact ⟨head,List.mem_flatMap.mpr ⟨window,readable,whole ▸ (.head _)⟩,at_,ends⟩

theorem blindIntervals (blind : (readableWindows now account).isEmpty) : accountIntervals now horizonEndMs account = [] := by
  simp [accountIntervals,List.isEmpty_iff.mp blind]

theorem memDeadStarts (plain : ∀ account ∈ accounts, Plain now account) {x : ℚ} :
    x ∈ deadStarts accounts now horizonEndMs ↔
      ∃ account ∈ accounts, ∃ interval ∈ accountIntervals now horizonEndMs account, interval.startMs = x := by
  simp only [deadStarts,(buildPlain plain).1,pooledOf,List.mem_flatMap,List.mem_map,List.mem_filter]
  constructor
  · rintro ⟨_,⟨account,⟨inside,-⟩,rfl⟩,interval,its,same⟩
    exact ⟨account,inside,interval,its,same⟩
  · rintro ⟨account,inside,interval,its,same⟩
    refine ⟨_,⟨account,⟨inside,?_⟩,rfl⟩,interval,its,same⟩
    by_contra blind
    rw [blindIntervals (by simpa using blind)] at its
    cases its

theorem deadStartsEarliest (plain : ∀ account ∈ accounts, Plain now account) :
    Earliest (deadStarts accounts now horizonEndMs) (firstFulls horizonEndMs (poolBurns now accounts)).min? := by
  have earliest := earliestMinimum (firstFulls horizonEndMs (poolBurns now accounts))
  have spread : ∀ t, t ∈ firstFulls horizonEndMs (poolBurns now accounts) ↔
      ∃ account ∈ accounts, t ∈ firstFulls horizonEndMs (accountBurns now account) := by
    intro t
    simp only [firstFulls,poolBurns,List.mem_filterMap,List.mem_flatMap]
    constructor
    · rintro ⟨b,⟨account,inside,its⟩,first⟩
      exact ⟨account,inside,b,its,first⟩
    · rintro ⟨account,inside,b,its,first⟩
      exact ⟨b,⟨account,inside,its⟩,first⟩
  cases first : (firstFulls horizonEndMs (poolBurns now accounts)).min? with
  | none =>
    rw [first] at earliest
    refine List.eq_nil_iff_forall_not_mem.mpr (fun x begins => ?_)
    obtain ⟨account,inside,interval,its,-⟩ := (memDeadStarts plain).mp begins
    obtain ⟨t,full,-⟩ := (accountStarts (plain account inside) horizonEndMs).1 interval its
    have none_ : t ∈ firstFulls horizonEndMs (poolBurns now accounts) := (spread t).mpr ⟨account,inside,full⟩
    rw [show firstFulls horizonEndMs (poolBurns now accounts) = [] from earliest] at none_
    cases none_
  | some t =>
    rw [first] at earliest
    obtain ⟨full,least⟩ := earliest
    constructor
    · obtain ⟨account,inside,its⟩ := (spread t).mp full
      obtain ⟨interval,begins,at_,-⟩ := (accountStarts (plain account inside) horizonEndMs).2 t its
      exact (memDeadStarts plain).mpr ⟨account,inside,interval,begins,at_⟩
    · intro x begins
      obtain ⟨account,inside,interval,its,rfl⟩ := (memDeadStarts plain).mp begins
      obtain ⟨s,earlier,le⟩ := (accountStarts (plain account inside) horizonEndMs).1 interval its
      exact (least s ((spread s).mpr ⟨account,inside,earlier⟩)).trans le

theorem mergeStarts {current : DeadInterval} {rest} :
    ∀ u ∈ mergeInto current rest, u.startMs = current.startMs ∨ ∃ interval ∈ rest, interval.startMs = u.startMs := by
  induction rest generalizing current with
  | nil => simp [mergeInto]
  | cons next rest ih =>
    intro u inside
    rw [mergeInto] at inside
    split at inside
    · rcases ih u inside with same | ⟨interval,its,same⟩
      · exact .inl same
      · exact .inr ⟨interval,.tail _ its,same⟩
    · rcases List.mem_cons.mp inside with rfl | later
      · exact .inl rfl
      · rcases ih u later with same | ⟨interval,its,same⟩
        · exact .inr ⟨next,.head _,same.symm⟩
        · exact .inr ⟨interval,.tail _ its,same⟩

theorem mergeCovers {current : DeadInterval} {rest}
    (sorted : (current::rest).Pairwise fun a b => a.startMs ≤ b.startMs) (covered : ∃ interval ∈ current::rest, interval.covers t = true) :
    ∃ u ∈ mergeInto current rest, u.startMs ≤ t ∧ u.covers t = true := by
  induction rest generalizing current with
  | nil =>
    obtain ⟨interval,inside,covers⟩ := covered
    exact ⟨interval,inside,(of_decide_eq_true covers).1,covers⟩
  | cons next rest ih =>
    obtain ⟨below,tail⟩ := List.pairwise_cons.mp sorted
    rw [mergeInto]
    split
    · -- the merged span covers what either of the two does
      have merged : ({ current with endMs := max current.endMs next.endMs }::rest).Pairwise fun a b => a.startMs ≤ b.startMs :=
        List.pairwise_cons.mpr ⟨fun other inside => below other (.tail _ inside),(List.pairwise_cons.mp tail).2⟩
      refine ih merged ?_
      obtain ⟨interval,inside,covers⟩ := covered
      have both := of_decide_eq_true covers
      rcases List.mem_cons.mp inside with rfl | inside
      · exact ⟨_,.head _,decide_eq_true ⟨both.1,both.2.trans_le (le_max_left _ _)⟩⟩
      · rcases List.mem_cons.mp inside with rfl | inside
        · exact ⟨_,.head _,decide_eq_true ⟨(below _ (.head _)).trans both.1,both.2.trans_le (le_max_right _ _)⟩⟩
        · exact ⟨interval,.tail _ inside,covers⟩
    · obtain ⟨interval,inside,covers⟩ := covered
      rcases List.mem_cons.mp inside with rfl | inside
      · exact ⟨_,.head _,(of_decide_eq_true covers).1,covers⟩
      · obtain ⟨u,its,told⟩ := ih tail ⟨interval,inside,covers⟩
        exact ⟨u,.tail _ its,told⟩

theorem unionStarts {intervals : List DeadInterval} : ∀ u ∈ unionIntervals intervals, ∃ interval ∈ intervals, interval.startMs = u.startMs := by
  intro u inside
  rw [unionIntervals] at inside
  have members : ∀ interval, interval ∈ intervals.insertionSort (·.startMs ≤ ·.startMs) → interval ∈ intervals :=
    fun interval => (List.mem_insertionSort _).mp
  split at inside
  · cases inside
  · rename_i first rest whole
    rw [whole] at members
    rcases mergeStarts u inside with same | ⟨interval,its,same⟩
    · exact ⟨first,members _ (.head _),same.symm⟩
    · exact ⟨interval,members _ (.tail _ its),same⟩

theorem unionCovers {intervals : List DeadInterval} (covered : ∃ interval ∈ intervals, interval.covers t = true) :
    ∃ u ∈ unionIntervals intervals, u.startMs ≤ t ∧ u.covers t = true := by
  obtain ⟨interval,inside,covers⟩ := covered
  have sorted := List.pairwise_insertionSort (fun a b : DeadInterval => a.startMs ≤ b.startMs) intervals
  have member := (List.mem_insertionSort (fun a b : DeadInterval => a.startMs ≤ b.startMs)).mpr inside
  rw [unionIntervals]
  split
  · rename_i none_
    rw [none_] at member
    cases member
  · rename_i first rest whole
    rw [whole] at sorted member
    exact mergeCovers sorted ⟨interval,member,covers⟩

theorem findLeast {instants : List ℚ} {p} (sorted : instants.Pairwise (· ≤ ·)) (inside : t ∈ instants) (holds : p t = true)
    (least : ∀ x ∈ instants, p x = true → t ≤ x) : instants.find? p = some t := by
  induction instants with
  | nil => cases inside
  | cons x rest ih =>
    obtain ⟨below,tail⟩ := List.pairwise_cons.mp sorted
    by_cases first : p x = true
    · have le := least x (.head _) first
      rcases List.mem_cons.mp inside with rfl | later
      · simp [first]
      · rw [le_antisymm le (below t later),List.find?_cons_of_pos first]
    · rw [List.find?_cons_of_neg first]
      rcases List.mem_cons.mp inside with rfl | later
      · exact absurd holds first
      · exact ih tail later (fun y its => least y (.tail _ its))

theorem allOutAlone {accountId : String} {intervals} (live : now ≤ t) (near : t < horizonEndMs)
    (least : ∀ interval ∈ intervals, t ≤ interval.startMs) (begins : ∃ interval ∈ intervals, interval.startMs = t ∧ t < interval.endMs) :
    firstAllOut [pooledAccount accountId intervals] now horizonEndMs =
      some ⟨t,(intervals.filter (·.covers t)).map fun interval => ⟨accountId,interval.windowKind⟩⟩ := by
  have bounds : ∀ u ∈ unionIntervals (intervals.map (·.toDeadInterval)), t ≤ u.startMs := by
    intro u inside
    obtain ⟨interval,its,same⟩ := unionStarts u inside
    obtain ⟨source,member,rfl⟩ := List.mem_map.mp its
    exact same ▸ least source member
  obtain ⟨head,inside,at_,ends⟩ := begins
  obtain ⟨u,member,starts,covers⟩ := @unionCovers t (intervals.map (·.toDeadInterval))
    ⟨_,List.mem_map_of_mem inside,decide_eq_true ⟨at_.le,ends⟩⟩
  have same : u.startMs = t := le_antisymm starts (bounds u member)
  have found : (candidateInstants [pooledAccount accountId intervals] now horizonEndMs).find?
      (fun t => [pooledAccount accountId intervals].all fun account => isDeadAt account.union t) = some t := by
    refine findLeast (List.pairwise_insertionSort _ _) ?_ ?_ ?_
    · simp only [candidateInstants,List.mem_insertionSort,List.mem_dedup,List.mem_cons,List.flatMap_cons,List.flatMap_nil,List.append_nil]
      exact .inr (List.mem_filter.mpr ⟨List.mem_map.mpr ⟨u,member,same⟩,decide_eq_true ⟨live,near⟩⟩)
    · simp only [List.all_cons,List.all_nil,Bool.and_true]
      exact List.any_eq_true.mpr ⟨u,member,covers⟩
    · intro x _ dead
      simp only [List.all_cons,List.all_nil,Bool.and_true] at dead
      obtain ⟨v,its,covered⟩ := List.any_eq_true.mp dead
      exact (bounds v its).trans (of_decide_eq_true covered).1
  rw [firstAllOut,found]
  simp [causesAt,pooledAccount]

theorem allOutNever {accountId : String} : firstAllOut [pooledAccount accountId []] now horizonEndMs = none := by
  rw [firstAllOut,Option.map_eq_none_iff,List.find?_eq_none]
  intro t _
  simp [pooledAccount,unionIntervals,isDeadAt]

def fullWindows (now t : ℚ) (account : RunwayAccountInput) : List RunwayCause :=
  ((readableWindows now account).filter fun window => (burnOf now window).firstFullAt = some t).map fun window =>
    ⟨account.accountId,window.windowKind⟩

theorem headsCovering {windowKind accountId} {intervals : List WindowDeadInterval} {first}
    (heads : Heads windowKind intervals first) (least : ∀ x, first = some x → t ≤ x) :
    (intervals.filter (·.covers t)).map (fun interval => (⟨accountId,interval.windowKind⟩ : RunwayCause)) =
      if first = some t then [⟨accountId,windowKind⟩] else [] := by
  cases first with
  | none => rw [show intervals = [] from heads]; rfl
  | some x =>
    obtain ⟨head,rest,rfl,rfl,at_,ends,later⟩ := heads
    have le := least x rfl
    have tail : rest.filter (·.covers t) = [] := by
      refine List.filter_eq_nil_iff.mpr (fun interval inside covered => ?_)
      exact absurd ((of_decide_eq_true covered).1.trans le) (not_le.mpr (later interval inside))
    by_cases same : x = t
    · have covers : head.covers t = true := decide_eq_true ⟨at_.trans same |>.le,same ▸ ends⟩
      simp [tail,covers,same]
    · have apart : head.covers t = false := by
        refine decide_eq_false (fun both => same (le_antisymm ?_ le))
        exact at_ ▸ both.1
      simp [tail,apart,same]

theorem causesAlone (plain : Plain now account) (near : t < horizonEndMs)
    (least : ∀ x ∈ firstFulls horizonEndMs (accountBurns now account), t ≤ x) :
    ((accountIntervals now horizonEndMs account).filter (·.covers t)).map (fun interval => (⟨account.accountId,interval.windowKind⟩ : RunwayCause)) =
      fullWindows now t account := by
  have each : ∀ windows : List RunwayWindowInput, (∀ window ∈ windows, window ∈ readableWindows now account) →
      ((windows.flatMap (deadIntervalsOf now horizonEndMs)).filter (·.covers t)).map
          (fun interval => (⟨account.accountId,interval.windowKind⟩ : RunwayCause)) =
        (windows.filter fun window => (burnOf now window).firstFullAt = some t).map fun window => ⟨account.accountId,window.windowKind⟩ := by
    intro windows members
    induction windows with
    | nil => rfl
    | cons window windows ih =>
      have readable := members window (.head _)
      have first : ∀ x, (burnOf now window).firstFullAt.filter (· < horizonEndMs) = some x → t ≤ x :=
        fun x its => least x (List.mem_filterMap.mpr ⟨_,List.mem_map_of_mem readable,its⟩)
      rw [List.flatMap_cons,List.filter_append,List.map_append,headsCovering (plain.heads horizonEndMs readable) first,
        ih (fun other inside => members other (.tail _ inside))]
      have within : (burnOf now window).firstFullAt.filter (· < horizonEndMs) = some t ↔ (burnOf now window).firstFullAt = some t := by
        rw [Option.filter_eq_some_iff]
        exact ⟨And.left,fun its => ⟨its,decide_eq_true near⟩⟩
      by_cases here : (burnOf now window).firstFullAt = some t
      · rw [if_pos (within.mpr here)]
        simp [here]
      · rw [if_neg (within.not.mpr here)]
        simp [here]
  exact each (readableWindows now account) (fun _ => id)

theorem firstFullLive (projects : Projects now window) (first : (burnOf now window).firstFullAt = some t) :
    now ≤ t := by
  obtain ⟨windowStartMs,resetsAtMs,slope,guarded⟩ := projects.guarded
  have positive : ∀ timeToFull, (burnOf now window).timeToFull = some timeToFull → 0 < timeToFull := by
    intro timeToFull its
    rw [guarded.fills] at its
    split at its
    · cases its
      exact fillPositive ‹_›
    · cases its
  rcases Burn.firstFullAhead first positive with full | emptied
  · obtain ⟨exhaustsAtMs,-,rfl⟩ := Option.map_eq_some_iff.mp full
    exact le_max_left _ _
  · rw [guarded.emptied] at emptied
    exact (guarded.live.trans emptied).le

theorem allOutOne (plain : Plain now account) :
    firstAllOut [pooledAccount account.accountId (accountIntervals now horizonEndMs account)] now horizonEndMs =
      (firstFulls horizonEndMs (accountBurns now account)).min?.map fun t => ⟨t,fullWindows now t account⟩ := by
  have starts := accountStarts plain horizonEndMs
  cases first : (firstFulls horizonEndMs (accountBurns now account)).min? with
  | none =>
    have none_ := List.min?_eq_none_iff.mp first
    have empty : accountIntervals now horizonEndMs account = [] := by
      refine List.eq_nil_iff_forall_not_mem.mpr (fun interval inside => ?_)
      obtain ⟨t,full,-⟩ := starts.1 interval inside
      rw [none_] at full
      cases full
    rw [empty,allOutNever]
    rfl
  | some t =>
    obtain ⟨full,least⟩ := List.min?_eq_some_iff.mp first
    obtain ⟨b,its,told⟩ := List.mem_filterMap.mp full
    obtain ⟨window,readable,rfl⟩ := List.mem_map.mp its
    obtain ⟨fills,near⟩ := Option.filter_eq_some_iff.mp told
    have live := firstFullLive (plain.projects window readable) fills
    rw [allOutAlone live (of_decide_eq_true near) _ (starts.2 t full),causesAlone plain (of_decide_eq_true near) least]
    · rfl
    · intro interval inside
      obtain ⟨x,earlier,le⟩ := starts.1 interval inside
      exact (least x earlier).trans le

end Clankermux.CapacityRunway
