import Clankermux.RunwayFirstDeath
import Clankermux.RunwayScan

/-! The start of the scan at pace 1: the windows of plain accounts are burns of their own slopes, and
the demand of a class is what its accounts have measured. -/
namespace Clankermux.RunwayScenario
open CapacityRunway

variable {window : RunwayWindowInput} {now horizonEndMs units windowStartMs resetsAtMs slope : ℚ}

theorem lifetimeAnchor {source low pct measuredAt exhaustsAtMs active}
    (its : (lifetimeEstimate source low pct measuredAt windowStartMs active).exhaustsAtMs = some exhaustsAtMs)
    (slopes : (lifetimeEstimate source low pct measuredAt windowStartMs active).slopePctPerHour = some slope) (burns : 0 < slope) :
    measuredAt + (100 - pct) / slope * HOUR_MS = exhaustsAtMs := by
  have hour := hourPositive
  cases active with
  | none =>
    simp only [lifetimeEstimate,Option.some.injEq] at its slopes
    subst its slopes
    have span : measuredAt - windowStartMs ≠ 0 := fun zero => by simp [zero] at burns
    have used : pct ≠ 0 := fun zero => by simp [zero] at burns
    field_simp
  | some anchor =>
    by_cases held : pct - anchor.anchorPct ≤ 0 ∨ measuredAt - anchor.anchorMs ≤ 0
    · simp only [lifetimeEstimate,if_pos held] at its
      cases its
    · simp only [lifetimeEstimate,if_neg held,Option.some.injEq] at its slopes
      obtain ⟨burned,span⟩ := not_or.mp held
      have burned := (not_le.mp burned).ne'
      have span := (not_le.mp span).ne'
      subst its slopes
      field_simp

theorem lifetimeSource {source low pct measuredAt active} :
    (lifetimeEstimate source low pct measuredAt windowStartMs active).source = source := by
  cases active with
  | none => rfl
  | some anchor =>
    simp only [lifetimeEstimate]
    split <;> rfl

inductive Estimated (now : ℚ) (window : RunwayWindowInput) (windowStartMs : ℚ) : WindowExhaustion → Prop where
  | regression (prediction : UsagePrediction) (measuredAt : ℚ) (active : Option UsageBurnAnchor) :
      Estimated now window windowStartMs (regressionEstimate prediction measuredAt windowStartMs active)
  | primary (low : ℚ → Bool) (observedAtMs : ℚ) (active : Option UsageBurnAnchor) : window.observedAtMs = some observedAtMs →
      Estimated now window windowStartMs
        (lifetimeEstimate .lifetimePrimary low window.utilizationPct observedAtMs windowStartMs active)
  | average (low : ℚ → Bool) (active : Option UsageBurnAnchor) :
      Estimated now window windowStartMs (lifetimeEstimate .lifetimeAverage low window.utilizationPct now windowStartMs active)

theorem Guarded.estimated (projects : Projects now window) (guarded : Guarded now window windowStartMs resetsAtMs slope) :
    Estimated now window windowStartMs (estimateWindowExhaustion window now) := by
  obtain ⟨readable,-,-⟩ := projects
  simp only [estimateWindowExhaustion,guarded.starts,guarded.resets,not_le.mpr guarded.unfilled,not_le.mpr guarded.live,
    not_le.mpr guarded.ordered,not_le.mpr guarded.used,if_false] at readable ⊢
  cases usable : window.prediction.filter (isUsablePrediction · (some resetsAtMs)) with
  | some prediction => exact .regression prediction _ _
  | none =>
    cases observed : window.observedAtMs.filter (fun observedAtMs => window.lifetimeConfidence = .full ∧ observedAtMs > windowStartMs) with
    | some observedAtMs => exact .primary _ observedAtMs _ (Option.filter_eq_some_iff.mp observed).1
    | none =>
      simp only [usable,observed] at readable ⊢
      split
      · rename_i early
        rw [if_pos early] at readable
        exact absurd rfl readable
      · exact .average _ _

theorem lagBack (projects : Projects now window) (measured : MeasuredBy now window)
    (guarded : Guarded now window windowStartMs resetsAtMs slope) (burns : 0 < slope) :
    ∃ exhaustsAtMs, (estimateWindowExhaustion window now).exhaustsAtMs = some exhaustsAtMs ∧
      now - observationLagMs (estimateWindowExhaustion window now) window now + (100 - window.utilizationPct) / slope * HOUR_MS =
        exhaustsAtMs := by
  obtain ⟨exhaustsAtMs,its,past⟩ := measured slope guarded.slopes burns
  refine ⟨exhaustsAtMs,its,?_⟩
  have slopes := guarded.slopes
  have estimated := Guarded.estimated projects guarded
  generalize estimateWindowExhaustion window now = estimate at its slopes estimated ⊢
  cases estimated with
  | regression prediction measuredAt active =>
    have lag : 0 ≤ now - (exhaustsAtMs - (100 - window.utilizationPct) / slope * HOUR_MS) := sub_nonneg.mpr past
    have back : observationLagMs (regressionEstimate prediction measuredAt windowStartMs active) window now =
        now - (exhaustsAtMs - (100 - window.utilizationPct) / slope * HOUR_MS) := by
      simp only [observationLagMs,its,slopes,not_le.mpr burns,max_eq_right lag]
      rfl
    rw [back]
    ring
  | primary low observedAtMs active observed =>
    have anchor := lifetimeAnchor its slopes burns
    have lag : 0 ≤ now - observedAtMs := by linarith
    rw [observationLagMs,lifetimeSource,observed]
    simp only [max_eq_right lag]
    linarith
  | average low active =>
    have anchor := lifetimeAnchor its slopes burns
    rw [observationLagMs,lifetimeSource]
    linarith

theorem lagNotNegative (estimate : WindowExhaustion) (window : RunwayWindowInput) (now : ℚ) : 0 ≤ observationLagMs estimate window now := by
  rw [observationLagMs]
  split
  · split
    · split_ifs
      · exact le_rfl
      · exact le_max_left _ _
    · exact le_rfl
  · split
    · exact le_rfl
    · exact le_max_left _ _
  · exact le_rfl

def preparedPlain (now units : ℚ) (window : RunwayWindowInput) : PreparedWindow :=
  let estimate := estimateWindowExhaustion window now
  { kind := window.windowKind,pct := window.utilizationPct,windowStartMs := window.windowStartMs,resetsAtMs := window.resetsAtMs
    durationMs := positiveSpan window.resetsAtMs window.windowStartMs,deadUntilMs := none,inactive := false,learning := false
    contribution := some (estimate.slopePctPerHour.getD 0 * units),lagMs := observationLagMs estimate window now }

theorem preparePlain (projects : Projects now window) :
    prepareWindow window units now horizonEndMs .advance = some (preparedPlain now units window) := by
  obtain ⟨readable,unspent,mature⟩ := projects
  have started : (estimateWindowExhaustion window now).source ≠ .unstarted := fun its => by simp [isLearningEstimate,its] at mature
  simp only [prepareWindow,mature]
  cases source : (estimateWindowExhaustion window now).source with
  | none => exact absurd source readable
  | alreadyExhausted => exact absurd source unspent
  | unstarted => exact absurd source started
  | _ => rfl

theorem prepareUnreadable (blind : (estimateWindowExhaustion window now).source = .none) (lag : ObservationLag) :
    prepareWindow window units now horizonEndMs lag = none := by
  simp [prepareWindow,blind]

theorem startRuns (projects : Projects now window) (measured : MeasuredBy now window)
    (its : (estimateWindowExhaustion window now).slopePctPerHour = some slope) :
    Runs now now slope (startWindow (preparedPlain now units window)) (burnOf now window) := by
  obtain ⟨windowStartMs,resetsAtMs,own,guarded⟩ := projects.guarded
  obtain rfl : own = slope := Option.some.inj (guarded.slopes.symm.trans its)
  have span : 0 < resetsAtMs - windowStartMs := sub_pos.mpr guarded.ordered
  refine ⟨⟨rfl,rfl,?_,?_,?_,?_,guarded.falls,guarded.fills⟩,rfl,lagNotNegative _ _ _,fun _ => ⟨rfl,rfl⟩,guarded.unfilled,?_⟩
  · rw [guarded.emptied]
    exact guarded.resets
  · rw [guarded.emptied]
    exact guarded.live
  · rw [guarded.cycle]
    exact span
  · show positiveSpan window.resetsAtMs window.windowStartMs = _
    rw [guarded.resets,guarded.starts,guarded.cycle]
    simp [positiveSpan,span]
  · show (estimateWindowExhaustion window now).exhaustsAtMs.map (max now ·) = _
    rcases guarded.full measured with ⟨zero,none_⟩ | ⟨burns,-⟩
    · rw [none_,if_neg (by simp [zero])]
      rfl
    · obtain ⟨exhaustsAtMs,told,back⟩ := lagBack projects measured guarded burns
      rw [if_pos burns,told]
      exact congrArg (fun at_ => some (max now at_)) back.symm

variable {options : RunwayScenarioOptions} {account : RunwayScenarioAccountInput} {accounts : List RunwayScenarioAccountInput}

structure Steady (options : RunwayScenarioOptions) (now : ℚ) (account : RunwayScenarioAccountInput) : Prop where
  plain : Plain now account.toRunwayAccountInput
  present : account.presence = .alive
  known : ∃ units, account.tier.bind options.capacityUnits = some units ∧ 0 < units
  kinds : (account.windows.map (·.windowKind)).Nodup

def unitsOf (options : RunwayScenarioOptions) (account : RunwayScenarioAccountInput) : ℚ := (account.tier.bind options.capacityUnits).getD 0

def preparedSteady (options : RunwayScenarioOptions) (now : ℚ) (account : RunwayScenarioAccountInput) : PreparedAccount :=
  { accountId := account.accountId,demandClass := account.demandClass,alivePresence := true,unmetered := false,tier := account.tier
    capacityUnits := some (unitsOf options account)
    windows := (readableWindows now account.toRunwayAccountInput).map (preparedPlain now (unitsOf options account)),bank := none
    status := if (readableWindows now account.toRunwayAccountInput).isEmpty then .unreadable else .pooled }

theorem Steady.capacity (steady : Steady options now account) :
    account.tier.bind options.capacityUnits = some (unitsOf options account) ∧ 0 < unitsOf options account := by
  obtain ⟨units,its,positive⟩ := steady.known
  rw [unitsOf,its]
  exact ⟨rfl,positive⟩

theorem prepareWindows {windows : List RunwayWindowInput}
    (projects : ∀ window ∈ windows, (estimateWindowExhaustion window now).source ≠ .none → Projects now window) :
    windows.filterMap (fun window => prepareWindow window units now horizonEndMs .advance) =
      (windows.filter fun window => (estimateWindowExhaustion window now).source ≠ .none).map (preparedPlain now units) := by
  induction windows with
  | nil => rfl
  | cons window windows ih =>
    have rest := ih (fun other inside => projects other (.tail _ inside))
    by_cases blind : (estimateWindowExhaustion window now).source = .none
    · rw [List.filterMap_cons,prepareUnreadable blind,rest]
      simp [blind]
    · rw [List.filterMap_cons,preparePlain (projects window (.head _) blind),rest]
      simp [blind]

theorem Steady.prepared (steady : Steady options now account) (advance : options.observationLag = .advance) (horizonEndMs : ℚ) :
    prepareAccount options now horizonEndMs account = .ok (preparedSteady options now account) := by
  obtain ⟨units,positive⟩ := steady.capacity
  have windows := @prepareWindows now horizonEndMs (unitsOf options account) account.windows (fun window inside readable =>
    steady.plain.projects window (List.mem_filter.mpr ⟨inside,decide_eq_true readable⟩))
  simp only [prepareAccount,steady.plain.metered,units,not_le.mpr positive,advance,windows,steady.present,steady.plain.bankless,
    preparedSteady,List.length_map,List.length_eq_zero_iff,List.isEmpty_iff]
  rfl

theorem preparedAll (steady : ∀ account ∈ accounts, Steady options now account) (advance : options.observationLag = .advance)
    (horizonEndMs : ℚ) : accounts.mapM (prepareAccount options now horizonEndMs) = .ok (accounts.map (preparedSteady options now)) := by
  induction accounts with
  | nil => rfl
  | cons account accounts ih =>
    rw [List.mapM_cons,(steady account (.head _)).prepared advance,ih (fun other inside => steady other (.tail _ inside))]
    rfl

theorem withholdsNone (demand : Demand) : withhold demand (preparedSteady options now account) = preparedSteady options now account := by
  rw [withhold,if_neg]
  rintro ⟨-,learns⟩
  obtain ⟨window,inside,its⟩ := List.any_eq_true.mp learns
  obtain ⟨source,-,rfl⟩ := List.mem_map.mp inside
  simp [preparedPlain] at its

def readableAccounts (now : ℚ) (accounts : List RunwayScenarioAccountInput) : List RunwayScenarioAccountInput :=
  accounts.filter fun account => !(readableWindows now account.toRunwayAccountInput).isEmpty

theorem pooledSteady : ((accounts.map (preparedSteady options now)).filter (·.status = .pooled)) =
    (readableAccounts now accounts).map (preparedSteady options now) := by
  rw [readableAccounts,List.filter_map]
  refine congrArg (List.map _) (List.filter_congr (fun account _ => ?_))
  simp only [Function.comp,preparedSteady]
  by_cases blind : (readableWindows now account.toRunwayAccountInput).isEmpty = true <;> simp [blind]

def started (options : RunwayScenarioOptions) (now : ℚ) (account : RunwayScenarioAccountInput) : ScanAccount :=
  startAccount (preparedSteady options now account)

section
variable {α κ : Type} [DecidableEq κ] {values : List α} {key : α → κ} {f : α → ℚ}

theorem sumOnce (once : (values.map key).Nodup) (k : κ) :
    ((values.filter (key · = k)).map f).sum = ((values.find? (key · = k)).map f).getD 0 := by
  induction values with
  | nil => rfl
  | cons value values ih =>
    obtain ⟨fresh,once⟩ := List.nodup_cons.mp once
    by_cases here : key value = k
    · have none_ : values.filter (key · = k) = [] := by
        refine List.filter_eq_nil_iff.mpr (fun other inside => ?_)
        simp only [decide_eq_true_eq]
        exact fun same => fresh (List.mem_map.mpr ⟨other,inside,same.trans here.symm⟩)
      simp [here,none_]
    · simp [here,ih once]

end

abbrev Contribution := (String × String) × ℚ

def Demand.entry (demand : Demand) (contribution : Contribution) : Demand :=
  let perClass := (InsertionMap.get demand contribution.1.1).getD []
  InsertionMap.set demand contribution.1.1
    (InsertionMap.set perClass contribution.1.2 ((InsertionMap.get perClass contribution.1.2).getD 0 + contribution.2))

def contributions (prepared : List PreparedAccount) : List Contribution := prepared.flatMap fun account =>
  account.windows.filterMap fun window => window.contribution.map fun contribution => ((account.demandClass,window.kind),contribution)

theorem demandEntries (prepared : List PreparedAccount) : classDemand prepared = (contributions prepared).foldl Demand.entry [] := by
  rw [classDemand,contributions,List.foldl_flatMap]
  refine congrArg (fun step => List.foldl step [] prepared) (funext fun demand => funext fun account => ?_)
  rw [List.foldl_filterMap]
  refine congrArg (fun step => List.foldl step demand account.windows) (funext fun demand => funext fun window => ?_)
  rw [Demand.add]
  cases window.contribution <;> rfl

variable {demand : Demand} {demandClass kind : String} {contribution : Contribution} {entries : List Contribution}

theorem demandRead : InsertionMap.get ((InsertionMap.get demand demandClass).getD []) kind = demand.of demandClass kind := by
  rw [Demand.of]
  cases InsertionMap.get demand demandClass <;> rfl

theorem entryRead : (demand.entry contribution).of demandClass kind =
    if contribution.1 = (demandClass,kind) then some ((demand.of demandClass kind).getD 0 + contribution.2) else demand.of demandClass kind := by
  obtain ⟨⟨class_,its⟩,amount⟩ := contribution
  simp only [Demand.of,Demand.entry,InsertionMap.getSet,Prod.mk.injEq]
  by_cases class_same : demandClass = class_
  · subst class_same
    by_cases same : kind = its
    · subst same
      cases InsertionMap.get demand demandClass <;> simp
    · rw [if_pos rfl,if_neg (fun both => same both.2.symm),Option.bind_some,InsertionMap.getSetOther same]
      exact demandRead
  · rw [if_neg class_same,if_neg (fun both => class_same both.1.symm)]

theorem entriesRead (entries : List Contribution) (demand : Demand) (demandClass kind : String) :
    (Demand.of (entries.foldl Demand.entry demand) demandClass kind).getD 0 =
        (demand.of demandClass kind).getD 0 + ((entries.filter (·.1 = (demandClass,kind))).map Prod.snd).sum ∧
      ((demand.of demandClass kind).isSome ∨ (∃ entry ∈ entries, entry.1 = (demandClass,kind)) →
        (Demand.of (entries.foldl Demand.entry demand) demandClass kind).isSome) := by
  induction entries generalizing demand with
  | nil => exact ⟨by simp,fun told => told.resolve_right (by simp)⟩
  | cons entry entries ih =>
    obtain ⟨sums,told⟩ := ih (demand.entry entry)
    rw [List.foldl_cons,sums,entryRead]
    constructor
    · by_cases here : entry.1 = (demandClass,kind)
      · simp [here,add_assoc]
      · simp [here]
    · rintro (before | ⟨other,inside,its⟩)
      · refine told (.inl ?_)
        rw [entryRead]
        split
        · rfl
        · exact before
      · rcases List.mem_cons.mp inside with rfl | later
        · exact told (.inl (by rw [entryRead,if_pos its]; rfl))
        · exact told (.inr ⟨other,later,its⟩)

theorem entryKinds (unique : ∀ demandClass, (InsertionMap.keys ((InsertionMap.get demand demandClass).getD [])).Nodup)
    (contribution : Contribution) (demandClass : String) :
    (InsertionMap.keys ((InsertionMap.get (demand.entry contribution) demandClass).getD [])).Nodup := by
  rw [Demand.entry,InsertionMap.getSet]
  split
  · exact InsertionMap.nodupSet (unique contribution.1.1)
  · exact unique demandClass

theorem entriesKinds (entries : List Contribution) {demand : Demand}
    (unique : ∀ demandClass, (InsertionMap.keys ((InsertionMap.get demand demandClass).getD [])).Nodup) (demandClass : String) :
    (InsertionMap.keys ((InsertionMap.get (entries.foldl Demand.entry demand) demandClass).getD [])).Nodup := by
  induction entries generalizing demand with
  | nil => exact unique demandClass
  | cons entry entries ih => exact ih (entryKinds unique entry)

def measuredUnits (options : RunwayScenarioOptions) (now : ℚ) (account : RunwayScenarioAccountInput) (window : RunwayWindowInput) : ℚ :=
  (estimateWindowExhaustion window now).slopePctPerHour.getD 0 * unitsOf options account

def ownContributions (options : RunwayScenarioOptions) (now : ℚ) (account : RunwayScenarioAccountInput) : List Contribution :=
  (readableWindows now account.toRunwayAccountInput).map fun window =>
    ((account.demandClass,window.windowKind),measuredUnits options now account window)

theorem contributionsOwn : contributions (accounts.map (preparedSteady options now)) = accounts.flatMap (ownContributions options now) := by
  rw [contributions,List.flatMap_map]
  refine congrArg (fun own => List.flatMap own accounts) (funext fun account => ?_)
  show ((readableWindows now account.toRunwayAccountInput).map (preparedPlain now (unitsOf options account))).filterMap _ = _
  rw [List.filterMap_map,ownContributions,← List.filterMap_eq_map]
  rfl

section
variable (steady : Steady options now account)
include steady

theorem Steady.readableKinds :
    ((readableWindows now account.toRunwayAccountInput).map (·.windowKind)).Nodup :=
  steady.kinds.sublist (List.filter_sublist.map _)

theorem Steady.measured (inside : window ∈ readableWindows now account.toRunwayAccountInput) :
    0 ≤ measuredUnits options now account window := by
  obtain ⟨windowStartMs,resetsAtMs,slope,guarded⟩ := (steady.plain.projects window inside).guarded
  rw [measuredUnits,guarded.slopes]
  exact mul_nonneg guarded.falls steady.capacity.2.le

theorem Steady.weight (kind : String) :
    measuredWeight kind (ShareCandidate.of (started options now account)) =
      (((readableWindows now account.toRunwayAccountInput).find? (·.windowKind = kind)).map (measuredUnits options now account)).getD 0 := by
  have found : ((ShareCandidate.of (started options now account)).windows.find? (·.windowKind = kind)) =
      ((readableWindows now account.toRunwayAccountInput).find? (·.windowKind = kind)).map fun window =>
        ⟨window.windowKind,window.utilizationPct,some (measuredUnits options now account window)⟩ := by
    have windows : (ShareCandidate.of (started options now account)).windows =
        (readableWindows now account.toRunwayAccountInput).map fun window =>
          ⟨window.windowKind,window.utilizationPct,some (measuredUnits options now account window)⟩ := by
      simp only [ShareCandidate.of,started,startAccount,preparedSteady,List.map_map]
      rfl
    rw [windows,List.find?_map]
    rfl
  rw [measuredWeight,found]
  cases its : (readableWindows now account.toRunwayAccountInput).find? (·.windowKind = kind) with
  | none => rfl
  | some window =>
    have least := steady.measured (List.mem_of_find?_eq_some its)
    simp only [Option.map_some,Option.bind_some]
    split
    · rfl
    · exact le_antisymm least (not_lt.mp ‹_›)

theorem Steady.sums (kind : String) :
    (((ownContributions options now account).filter (·.1 = (account.demandClass,kind))).map Prod.snd).sum =
      measuredWeight kind (ShareCandidate.of (started options now account)) := by
  rw [steady.weight,← sumOnce steady.readableKinds,ownContributions,List.filter_map,List.map_map]
  have same : ((fun contribution : Contribution => decide (contribution.1 = (account.demandClass,kind))) ∘ fun window : RunwayWindowInput =>
      ((account.demandClass,window.windowKind),measuredUnits options now account window)) = fun window => decide (window.windowKind = kind) := by
    funext window
    simp
  rw [same]
  rfl

end

theorem unitsCons (first : ScanAccount) (rest : List ScanAccount) (demandClass kind : String) :
    classUnits (first::rest) demandClass kind =
      (if first.demandClass = demandClass then measuredWeight kind (ShareCandidate.of first) else 0) + classUnits rest demandClass kind := by
  by_cases its : first.demandClass = demandClass <;> simp [classUnits,its]

theorem otherClass {demandClass : String} (other : account.demandClass ≠ demandClass) (kind : String) :
    (ownContributions options now account).filter (·.1 = (demandClass,kind)) = [] := by
  refine List.filter_eq_nil_iff.mpr (fun contribution inside => ?_)
  obtain ⟨window,-,rfl⟩ := List.mem_map.mp inside
  simp [other]

theorem readableCons (account : RunwayScenarioAccountInput) (accounts : List RunwayScenarioAccountInput) :
    readableAccounts now (account::accounts) = if (readableWindows now account.toRunwayAccountInput).isEmpty then readableAccounts now accounts
      else account::readableAccounts now accounts := by
  by_cases blind : (readableWindows now account.toRunwayAccountInput).isEmpty = true <;> simp [readableAccounts,blind]

theorem classMeasured (steady : ∀ account ∈ accounts, Steady options now account) (demandClass kind : String) :
    (((accounts.flatMap (ownContributions options now)).filter (·.1 = (demandClass,kind))).map Prod.snd).sum =
      classUnits ((readableAccounts now accounts).map (started options now)) demandClass kind := by
  induction accounts with
  | nil => rfl
  | cons account accounts ih =>
    have rest := ih (fun other inside => steady other (.tail _ inside))
    rw [List.flatMap_cons,List.filter_append,List.map_append,List.sum_append,rest,readableCons]
    by_cases blind : (readableWindows now account.toRunwayAccountInput).isEmpty
    · have none_ : ownContributions options now account = [] := by rw [ownContributions,List.isEmpty_iff.mp blind]; rfl
      rw [none_,if_pos blind]
      exact zero_add _
    · rw [if_neg blind,List.map_cons,unitsCons]
      refine congrArg (· + _) ?_
      have class_ : (started options now account).demandClass = account.demandClass := rfl
      split
      · rename_i same
        subst same
        exact (steady account (.head _)).sums kind
      · rw [otherClass ‹_›]
        rfl

def steadyDemand (options : RunwayScenarioOptions) (now : ℚ) (accounts : List RunwayScenarioAccountInput) : Demand :=
  classDemand (accounts.map (preparedSteady options now))

def startWalk (options : RunwayScenarioOptions) (now : ℚ) (accounts : List RunwayScenarioAccountInput) : Walk :=
  { state := (readableAccounts now accounts).map (started options now),t := now,capture := some {} }

def startPool (now : ℚ) (accounts : List RunwayScenarioAccountInput) (place : Place) : Burn :=
  ((((readableAccounts now accounts)[place.1]?).bind fun account => (readableWindows now account.toRunwayAccountInput)[place.2]?).map
    (burnOf now)).getD ⟨none,now,0,none⟩

theorem memReadable : account ∈ readableAccounts now accounts ↔
    account ∈ accounts ∧ (readableWindows now account.toRunwayAccountInput).isEmpty = false := by
  simp [readableAccounts]

theorem startedWindows : (started options now account).windows =
    (readableWindows now account.toRunwayAccountInput).map fun window => startWindow (preparedPlain now (unitsOf options account) window) := by
  simp only [started,startAccount,preparedSteady,List.map_map]
  rfl

theorem startAt {place owner held} (at_ : At (startWalk options now accounts).state place owner held) :
    ∃ account ∈ accounts, ∃ window ∈ readableWindows now account.toRunwayAccountInput, owner = started options now account ∧
      held = startWindow (preparedPlain now (unitsOf options account) window) ∧ startPool now accounts place = burnOf now window := by
  obtain ⟨first,second⟩ := at_
  rw [startWalk,List.getElem?_map] at first
  obtain ⟨account,found,rfl⟩ := Option.map_eq_some_iff.mp first
  rw [startedWindows,List.getElem?_map] at second
  obtain ⟨window,there,rfl⟩ := Option.map_eq_some_iff.mp second
  refine ⟨account,(memReadable.mp (List.mem_of_getElem? found)).1,window,List.mem_of_getElem? there,rfl,rfl,?_⟩
  simp [startPool,found,there]

theorem startBurns {b : Burn} : b ∈ burnsOf (startWalk options now accounts).state (startPool now accounts) ↔
    b ∈ poolBurns now (accounts.map (·.toRunwayAccountInput)) := by
  rw [memBurns,poolBurns,List.mem_flatMap]
  constructor
  · rintro ⟨place,owner,held,at_,rfl⟩
    obtain ⟨account,inside,window,readable,-,-,same⟩ := startAt at_
    exact ⟨_,List.mem_map_of_mem inside,List.mem_map.mpr ⟨window,readable,same.symm⟩⟩
  · rintro ⟨_,inside,its⟩
    obtain ⟨account,member,rfl⟩ := List.mem_map.mp inside
    obtain ⟨window,readable,rfl⟩ := List.mem_map.mp its
    have some_ : account ∈ readableAccounts now accounts :=
      memReadable.mpr ⟨member,by simpa using List.ne_nil_of_mem readable⟩
    obtain ⟨i,owner⟩ := List.mem_iff_getElem?.mp some_
    obtain ⟨j,held⟩ := List.mem_iff_getElem?.mp readable
    refine ⟨(i,j),started options now account,startWindow (preparedPlain now (unitsOf options account) window),⟨?_,?_⟩,?_⟩
    · rw [startWalk,List.getElem?_map,owner]
      rfl
    · rw [startedWindows,List.getElem?_map,held]
      rfl
    · simp [startPool,owner,held]

theorem Steady.ownSlope (steady : Steady options now account) (inside : window ∈ readableWindows now account.toRunwayAccountInput)
    (its : (estimateWindowExhaustion window now).slopePctPerHour = some slope) :
    RunwayScenario.ownSlope (started options now account) (startWindow (preparedPlain now (unitsOf options account) window)) = slope := by
  have only : (readableWindows now account.toRunwayAccountInput).find? (·.windowKind = window.windowKind) = some window := by
    cases found : (readableWindows now account.toRunwayAccountInput).find? (·.windowKind = window.windowKind) with
    | none => exact absurd (decide_eq_true rfl) (List.find?_eq_none.mp found window inside)
    | some other =>
      have same := List.find?_some found
      exact congrArg some (List.inj_on_of_nodup_map steady.readableKinds (List.mem_of_find?_eq_some found) inside (of_decide_eq_true same))
  have positive := steady.capacity.2
  show measuredWeight window.windowKind (ShareCandidate.of (started options now account)) / unitsOf options account = slope
  rw [steady.weight,only,Option.map_some,Option.getD_some,measuredUnits,its,Option.getD_some]
  field_simp

theorem startSplits (steady : ∀ account ∈ accounts, Steady options now account) (ids : (accounts.map (·.accountId)).Nodup) :
    Splits (steadyDemand options now accounts) (startWalk options now accounts).state := by
  refine ⟨fun owner inside => ?_,?_,fun demandClass => ?_,fun owner inside held its => ?_⟩
  · obtain ⟨account,-,rfl⟩ := List.mem_map.mp inside
    rw [ScanAccount.isAlive,Bool.or_eq_true,startedWindows,List.all_map]
    exact .inr (List.all_eq_true.mpr (fun window _ => rfl))
  · rw [startWalk,List.map_map]
    exact ids.sublist (List.filter_sublist.map _)
  · rw [steadyDemand,demandEntries]
    refine entriesKinds _ (fun _ => ?_) demandClass
    exact List.nodup_nil
  · obtain ⟨account,member,rfl⟩ := List.mem_map.mp inside
    rw [startedWindows] at its
    obtain ⟨window,readable,rfl⟩ := List.mem_map.mp its
    obtain ⟨sums,told⟩ := entriesRead (accounts.flatMap (ownContributions options now)) [] account.demandClass window.windowKind
    have present := told (.inr ⟨((account.demandClass,window.windowKind),measuredUnits options now account window),
      List.mem_flatMap.mpr ⟨account,(memReadable.mp member).1,List.mem_map.mpr ⟨window,readable,rfl⟩⟩,rfl⟩)
    show InsertionMap.get ((InsertionMap.get (steadyDemand options now accounts) account.demandClass).getD []) window.windowKind =
      some (classUnits ((readableAccounts now accounts).map (started options now)) account.demandClass window.windowKind)
    rw [demandRead,steadyDemand,demandEntries,contributionsOwn]
    rw [classMeasured steady] at sums
    obtain ⟨total,found⟩ := Option.isSome_iff_exists.mp present
    rw [found] at sums ⊢
    simpa [Demand.of] using sums

theorem startRunning (steady : ∀ account ∈ accounts, Steady options now account) (ids : (accounts.map (·.accountId)).Nodup)
    (apart : Burn.Apart (poolBurns now (accounts.map (·.toRunwayAccountInput))) EVENT_TIE_TOLERANCE_MS horizonEndMs)
    (readable : readableAccounts now accounts ≠ []) {classes : List String}
    (covers : ∀ account ∈ readableAccounts now accounts, account.demandClass ∈ classes) :
    Running (steadyDemand options now accounts) classes now horizonEndMs (startWalk options now accounts) (startPool now accounts) := by
  have each : ∀ owner ∈ (startWalk options now accounts).state, ∃ account ∈ readableAccounts now accounts, owner = started options now account :=
    fun owner inside => (List.mem_map.mp inside).imp fun account told => ⟨told.1,told.2.symm⟩
  refine ⟨startSplits steady ids,fun owner inside => ?_,fun owner inside => ?_,fun owner inside => ?_,?_,le_rfl,?_,?_,rfl,?_⟩
  · obtain ⟨account,member,rfl⟩ := each owner inside
    exact covers account member
  · obtain ⟨account,member,rfl⟩ := each owner inside
    rfl
  · obtain ⟨account,member,rfl⟩ := each owner inside
    rfl
  · exact fun empty => readable (List.map_eq_nil_iff.mp empty)
  · intro place owner held at_
    obtain ⟨account,inside,window,its,rfl,rfl,same⟩ := startAt at_
    have projects := (steady account inside).plain.projects window its
    obtain ⟨_,_,slope,guarded⟩ := projects.guarded
    rw [same,(steady account inside).ownSlope its guarded.slopes]
    exact startRuns projects ((steady account inside).plain.measured window its) guarded.slopes
  · exact apart.instants (fun b inside => ⟨b,startBurns.mp inside,fun _ => id⟩)
  · exact ⟨{},rfl,rfl⟩

end Clankermux.RunwayScenario
