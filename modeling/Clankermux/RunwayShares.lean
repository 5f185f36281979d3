import Clankermux.RunwayScenario
import Mathlib.Algebra.Order.BigOperators.Group.List

/-! The split of the demand by measured burn. It never fails, and while every contributor is alive
each window is assigned its own measured slope. -/
namespace Clankermux.RunwayScenario
open InsertionMap

theorem weightNotNegative (kind : String) (candidate : ShareCandidate) : 0 ≤ measuredWeight kind candidate := by
  rw [measuredWeight]
  split
  · split
    · exact le_of_lt ‹_›
    · exact le_rfl
  · exact le_rfl

theorem sumZero {values : List ℚ} (least : ∀ x ∈ values, 0 ≤ x) (none_ : values.any (· > 0) = false) : values.sum = 0 := by
  refine List.sum_eq_zero (fun x inside => le_antisymm ?_ (least x inside))
  have small := List.any_eq_false.mp none_ x inside
  simpa using small

theorem sumPositive {values : List ℚ} (least : ∀ x ∈ values, 0 ≤ x) (some_ : values.any (· > 0) = true) : 0 < values.sum := by
  obtain ⟨x,inside,positive⟩ := List.any_eq_true.mp some_
  exact (of_decide_eq_true positive).trans_le (List.single_le_sum least x inside)

variable {view : List ShareCandidate} {kind demandClass : String} {kindUnits : ℚ} {perKind : InsertionMap String ℚ}

theorem proportionalCases (view : List ShareCandidate) (kind : String) :
    (proportionalShareRule view kind = view.map (measuredWeight kind) ∧ 0 < (view.map (measuredWeight kind)).sum) ∨
    (proportionalShareRule view kind = view.map (fun _ => 1) ∧ (view.map (measuredWeight kind)).sum = 0) := by
  have least : ∀ x ∈ view.map (measuredWeight kind), 0 ≤ x := by
    intro x inside
    obtain ⟨candidate,-,rfl⟩ := List.mem_map.mp inside
    exact weightNotNegative kind candidate
  by_cases some_ : (view.map (measuredWeight kind)).any (· > 0) = true
  · exact .inl ⟨by simp only [proportionalShareRule,some_,if_true],sumPositive least some_⟩
  · have none_ := Bool.eq_false_iff.mpr some_
    exact .inr ⟨by simp only [proportionalShareRule,none_]; rfl,sumZero least none_⟩

theorem proportionalSound (filled : view ≠ []) (kind : String) : (proportionalShareRule view kind).length = view.length ∧
    (∀ x ∈ proportionalShareRule view kind, 0 ≤ x) ∧ 0 < (proportionalShareRule view kind).sum := by
  rcases proportionalCases view kind with ⟨same,positive⟩ | ⟨same,-⟩
  · rw [same]
    refine ⟨List.length_map ..,fun x inside => ?_,positive⟩
    obtain ⟨candidate,-,rfl⟩ := List.mem_map.mp inside
    exact weightNotNegative kind candidate
  · rw [same]
    refine ⟨List.length_map ..,fun x inside => ?_,?_⟩
    · obtain ⟨candidate,-,rfl⟩ := List.mem_map.mp inside
      exact zero_le_one
    · simpa using List.length_pos_of_ne_nil filled

def proportionalShare (view : List ShareCandidate) (kind : String) (weight : ℚ) : ℚ := weight / (proportionalShareRule view kind).sum

def kindEntries (view : List ShareCandidate) (kind : String) : List ((String × String) × ℚ) :=
  (view.zip (proportionalShareRule view kind)).map fun entry => ((entry.1.accountId,kind),proportionalShare view kind entry.2)

theorem kindSharesProportional (filled : view ≠ []) :
    kindShares proportionalShareRule demandClass view kind kindUnits = .ok (kindEntries view kind) := by
  obtain ⟨long,least,positive⟩ := proportionalSound filled kind
  have nonneg : (proportionalShareRule view kind).find? (· < 0) = none := by
    refine List.find?_eq_none.mpr (fun x inside => ?_)
    simpa using least x inside
  simp [kindShares,long,nonneg,positive,positive.ne',kindEntries,proportionalShare]

theorem classSharesProportional (filled : view ≠ []) :
    classShares proportionalShareRule demandClass view perKind = .ok (perKind.flatMap fun entry => kindEntries view entry.1) := by
  have each : perKind.mapM (fun entry => kindShares proportionalShareRule demandClass view entry.1 entry.2) =
      .ok (perKind.map fun entry => kindEntries view entry.1) := by
    induction perKind with
    | nil => rfl
    | cons entry rest ih =>
      rw [List.mapM_cons,kindSharesProportional filled,ih]
      rfl
  rw [classShares,each]
  simp [Except.map,List.flatMap]

theorem memZipMap {α β : Type} {f : α → β} {values : List α} {x} (inside : x ∈ values) : (x,f x) ∈ values.zip (values.map f) := by
  induction values with
  | nil => cases inside
  | cons head rest ih =>
    rcases List.mem_cons.mp inside with rfl | later
    · exact .head _
    · exact .tail _ (ih later)

theorem ownShare {candidate : ShareCandidate} (inside : candidate ∈ view) :
    ∃ share, ((candidate.accountId,kind),share) ∈ kindEntries view kind ∧
      (view.map (measuredWeight kind)).sum * share = measuredWeight kind candidate := by
  have least : ∀ x ∈ view.map (measuredWeight kind), 0 ≤ x := by
    intro x its
    obtain ⟨other,-,rfl⟩ := List.mem_map.mp its
    exact weightNotNegative kind other
  rcases proportionalCases view kind with ⟨same,positive⟩ | ⟨same,zero⟩
  · refine ⟨measuredWeight kind candidate / (view.map (measuredWeight kind)).sum,?_,by field_simp⟩
    refine List.mem_map.mpr ⟨(candidate,measuredWeight kind candidate),?_,by rw [proportionalShare,same]⟩
    exact same ▸ memZipMap inside
  · refine ⟨1 / (view.map fun _ => (1 : ℚ)).sum,?_,?_⟩
    · refine List.mem_map.mpr ⟨(candidate,1),?_,by rw [proportionalShare,same]⟩
      exact same ▸ @memZipMap _ _ (fun _ => (1 : ℚ)) _ _ inside
    · rw [zero,zero_mul]
      exact le_antisymm (weightNotNegative kind candidate) (zero ▸ List.single_le_sum least _ (List.mem_map_of_mem inside))

theorem kindKeys : (kindEntries view kind).map Prod.fst = view.map fun candidate => (candidate.accountId,kind) := by
  have long : (proportionalShareRule view kind).length = view.length := by
    rcases proportionalCases view kind with ⟨same,-⟩ | ⟨same,-⟩ <;> rw [same,List.length_map]
  have whole : ∀ (candidates : List ShareCandidate) (weights : List ℚ), weights.length = candidates.length →
      ((candidates.zip weights).map fun entry => ((entry.1.accountId,kind),proportionalShare view kind entry.2)).map Prod.fst =
        candidates.map fun candidate => (candidate.accountId,kind) := by
    intro candidates
    induction candidates with
    | nil => simp
    | cons candidate candidates ih =>
      intro weights same
      cases weights with
      | nil => cases same
      | cons weight weights => exact congrArg _ (ih weights (Nat.succ.inj same))
  exact whole view _ long

theorem entriesUnique (ids : (view.map (·.accountId)).Nodup) (kinds : (keys perKind).Nodup) :
    (keys (perKind.flatMap fun entry => kindEntries view entry.1)).Nodup := by
  rw [keys,List.map_flatMap]
  simp only [kindKeys]
  rw [List.nodup_flatMap]
  constructor
  · intro entry _
    have pairs : (view.map fun candidate => (candidate.accountId,entry.1)) = (view.map (·.accountId)).map fun id => (id,entry.1) := by simp
    rw [pairs]
    exact ids.map (fun _ _ same => congrArg Prod.fst same)
  · refine (List.pairwise_map.mp kinds).imp (fun ne => ?_)
    intro pair first second
    obtain ⟨_,-,rfl⟩ := List.mem_map.mp first
    obtain ⟨_,-,same⟩ := List.mem_map.mp second
    exact ne (congrArg Prod.snd same).symm

theorem toldShare {candidate : ShareCandidate} (ids : (view.map (·.accountId)).Nodup) (kinds : (keys perKind).Nodup)
    (inside : candidate ∈ view) (placed : get perKind kind = some (view.map (measuredWeight kind)).sum) :
    (view.map (measuredWeight kind)).sum *
        (get (written (perKind.flatMap fun entry => kindEntries view entry.1)) (candidate.accountId,kind)).getD 0 =
      measuredWeight kind candidate := by
  obtain ⟨share,entry,exact_⟩ := @ownShare view kind candidate inside
  have member : ((candidate.accountId,kind),share) ∈ perKind.flatMap fun entry => kindEntries view entry.1 :=
    List.mem_flatMap.mpr ⟨_,memOfGet placed,entry⟩
  have unique : (keys (perKind.flatMap fun entry => kindEntries view entry.1).reverse).Nodup := by
    rw [keys,List.map_reverse]
    exact List.nodup_reverse.mpr (entriesUnique ids kinds)
  rw [getWritten,getOfMem unique (List.mem_reverse.mpr member)]
  exact exact_

def SameDeaths (a b : Option BaselineCapture) : Prop :=
  a.map (fun capture => (capture.exhaustions,capture.firstExhaustionAfterNow)) =
    b.map fun capture => (capture.exhaustions,capture.firstExhaustionAfterNow)

theorem shareKeeps (atNow : Bool) (shares : List ((String × String) × ℚ)) (capture : BaselineCapture) :
    (shares.foldl (BaselineCapture.share atNow) capture).exhaustions = capture.exhaustions ∧
      (shares.foldl (BaselineCapture.share atNow) capture).firstExhaustionAfterNow = capture.firstExhaustionAfterNow := by
  induction shares generalizing capture with
  | nil => exact ⟨rfl,rfl⟩
  | cons entry shares ih =>
    rw [List.foldl_cons,(ih _).1,(ih _).2]
    rw [BaselineCapture.share]
    split <;> exact ⟨rfl,rfl⟩

theorem sharesSameDeaths (atNow : Bool) (shares : List ((String × String) × ℚ)) (capture : Option BaselineCapture) :
    SameDeaths (capture.map fun capture => shares.foldl (BaselineCapture.share atNow) capture) capture := by
  cases capture with
  | none => rfl
  | some capture => simp [SameDeaths,shareKeeps atNow shares capture]

def Quiet (state : List ScanAccount) : Prop := ∀ account ∈ state, ∀ window ∈ account.windows, window.lagMs = 0 ∧ window.lagExhaustAtMs = none

variable {demand : Demand} {classes : List String} {now pace t slope : ℚ} {w : Walk} {state : List ScanAccount}
  {account : ScanAccount} {window : ScanWindow}

theorem Quiet.map (quiet : Quiet state) {change : ScanAccount → ScanAccount}
    (keeps : ∀ account ∈ state, ∀ window ∈ (change account).windows, ∃ before ∈ account.windows,
      window.lagMs = before.lagMs ∧ window.lagExhaustAtMs = before.lagExhaustAtMs) : Quiet (state.map change) := by
  intro account inside window its
  obtain ⟨source,member,rfl⟩ := List.mem_map.mp inside
  obtain ⟨before,there,lag,pending⟩ := keeps source member window its
  exact ⟨lag ▸ (quiet source member before there).1,pending ▸ (quiet source member before there).2⟩

theorem pinLag : (pinCycle t window).lagMs = window.lagMs ∧ (pinCycle t window).lagExhaustAtMs = window.lagExhaustAtMs := by
  rw [pinCycle]
  split <;> exact ⟨rfl,rfl⟩

theorem assignQuiet {units capacityUnits : Option ℚ} {share} (still : window.lagMs = 0) :
    (assignWindow now pace t units share capacityUnits window).lagMs = window.lagMs ∧
      (assignWindow now pace t units share capacityUnits window).lagExhaustAtMs = window.lagExhaustAtMs := by
  have pinned : ∀ slope, (pinCycle t { window with slope }).lagMs = 0 := fun slope => pinLag.1.trans still
  simp only [assignWindow]
  split
  · rw [advanceLag,if_neg (by simp [pinned])]
    exact pinLag
  · exact pinLag

structure Assigns (w after : Walk) : Prop where
  clock : after.t = w.t
  hit : after.firstHit = w.firstHit
  deaths : SameDeaths after.capture w.capture
  quiet : Quiet w.state → Quiet after.state

theorem Assigns.trans {u v w : Walk} (first : Assigns u v) (second : Assigns v w) : Assigns u w :=
  ⟨second.clock.trans first.clock,second.hit.trans first.hit,second.deaths.trans first.deaths,fun quiet => second.quiet (first.quiet quiet)⟩

def classCandidates (state : List ScanAccount) (demandClass : String) : List ScanAccount :=
  state.filter fun account => account.isAlive && account.demandClass = demandClass

def classEntries (demand : Demand) (state : List ScanAccount) (demandClass : String) : List ((String × String) × ℚ) :=
  ((get demand demandClass).getD []).flatMap fun entry => kindEntries ((classCandidates state demandClass).map ShareCandidate.of) entry.1

def classAssigned (demand : Demand) (now pace : ℚ) (w : Walk) (demandClass : String) : Walk :=
  { w with
    state := w.state.map fun account =>
      if account.isAlive && account.demandClass = demandClass then
        assignAccount now pace w.t ((get demand demandClass).getD []) (written (classEntries demand w.state demandClass)) account
      else account
    capture := w.capture.map fun capture => (classEntries demand w.state demandClass).foldl (BaselineCapture.share (w.t = now)) capture }

theorem assignClassProportional (demand : Demand) (now pace : ℚ) (w : Walk) (demandClass : String) :
    assignClass proportionalShareRule demand now pace w demandClass =
      .ok (if classCandidates w.state demandClass = [] then w else classAssigned demand now pace w demandClass) := by
  by_cases none_ : classCandidates w.state demandClass = []
  · rw [if_pos none_,assignClass]
    exact if_pos (List.length_eq_zero_iff.mpr none_)
  · have filled : (classCandidates w.state demandClass).map ShareCandidate.of ≠ [] := by simpa using none_
    rw [if_neg none_,assignClass]
    exact (if_neg (List.length_eq_zero_iff.not.mpr none_)).trans (congrArg (Except.map _) (classSharesProportional filled))

theorem assignsClass (demand : Demand) (now pace : ℚ) (w : Walk) (demandClass : String) :
    ∃ after, assignClass proportionalShareRule demand now pace w demandClass = .ok after ∧ Assigns w after := by
  refine ⟨_,assignClassProportional demand now pace w demandClass,?_⟩
  split
  · exact ⟨rfl,rfl,rfl,id⟩
  · refine ⟨rfl,rfl,sharesSameDeaths _ _ _,fun quiet => quiet.map (fun account inside window its => ?_)⟩
    split at its
    · obtain ⟨before,member,rfl⟩ := List.mem_map.mp its
      exact ⟨before,member,assignQuiet (quiet account inside before member).1⟩
    · exact ⟨window,its,rfl,rfl⟩

theorem assignsClasses (demand : Demand) (classes : List String) (now pace : ℚ) (w : Walk) :
    ∃ after, classes.foldlM (assignClass proportionalShareRule demand now pace) w = .ok after ∧ Assigns w after := by
  induction classes generalizing w with
  | nil => exact ⟨w,rfl,rfl,rfl,rfl,id⟩
  | cons demandClass classes ih =>
    obtain ⟨middle,first,assigns⟩ := assignsClass demand now pace w demandClass
    obtain ⟨after,rest,later⟩ := ih middle
    refine ⟨after,?_,assigns.trans later⟩
    rw [List.foldlM_cons,first]
    exact rest

theorem assignsAlways (demand : Demand) (classes : List String) (now pace : ℚ) (w : Walk) :
    ∃ after, assign proportionalShareRule demand classes now pace w = .ok after ∧ Assigns w after := by
  obtain ⟨after,done,assigns⟩ := assignsClasses demand classes now pace { w with state := w.state.map restDead }
  refine ⟨after,done,assigns.clock,assigns.hit,assigns.deaths,fun quiet => assigns.quiet (quiet.map ?_)⟩
  intro account _ window its
  rw [restDead] at its
  split at its
  · exact ⟨window,its,rfl,rfl⟩
  · obtain ⟨before,member,rfl⟩ := List.mem_map.mp its
    exact ⟨before,member,rfl,rfl⟩

def classUnits (state : List ScanAccount) (demandClass kind : String) : ℚ :=
  (((state.filter (·.demandClass = demandClass)).map ShareCandidate.of).map (measuredWeight kind)).sum

structure Splits (demand : Demand) (state : List ScanAccount) : Prop where
  alive : ∀ account ∈ state, account.isAlive = true
  ids : (state.map (·.accountId)).Nodup
  kinds : ∀ demandClass, (keys ((get demand demandClass).getD [])).Nodup
  placed : ∀ account ∈ state, ∀ window ∈ account.windows,
    get ((get demand account.demandClass).getD []) window.kind = some (classUnits state account.demandClass window.kind)

def ownSlope (account : ScanAccount) (window : ScanWindow) : ℚ :=
  measuredWeight window.kind (ShareCandidate.of account) / account.capacityUnits.getD 0

def carried (now t slope : ℚ) (window : ScanWindow) : ScanWindow :=
  let pinned := pinCycle t { window with slope }
  if t = now then advanceLag now 1 pinned else pinned

def paceOwn (now t : ℚ) (account : ScanAccount) : ScanAccount :=
  { account with windows := account.windows.map fun window => carried now t (ownSlope account window) window }

def ScanAccount.reading (account : ScanAccount) : String × String × Option ℚ × List (String × Option ℚ) :=
  (account.accountId,account.demandClass,account.capacityUnits,account.windows.map fun window => (window.kind,window.measuredUnitsPerHour))

theorem weightReading {other : ScanAccount} (same : account.reading = other.reading) (kind : String) :
    measuredWeight kind (ShareCandidate.of account) = measuredWeight kind (ShareCandidate.of other) := by
  have first : ∀ account, ((ShareCandidate.of account).windows.find? (·.windowKind = kind)).bind (·.measuredUnitsPerHour) =
      ((account.windows.map fun window => (window.kind,window.measuredUnitsPerHour)).find? (·.1 = kind)).bind Prod.snd := by
    intro account
    rw [ShareCandidate.of,List.find?_map,List.find?_map]
    cases found : account.windows.find? ((fun entry : String × Option ℚ => decide (entry.1 = kind)) ∘
        fun window => (window.kind,window.measuredUnitsPerHour)) with
    | none =>
      rw [show account.windows.find? ((fun window : CandidateWindow => decide (window.windowKind = kind)) ∘
        fun window => ⟨window.kind,window.pct,window.measuredUnitsPerHour⟩) = none from found]
      rfl
    | some window =>
      rw [show account.windows.find? ((fun window : CandidateWindow => decide (window.windowKind = kind)) ∘
        fun window => ⟨window.kind,window.pct,window.measuredUnitsPerHour⟩) = some window from found]
      rfl
  have windows : account.windows.map (fun window => (window.kind,window.measuredUnitsPerHour)) =
      other.windows.map fun window => (window.kind,window.measuredUnitsPerHour) := congrArg (fun reading => reading.2.2.2) same
  rw [measuredWeight,measuredWeight,first,first,windows]

def SameReadings (state other : List ScanAccount) : Prop := state.map (·.reading) = other.map (·.reading)

theorem unitsReading {other : List ScanAccount} (same : SameReadings state other) (demandClass kind : String) :
    classUnits state demandClass kind = classUnits other demandClass kind := by
  induction state generalizing other with
  | nil =>
    cases List.map_eq_nil_iff.mp same.symm
    rfl
  | cons account rest ih =>
    cases other with
    | nil => cases same
    | cons before others =>
      have here : account.reading = before.reading := (List.cons.inj same).1
      have class_ : account.demandClass = before.demandClass := congrArg (fun reading => reading.2.1) here
      have tail := ih (List.cons.inj same).2
      simp only [classUnits] at tail ⊢
      by_cases its : before.demandClass = demandClass
      · simpa [its,class_,weightReading here] using tail
      · simpa [its,class_] using tail

theorem SameReadings.member {other : List ScanAccount} (same : SameReadings state other) (inside : account ∈ state) :
    ∃ before ∈ other, account.reading = before.reading := by
  have kept : account.reading ∈ other.map (·.reading) := same ▸ List.mem_map_of_mem inside
  obtain ⟨before,member,equal⟩ := List.mem_map.mp kept
  exact ⟨before,member,equal.symm⟩

theorem Splits.same {other : List ScanAccount} (splits : Splits demand other) (same : SameReadings state other)
    (alive : ∀ account ∈ state, account.isAlive = true) : Splits demand state := by
  refine ⟨alive,?_,splits.kinds,?_⟩
  · have ids : state.map (·.accountId) = other.map (·.accountId) := by
      have firsts := congrArg (List.map Prod.fst) same
      rw [List.map_map,List.map_map] at firsts
      exact firsts
    exact ids ▸ splits.ids
  · intro account inside window its
    obtain ⟨before,member,here⟩ := same.member inside
    have class_ : account.demandClass = before.demandClass := congrArg (fun reading => reading.2.1) here
    have windows : account.windows.map (fun window => (window.kind,window.measuredUnitsPerHour)) =
        before.windows.map fun window => (window.kind,window.measuredUnitsPerHour) := congrArg (fun reading => reading.2.2.2) here
    have kept : (window.kind,window.measuredUnitsPerHour) ∈ before.windows.map fun window => (window.kind,window.measuredUnitsPerHour) :=
      windows ▸ List.mem_map_of_mem its
    obtain ⟨earlier,there,equal⟩ := List.mem_map.mp kept
    have kind : earlier.kind = window.kind := congrArg Prod.fst equal
    rw [unitsReading same,class_,← kind]
    exact splits.placed before member earlier there

theorem Splits.map (splits : Splits demand state) {change : ScanAccount → ScanAccount}
    (same : ∀ account ∈ state, (change account).reading = account.reading)
    (alive : ∀ account ∈ state, (change account).isAlive = true) : Splits demand (state.map change) := by
  refine splits.same ?_ ?_
  · rw [SameReadings,List.map_map]
    exact List.map_congr_left same
  · intro account inside
    obtain ⟨before,member,rfl⟩ := List.mem_map.mp inside
    exact alive before member

theorem carriedReading : (carried now t slope window).kind = window.kind ∧
    (carried now t slope window).measuredUnitsPerHour = window.measuredUnitsPerHour ∧
    (carried now t slope window).deadUntilMs = window.deadUntilMs := by
  have pinned : ∀ window, (pinCycle t window).kind = window.kind ∧
      (pinCycle t window).measuredUnitsPerHour = window.measuredUnitsPerHour ∧ (pinCycle t window).deadUntilMs = window.deadUntilMs := by
    intro window
    rw [pinCycle]
    split <;> exact ⟨rfl,rfl,rfl⟩
  have lagged : ∀ window, (advanceLag now 1 window).kind = window.kind ∧
      (advanceLag now 1 window).measuredUnitsPerHour = window.measuredUnitsPerHour ∧
      (advanceLag now 1 window).deadUntilMs = window.deadUntilMs := by
    intro window
    simp only [advanceLag]
    split_ifs <;> exact ⟨rfl,rfl,rfl⟩
  simp only [carried]
  split
  · exact ⟨(lagged _).1.trans (pinned _).1,(lagged _).2.1.trans (pinned _).2.1,(lagged _).2.2.trans (pinned _).2.2⟩
  · exact pinned _

theorem paceOwnReading : (paceOwn now t account).reading = account.reading := by
  simp only [paceOwn,ScanAccount.reading,List.map_map]
  refine congrArg _ (congrArg _ (congrArg _ (List.map_congr_left (fun window _ => ?_))))
  simp only [Function.comp,carriedReading.1,carriedReading.2.1]

theorem paceOwnAlive : (paceOwn now t account).isAlive = account.isAlive := by
  simp only [paceOwn,ScanAccount.isAlive,List.all_map]
  refine congrArg _ (List.all_congr rfl (fun window => ?_))
  simp only [Function.comp,carriedReading.2.2]

section
variable (splits : Splits demand w.state)
include splits

theorem Splits.assignOwn (inside : account ∈ w.state) :
    assignAccount now 1 w.t ((get demand account.demandClass).getD []) (written (classEntries demand w.state account.demandClass)) account =
      paceOwn now w.t account := by
  have candidates : classCandidates w.state account.demandClass = w.state.filter (·.demandClass = account.demandClass) := by
    refine List.filter_congr (fun other member => ?_)
    rw [splits.alive other member,Bool.true_and]
  have view : ShareCandidate.of account ∈ (w.state.filter (·.demandClass = account.demandClass)).map ShareCandidate.of :=
    List.mem_map_of_mem (List.mem_filter.mpr ⟨inside,decide_eq_true rfl⟩)
  have ids : (((w.state.filter (·.demandClass = account.demandClass)).map ShareCandidate.of).map (·.accountId)).Nodup := by
    rw [List.map_map]
    exact splits.ids.sublist (List.filter_sublist.map _)
  refine congrArg (fun windows => { account with windows }) (List.map_congr_left (fun window its => ?_))
  have placed := splits.placed account inside window its
  have told := toldShare ids (splits.kinds account.demandClass) view placed
  have slope : assignedSlope 1 ((get (written (classEntries demand w.state account.demandClass)) (account.accountId,window.kind)).getD 0)
      (some (classUnits w.state account.demandClass window.kind)) account.capacityUnits = ownSlope account window := by
    rw [ownSlope]
    cases account.capacityUnits with
    | none => simp [assignedSlope]
    | some capacityUnits =>
      simp only [assignedSlope,mul_one,classEntries,candidates]
      exact congrArg (· / capacityUnits) told
  rw [assignWindow,placed,slope]
  rfl

theorem Splits.oneClass (demandClass : String) :
    ∃ capture, SameDeaths capture w.capture ∧ assignClass proportionalShareRule demand now 1 w demandClass = .ok { w with
      state := w.state.map fun account => if account.demandClass = demandClass then paceOwn now w.t account else account
      capture } := by
  rw [assignClassProportional]
  by_cases none_ : classCandidates w.state demandClass = []
  · refine ⟨w.capture,rfl,?_⟩
    have each : ∀ account ∈ w.state, (if account.demandClass = demandClass then paceOwn now w.t account else account) = account := by
      refine fun account inside => if_neg (fun its => ?_)
      refine List.filter_eq_nil_iff.mp none_ account inside ?_
      simp [splits.alive account inside,its]
    rw [if_pos none_,(List.map_congr_left each).trans (List.map_id' _)]
  · rw [if_neg none_]
    refine ⟨_,sharesSameDeaths (w.t = now) (classEntries demand w.state demandClass) w.capture,?_⟩
    have each : ∀ account ∈ w.state, (if (account.isAlive && decide (account.demandClass = demandClass)) = true then
        assignAccount now 1 w.t ((get demand demandClass).getD []) (written (classEntries demand w.state demandClass)) account
        else account) = if account.demandClass = demandClass then paceOwn now w.t account else account := by
      intro account inside
      rw [splits.alive account inside,Bool.true_and]
      by_cases its : account.demandClass = demandClass
      · subst its
        simp only [decide_true]
        exact splits.assignOwn inside
      · simp [its]
    rw [classAssigned,List.map_congr_left each]

theorem Splits.eachClass (once : classes.Nodup) :
    ∃ capture, SameDeaths capture w.capture ∧ classes.foldlM (assignClass proportionalShareRule demand now 1) w = .ok { w with
      state := w.state.map fun account => if account.demandClass ∈ classes then paceOwn now w.t account else account
      capture } := by
  induction classes generalizing w with
  | nil => exact ⟨w.capture,rfl,by simp [pure,Except.pure]⟩
  | cons demandClass classes ih =>
    obtain ⟨fresh,once⟩ := List.nodup_cons.mp once
    obtain ⟨capture,same,first⟩ := splits.oneClass demandClass
    have reading : ∀ account ∈ w.state,
        (if account.demandClass = demandClass then paceOwn now w.t account else account).reading = account.reading := by
      intro account _
      split
      · exact paceOwnReading
      · rfl
    have alive : ∀ account ∈ w.state,
        (if account.demandClass = demandClass then paceOwn now w.t account else account).isAlive = true := by
      intro account inside
      split
      · exact paceOwnAlive.trans (splits.alive account inside)
      · exact splits.alive account inside
    obtain ⟨after,later,rest⟩ := @ih { w with
      state := w.state.map fun account => if account.demandClass = demandClass then paceOwn now w.t account else account
      capture } (splits.map reading alive) once
    refine ⟨after,later.trans same,?_⟩
    rw [List.foldlM_cons,first]
    refine rest.trans (congrArg (fun state => Except.ok { w with state,capture := after }) ?_)
    rw [List.map_map]
    refine List.map_congr_left (fun account _ => ?_)
    by_cases here : account.demandClass = demandClass
    · have class_ : (paceOwn now w.t account).demandClass = demandClass := here
      simp [here,class_,fresh]
    · simp [here]

theorem Splits.assigned (once : classes.Nodup) (covers : ∀ account ∈ w.state, account.demandClass ∈ classes) :
    ∃ capture, SameDeaths capture w.capture ∧
      assign proportionalShareRule demand classes now 1 w = .ok { w with state := w.state.map (paceOwn now w.t),capture } := by
  have living : w.state.map restDead = w.state := by
    refine (List.map_congr_left (fun account inside => ?_)).trans (List.map_id' _)
    exact if_pos (splits.alive account inside)
  obtain ⟨capture,same,done⟩ := splits.eachClass once
  refine ⟨capture,same,?_⟩
  rw [assign,living,done]
  refine congrArg (fun state => Except.ok { w with state,capture }) (List.map_congr_left (fun account inside => ?_))
  exact if_pos (covers account inside)

end

end Clankermux.RunwayScenario
