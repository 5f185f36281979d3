import Clankermux.LatestWins
import Clankermux.UnifiedClaims
import Mathlib.Data.Prod.Lex

/-! The usage readings that the unified headers of one account's answers carry, and their merge. -/
namespace Clankermux.UsageHeaderView
open UnifiedClaims (Number)

def USAGE_READING_CLAIM_STATUSES : List String := ["allowed","allowed_warning"]

structure ExtractedClaimReading where
  claim : String
  status : String
  utilization : Option Number
  resetMs : Option Number

structure HeaderWindowReading where
  utilization : ℚ
  resetMs : ℚ
  status : String
  observedAtMs : ℚ

inductive Kind where
  | present
  | absent
  deriving DecidableEq

structure FiveHourShapeObservation where
  kind : Kind
  observedAtMs : ℚ

structure HeaderWindows where
  fiveHour : Option HeaderWindowReading
  sevenDay : Option HeaderWindowReading
  fiveHourShape : Option FiveHourShapeObservation
  fiveHourAbsentAtMs : Option ℚ

def MAX_DATE_MS : ℚ := 8640000000000000

def toPercent (fraction : ℚ) : ℚ := (fraction*100*1000000 + 1/2).floor/1000000

def headerWindowFromClaim (claim : ExtractedClaimReading) (observedAtMs : ℚ) : Option HeaderWindowReading := do
  if claim.status ∉ USAGE_READING_CLAIM_STATUSES then none
  else
    let utilization ← claim.utilization.bind Number.isFinite
    if utilization < 0 ∨ 1 < utilization then none
    else
      let resetMs ← claim.resetMs.bind Number.isFinite
      if resetMs ≤ observedAtMs ∨ MAX_DATE_MS < resetMs then none
      else some ⟨toPercent utilization,resetMs,claim.status,observedAtMs⟩

def pick (claims : List ExtractedClaimReading) (observedAtMs : ℚ) (token : String) : Option HeaderWindowReading :=
  (claims.find? (·.claim = token)).bind (headerWindowFromClaim · observedAtMs)

def headerWindowsFromClaims (claims : List ExtractedClaimReading) (observedAtMs : ℚ) (fiveHourShape : Option Kind) : HeaderWindows where
  fiveHour := pick claims observedAtMs "5h"
  sevenDay := pick claims observedAtMs "7d"
  fiveHourShape := fiveHourShape.map (⟨·,observedAtMs⟩)
  fiveHourAbsentAtMs := if fiveHourShape = some .absent then some observedAtMs else none

def newerOf (stored incoming : Option HeaderWindowReading) : Option HeaderWindowReading :=
  match stored,incoming with
  | stored,none => stored
  | none,some incoming => some incoming
  | some stored,some incoming => if stored.observedAtMs > incoming.observedAtMs then some stored else some incoming

def newerShape (stored incoming : Option FiveHourShapeObservation) : Option FiveHourShapeObservation :=
  match stored,incoming with
  | stored,none => stored
  | none,some incoming => some incoming
  | some stored,some incoming =>
    if incoming.observedAtMs > stored.observedAtMs then some incoming
    else if incoming.observedAtMs < stored.observedAtMs then some stored
    else if incoming.kind = .present then some incoming
    else some stored

def laterOf (a b : Option ℚ) : Option ℚ :=
  match a,b with
  | none,b => b
  | a,none => a
  | some a,some b => some (max a b)

def afterAbsence (absentAtMs : Option ℚ) (reading : Option HeaderWindowReading) : Option HeaderWindowReading :=
  reading.filter (fun reading => absentAtMs.all (· < reading.observedAtMs))

def mergeHeaderWindows (stored : Option HeaderWindows) (incoming : HeaderWindows) : HeaderWindows :=
  let absentAtMs := laterOf (stored.bind (·.fiveHourAbsentAtMs)) incoming.fiveHourAbsentAtMs
  { fiveHour := newerOf (afterAbsence absentAtMs (stored.bind (·.fiveHour))) (afterAbsence absentAtMs incoming.fiveHour)
    sevenDay := newerOf (stored.bind (·.sevenDay)) incoming.sevenDay
    fiveHourShape := newerShape (stored.bind (·.fiveHourShape)) incoming.fiveHourShape
    fiveHourAbsentAtMs := absentAtMs }

def polledAbsence (observedAtMs : ℚ) : HeaderWindows := ⟨none,none,none,some observedAtMs⟩

/-! The header evidence of an account does not depend on the order in which its answers arrive. -/
open LatestWins

inductive Observation where
  | answer (claims : List ExtractedClaimReading) (observedAtMs : ℚ) (fiveHourShape : Option Kind)
  | absence (observedAtMs : ℚ)

def Observation.windows : Observation → HeaderWindows
  | .answer claims observedAtMs fiveHourShape => headerWindowsFromClaims claims observedAtMs fiveHourShape
  | .absence observedAtMs => polledAbsence observedAtMs

inductive Grouping where
  | first (o : Observation)
  | next (earlier : Grouping) (o : Observation)
  | join (left right : Grouping)

def Grouping.value : Grouping → HeaderWindows
  | .first o => mergeHeaderWindows none o.windows
  | .next earlier o => mergeHeaderWindows (some earlier.value) o.windows
  | .join left right => mergeHeaderWindows (some left.value) right.value

def Grouping.members : Grouping → List Observation
  | .first o => [o]
  | .next earlier o => earlier.members ++ [o]
  | .join left right => left.members ++ right.members

def arriving (o : Observation) (later : List Observation) : Grouping := later.foldl .next (.first o)

def readings {α : Type} (axis : HeaderWindows → Option α) (members : List Observation) : List α := members.filterMap (fun o => axis o.windows)

def rank (shape : FiveHourShapeObservation) : ℚ ×ₗ Bool := toLex (shape.observedAtMs,decide (shape.kind = .present))

structure Summary (members : List Observation) (w : HeaderWindows) : Prop where
  sevenDay : Latest (·.observedAtMs) (readings (·.sevenDay) members) w.sevenDay
  fiveHour : ∃ latest, Latest (·.observedAtMs) (readings (·.fiveHour) members) latest ∧ w.fiveHour = afterAbsence w.fiveHourAbsentAtMs latest
  fiveHourShape : Latest rank (readings (·.fiveHourShape) members) w.fiveHourShape
  absent : Latest id (readings (·.fiveHourAbsentAtMs) members) w.fiveHourAbsentAtMs

structure Distinct (members : List Observation) : Prop where
  fiveHour : ∀ a ∈ members, ∀ b ∈ members, ∀ r ∈ a.windows.fiveHour, ∀ s ∈ b.windows.fiveHour, r.observedAtMs = s.observedAtMs → a = b
  sevenDay : ∀ a ∈ members, ∀ b ∈ members, ∀ r ∈ a.windows.sevenDay, ∀ s ∈ b.windows.sevenDay, r.observedAtMs = s.observedAtMs → a = b

theorem newerOfNewer (stored incoming : Option HeaderWindowReading) : newerOf stored incoming = newer (·.observedAtMs) stored incoming := by
  cases stored <;> cases incoming <;> rfl

theorem laterOfNewer (a b : Option ℚ) : laterOf a b = newer id a b := by
  cases a with
  | none => cases b <;> rfl
  | some a =>
    cases b with
    | none => rfl
    | some b =>
      by_cases later : b < a
      · simp [laterOf,newer,later,max_eq_left (le_of_lt later)]
      · simp [laterOf,newer,later,max_eq_right (not_lt.mp later)]

theorem newerShapeNewer (stored incoming : Option FiveHourShapeObservation) : newerShape stored incoming = newer rank stored incoming := by
  cases stored with
  | none => cases incoming <;> rfl
  | some stored =>
    cases incoming with
    | none => rfl
    | some incoming =>
      obtain ⟨kind,t⟩ := stored
      obtain ⟨kind',t'⟩ := incoming
      simp only [newerShape,newer,rank,Prod.Lex.toLex_lt_toLex]
      rcases lt_trichotomy t' t with earlier | same | later
      · simp [earlier,not_lt_of_gt earlier]
      · subst same
        cases kind <;> cases kind' <;> simp
      · simp [later,not_lt_of_gt later,ne_of_gt later]

theorem laterAll (a b : Option ℚ) (t : ℚ) : (laterOf a b).all (· < t) = (a.all (· < t) && b.all (· < t)) := by
  cases a with
  | none => cases b <;> simp [laterOf]
  | some a => cases b <;> simp [laterOf]

theorem afterAbsenceTwice {earlier absent} (covers : ∀ t, absent.all (· < t) = true → earlier.all (· < t) = true)
    (reading : Option HeaderWindowReading) : afterAbsence absent (afterAbsence earlier reading) = afterAbsence absent reading := by
  unfold afterAbsence
  rw [Option.filter_filter]
  refine congrArg (fun p => Option.filter p reading) (funext fun r => ?_)
  cases held : absent.all (· < r.observedAtMs) with
  | true => rw [covers _ held]; rfl
  | false => rw [Bool.and_false]

theorem afterAbsenceNewer (absent : Option ℚ) (stored incoming : Option HeaderWindowReading) :
    newerOf (afterAbsence absent stored) (afterAbsence absent incoming) = afterAbsence absent (newerOf stored incoming) := by
  rw [newerOfNewer,newerOfNewer]
  refine newerFiltered (fun r s below kept => ?_) stored incoming
  cases absent with
  | none => rfl
  | some t => exact decide_eq_true (lt_of_lt_of_le (of_decide_eq_true kept) below)

structure Evidence (members : List Observation) (w : HeaderWindows) : Prop where
  sevenDay : Latest (·.observedAtMs) (readings (·.sevenDay) members) w.sevenDay
  fiveHour : ∃ latest, Latest (·.observedAtMs) (readings (·.fiveHour) members) latest ∧
    afterAbsence w.fiveHourAbsentAtMs w.fiveHour = afterAbsence w.fiveHourAbsentAtMs latest
  fiveHourShape : Latest rank (readings (·.fiveHourShape) members) w.fiveHourShape
  absent : Latest id (readings (·.fiveHourAbsentAtMs) members) w.fiveHourAbsentAtMs

theorem readingsOne {α : Type} (axis : HeaderWindows → Option α) (o : Observation) : readings axis [o] = (axis o.windows).toList := by
  rw [readings,List.filterMap_cons]
  cases axis o.windows <;> rfl

theorem readingsAppend {α : Type} (axis : HeaderWindows → Option α) (xs ys : List Observation) :
    readings axis (xs ++ ys) = readings axis xs ++ readings axis ys := List.filterMap_append

theorem evidenceOne (o : Observation) : Evidence [o] o.windows where
  sevenDay := by rw [readingsOne]; exact latestOption _
  fiveHour := ⟨o.windows.fiveHour,by rw [readingsOne]; exact latestOption _,rfl⟩
  fiveHourShape := by rw [readingsOne]; exact latestOption _
  absent := by rw [readingsOne]; exact latestOption _

variable {xs ys : List Observation} {v w : HeaderWindows}

theorem Summary.evidence (summary : Summary xs w) : Evidence xs w := by
  obtain ⟨latest,isLatest,kept⟩ := summary.fiveHour
  refine { summary with fiveHour := ⟨latest,isLatest,?_⟩ }
  rw [kept]
  exact afterAbsenceTwice (fun _ held => held) latest

theorem mergeSummary (stored : Evidence xs v) (incoming : Evidence ys w) : Summary (xs ++ ys) (mergeHeaderWindows (some v) w) := by
  obtain ⟨old,oldLatest,oldKept⟩ := stored.fiveHour
  obtain ⟨new,newLatest,newKept⟩ := incoming.fiveHour
  refine ⟨?_,⟨newerOf old new,?_,?_⟩,?_,?_⟩
  · rw [readingsAppend]
    change Latest _ _ (newerOf v.sevenDay w.sevenDay)
    rw [newerOfNewer]
    exact latestNewer stored.sevenDay incoming.sevenDay
  · rw [readingsAppend,newerOfNewer]
    exact latestNewer oldLatest newLatest
  · have oldSide : ∀ reading, afterAbsence (laterOf v.fiveHourAbsentAtMs w.fiveHourAbsentAtMs) (afterAbsence v.fiveHourAbsentAtMs reading) =
        afterAbsence (laterOf v.fiveHourAbsentAtMs w.fiveHourAbsentAtMs) reading :=
      afterAbsenceTwice (fun t after => by rw [laterAll] at after; exact (Bool.and_eq_true_iff.mp after).1)
    have newSide : ∀ reading, afterAbsence (laterOf v.fiveHourAbsentAtMs w.fiveHourAbsentAtMs) (afterAbsence w.fiveHourAbsentAtMs reading) =
        afterAbsence (laterOf v.fiveHourAbsentAtMs w.fiveHourAbsentAtMs) reading :=
      afterAbsenceTwice (fun t after => by rw [laterAll] at after; exact (Bool.and_eq_true_iff.mp after).2)
    calc
      newerOf (afterAbsence (laterOf v.fiveHourAbsentAtMs w.fiveHourAbsentAtMs) v.fiveHour)
          (afterAbsence (laterOf v.fiveHourAbsentAtMs w.fiveHourAbsentAtMs) w.fiveHour)
        = newerOf (afterAbsence (laterOf v.fiveHourAbsentAtMs w.fiveHourAbsentAtMs) old)
          (afterAbsence (laterOf v.fiveHourAbsentAtMs w.fiveHourAbsentAtMs) new) := by
            rw [← oldSide v.fiveHour,oldKept,oldSide,← newSide w.fiveHour,newKept,newSide]
      _ = afterAbsence (laterOf v.fiveHourAbsentAtMs w.fiveHourAbsentAtMs) (newerOf old new) := afterAbsenceNewer _ old new
  · rw [readingsAppend]
    change Latest _ _ (newerShape v.fiveHourShape w.fiveHourShape)
    rw [newerShapeNewer]
    exact latestNewer stored.fiveHourShape incoming.fiveHourShape
  · rw [readingsAppend]
    change Latest _ _ (laterOf v.fiveHourAbsentAtMs w.fiveHourAbsentAtMs)
    rw [laterOfNewer]
    exact latestNewer stored.absent incoming.absent

theorem evidenceNone : Evidence [] ⟨none,none,none,none⟩ := ⟨rfl,⟨none,rfl,rfl⟩,rfl,rfl⟩

theorem groupingSummary (g : Grouping) : Summary g.members g.value := by
  induction g with
  | first o =>
    exact mergeSummary evidenceNone (evidenceOne o)
  | next earlier o earlierSummary => exact mergeSummary earlierSummary.evidence (evidenceOne o)
  | join left right leftSummary rightSummary => exact mergeSummary leftSummary.evidence rightSummary.evidence

theorem readingsSame {α : Type} (axis : HeaderWindows → Option α) (same : ∀ o, o ∈ xs ↔ o ∈ ys) (r : α) :
    r ∈ readings axis xs ↔ r ∈ readings axis ys := by
  simp only [readings,List.mem_filterMap,same]

theorem rankInjective (a b : FiveHourShapeObservation) (same : rank a = rank b) : a = b := by
  obtain ⟨kind,t⟩ := a
  obtain ⟨kind',t'⟩ := b
  obtain ⟨sameTime,sameKind⟩ := Prod.mk.inj (toLex.injective same)
  cases kind <;> cases kind' <;> simp_all

theorem readingsDistinct {axis : HeaderWindows → Option HeaderWindowReading}
    (distinct : ∀ a ∈ xs, ∀ b ∈ xs, ∀ r ∈ axis a.windows, ∀ s ∈ axis b.windows, r.observedAtMs = s.observedAtMs → a = b) :
    ∀ r ∈ readings axis xs, ∀ s ∈ readings axis xs, r.observedAtMs = s.observedAtMs → r = s := by
  intro r first s second same
  obtain ⟨a,aIn,aReads⟩ := List.mem_filterMap.mp first
  obtain ⟨b,bIn,bReads⟩ := List.mem_filterMap.mp second
  have one := distinct a aIn b bIn r aReads s bReads same
  rw [one,bReads] at aReads
  exact Option.some.inj aReads.symm

theorem summaryUnique (distinct : Distinct xs) (same : ∀ o, o ∈ xs ↔ o ∈ ys) (first : Summary xs v) (second : Summary ys w) : v = w := by
  obtain ⟨old,oldLatest,oldKept⟩ := first.fiveHour
  obtain ⟨new,newLatest,newKept⟩ := second.fiveHour
  have sevenDay := latestUnique (readingsDistinct distinct.sevenDay) (readingsSame _ same) first.sevenDay second.sevenDay
  have latest := latestUnique (readingsDistinct distinct.fiveHour) (readingsSame _ same) oldLatest newLatest
  have shape := latestUnique (fun a _ b _ => rankInjective a b) (readingsSame _ same) first.fiveHourShape second.fiveHourShape
  have absent := latestUnique (fun _ _ _ _ h => h) (readingsSame _ same) first.absent second.absent
  have fiveHour : v.fiveHour = w.fiveHour := by rw [oldKept,newKept,latest,absent]
  cases v
  cases w
  simp_all

def Observation.stamp : Observation → ℚ
  | .answer _ observedAtMs _ => observedAtMs
  | .absence observedAtMs => observedAtMs
variable {r : HeaderWindowReading}

theorem claimStamp {claim observedAtMs}
    (reads : headerWindowFromClaim claim observedAtMs = some r) : r.observedAtMs = observedAtMs := by
  unfold headerWindowFromClaim at reads
  split at reads
  · cases reads
  · obtain ⟨utilization,-,reads⟩ := Option.bind_eq_some_iff.mp reads
    split at reads
    · cases reads
    · obtain ⟨resetMs,-,reads⟩ := Option.bind_eq_some_iff.mp reads
      split at reads
      · cases reads
      · rw [← Option.some.inj reads]

theorem pickStamp {claims observedAtMs token}
    (reads : pick claims observedAtMs token = some r) : r.observedAtMs = observedAtMs := by
  obtain ⟨claim,-,reads⟩ := Option.bind_eq_some_iff.mp reads
  exact claimStamp reads

theorem fiveHourStamp {o : Observation} (reads : r ∈ o.windows.fiveHour) : r.observedAtMs = o.stamp := by
  cases o with
  | answer claims observedAtMs fiveHourShape => exact pickStamp reads
  | absence observedAtMs => cases reads

theorem sevenDayStamp {o : Observation} (reads : r ∈ o.windows.sevenDay) : r.observedAtMs = o.stamp := by
  cases o with
  | answer claims observedAtMs fiveHourShape => exact pickStamp reads
  | absence observedAtMs => cases reads

theorem distinctStamps (stamps : ∀ a ∈ xs, ∀ b ∈ xs, a.stamp = b.stamp → a = b) : Distinct xs where
  fiveHour a aIn b bIn _ first _ second same := stamps a aIn b bIn (fiveHourStamp first ▸ fiveHourStamp second ▸ same)
  sevenDay a aIn b bIn _ first _ second same := stamps a aIn b bIn (sevenDayStamp first ▸ sevenDayStamp second ▸ same)

/-- The windows of a set of observations are the same in every order and grouping, and a repeated one changes nothing. -/
theorem mergedAnyOrder (g k : Grouping) (same : ∀ o, o ∈ g.members ↔ o ∈ k.members) (distinct : Distinct g.members) :
    g.value = k.value ∧ Summary g.members g.value ∧ ∀ o ∈ g.members, mergeHeaderWindows (some g.value) o.windows = g.value := by
  refine ⟨summaryUnique distinct same (groupingSummary g) (groupingSummary k),groupingSummary g,fun o inside => ?_⟩
  refine (summaryUnique distinct (fun p => ?_) (groupingSummary g) (groupingSummary (.next g o))).symm
  refine ⟨List.mem_append_left _,fun there => ?_⟩
  rcases List.mem_append.mp there with old | new
  · exact old
  · exact List.mem_singleton.mp new ▸ inside

def early : Observation := .answer [⟨"5h","allowed",some (.finite (1/2)),some (.finite 100)⟩] 10 (some .present)

def late : Observation :=
  .answer [⟨"5h","allowed",some (.finite (1/4)),some (.finite 100)⟩,⟨"7d","allowed_warning",some (.finite (3/4)),some (.finite 500)⟩] 30 (some .present)

theorem threeDistinct : Distinct [early,.absence 20,late] := by
  refine distinctStamps (fun a aIn b bIn same => ?_)
  simp only [List.mem_cons,List.not_mem_nil,or_false] at aIn bIn
  rcases aIn with rfl | rfl | rfl <;> rcases bIn with rfl | rfl | rfl <;> first | rfl | exact absurd same (by decide +kernel)

/-- A reading before an absence does not come back after it, whichever of them arrives first. -/
theorem threeMerged :
    (arriving early [.absence 20,late]).value = (Grouping.join (.first late) (arriving (.absence 20) [early])).value ∧
      (arriving (.absence 20) [early]).value.fiveHour = none := by
  refine ⟨(mergedAnyOrder (arriving early [.absence 20,late]) (.join (.first late) (arriving (.absence 20) [early])) (fun o => ?_) threeDistinct).1,
    by decide +kernel⟩
  simp only [arriving,List.foldl_cons,List.foldl_nil,Grouping.members,List.mem_append]
  tauto

end Clankermux.UsageHeaderView
