import Clankermux.ProbeLeases
import Clankermux.RateLimitLock

/-! A rate-limit lock goes before its time only on evidence that was begun after it was written. -/
namespace Clankermux.RateLimitLock
open RateLimitCooldown

def Newer (processed : List Evidence) (instant : Int) : Prop := ∃ evidence ∈ processed, instant < evidence.startedAt

def Write.Told (processed : List Evidence) : Write → Prop
  | .resetConsecutiveRateLimits notAfterMs => .success notAfterMs ∈ processed
  | .clearOnSuccess clearBoundMs => .success clearBoundMs ∈ processed
  | .stampObservedRateLimitReset _ observedAt => .usageRead observedAt ∈ processed
  | _ => True

structure Restore.Founded (seen : List Evidence) (r : Restore) : Prop where
  processed : r.evidence ∈ seen
  quota : isQuotaDerivedRateLimitReason (some r.expectedReason) = true
  cleared : ∀ cleared startedAt, r.evidence = .claim cleared startedAt → ∃ w ∈ BANKED_RESET_WINDOWS_BY_REASON r.expectedReason, w ∈ cleared
  later : ∀ write ∈ r.later, write.Told seen

def Job.Told (processed : List Evidence) : Job → Prop
  | .write w => w.Told processed
  | .restore r => r.Founded processed

structure Marked (id : String) (g : Gates) (reservation : CapacityProbeReservation) : Prop where
  own : reservation.accountId = id
  inSlot : reservation ∈ g.capacityRestoredPending id
  live : reservation ∉ g.rolledBack
  counted : reservation.generation ≤ g.capacityGenerationCounter

def Job.reservation : Job → Option CapacityProbeReservation
  | .write _ => none
  | .restore r => some r.reservation

def reservations (jobs : List Job) : List CapacityProbeReservation := jobs.filterMap Job.reservation

structure Markers (id : String) (g : Gates) (jobs : List Job) : Prop where
  marked : ∀ reservation ∈ reservations jobs, Marked id g reservation
  distinct : (reservations jobs).Nodup
  rolled : ∀ reservation ∈ g.rolledBack, reservation.generation ≤ g.capacityGenerationCounter

def Stamped (row : Row) (locked : Option Int) (processed : List Evidence) : Prop := row.rateLimitedUntil ≠ none →
  ∃ instant, locked = some instant ∧ (row.rateLimitedAt = some instant ∨ row.rateLimitedAt = none ∧ Newer processed instant)

structure Fits (id : String) (s : State) : Prop where
  lock : Stamped s.row s.locked s.processed
  told : ∀ job ∈ s.jobs, job.Told s.processed
  markers : Markers id s.gates s.jobs

variable {id : String} {s t : State} {g : Gates} {jobs : List Job} {processed : List Evidence} {evidence : Evidence} {r : Restore}
  {row : Row}

theorem Newer.more {instant} (newer : Newer processed instant) : Newer (evidence::processed) instant := by
  obtain ⟨other,inside,later⟩ := newer
  exact ⟨other,.tail _ inside,later⟩
variable {before after : List Job} {job : Job} {w : Write}

theorem Write.Told.more (told : w.Told processed) : w.Told (evidence::processed) := by
  cases w with
  | setRateLimited | setRateLimitedDeadlineOnly => trivial
  | resetConsecutiveRateLimits | clearOnSuccess | stampObservedRateLimitReset => exact .tail _ told

theorem Restore.Founded.more (founded : r.Founded processed) : r.Founded (evidence::processed) :=
  ⟨.tail _ founded.processed,founded.quota,founded.cleared,fun write inside => (founded.later write inside).more⟩

theorem Job.Told.more (told : job.Told processed) : job.Told (evidence::processed) := by
  cases job with
  | write w => exact Write.Told.more (w := w) told
  | restore r => exact Restore.Founded.more (r := r) told

theorem Markers.mark (markers : Markers id g jobs) (writes : List Write) (evidence : Evidence) (later : List Write) (until_ at_ : Int)
    (reason : RateLimitReason) : Markers id (markCapacityRestoredProbePending g id).1
      (jobs ++ (writes.map .write ++ [.restore ⟨until_,at_,reason,evidence,(markCapacityRestoredProbePending g id).2,later⟩])) := by
  have made : reservations (jobs ++ (writes.map .write ++ [.restore ⟨until_,at_,reason,evidence,(markCapacityRestoredProbePending g id).2,later⟩])) =
      reservations jobs ++ [(markCapacityRestoredProbePending g id).2] := by
    simp [reservations,Job.reservation]
  have fresh : ∀ reservation, reservation.generation ≤ g.capacityGenerationCounter → reservation ≠ (markCapacityRestoredProbePending g id).2 := by
    rintro reservation counted rfl
    exact absurd counted (Nat.not_succ_le_self _)
  constructor
  · intro reservation inside
    rw [made] at inside
    rcases List.mem_append.mp inside with there | new
    · have marked := markers.marked reservation there
      refine ⟨marked.own,?_,marked.live,Nat.le_succ_of_le marked.counted⟩
      simp [markCapacityRestoredProbePending,Gates.setPending,marked.inSlot]
    · rw [List.mem_singleton.mp new]
      refine ⟨rfl,by simp [markCapacityRestoredProbePending,Gates.setPending],fun rolled => ?_,le_rfl⟩
      exact fresh _ (markers.rolled _ rolled) rfl
  · rw [made,List.nodup_append]
    refine ⟨markers.distinct,List.nodup_singleton _,fun reservation there other new => ?_⟩
    rw [List.mem_singleton.mp new]
    exact fresh _ (markers.marked _ there).counted
  · exact fun reservation rolled => Nat.le_succ_of_le (markers.rolled reservation rolled)

theorem Markers.writes (markers : Markers id g jobs) (writes : List Write) : Markers id g (jobs ++ writes.map .write) := by
  have same : reservations (jobs ++ writes.map .write) = reservations jobs := by
    simp [reservations,Job.reservation]
  exact ⟨by rw [same]; exact markers.marked,by rw [same]; exact markers.distinct,markers.rolled⟩

theorem Markers.drop (markers : Markers id g (before ++ job::after)) : Markers id g (before ++ after) := by
  have fewer : (reservations (before ++ after)).Sublist (reservations (before ++ job::after)) :=
    ((List.sublist_cons_self job after).append_left before).filterMap _
  exact ⟨fun reservation inside => markers.marked reservation (fewer.subset inside),markers.distinct.sublist fewer,markers.rolled⟩

theorem liveStays {rolledBack slot reservation} (inside : reservation ∈ slot)
    (live : reservation ∉ rolledBack) : reservation ∈ firstLiveReservation rolledBack slot := by
  rw [← List.takeWhile_append_dropWhile (p := fun node => decide (node ∈ rolledBack)) (l := slot)] at inside
  rcases List.mem_append.mp inside with gone | kept
  · have rolled := List.all_eq_true.mp List.all_takeWhile _ gone
    exact absurd (of_decide_eq_true rolled) live
  · exact kept

theorem Markers.rollback (markers : Markers id g (before ++ .restore r::after)) :
    Markers id (rollbackCapacityRestoredProbePending g r.reservation) (before ++ after) := by
  have mine := markers.marked r.reservation (by simp [reservations,Job.reservation])
  have others : ∀ reservation ∈ reservations (before ++ after), reservation ≠ r.reservation := by
    have distinct := markers.distinct
    simp only [reservations,List.filterMap_append,List.filterMap_cons,Job.reservation,List.nodup_middle] at distinct
    intro reservation inside same
    rw [reservations,List.filterMap_append,same] at inside
    exact (List.nodup_cons.mp distinct).1 inside
  obtain ⟨counter,rolledBack⟩ := rollbackRolled (g := g) r.reservation
  refine ⟨fun reservation inside => ?_,markers.drop.distinct,fun reservation rolled => ?_⟩
  · have marked := markers.drop.marked reservation inside
    have live : reservation ∉ r.reservation::g.rolledBack := by
      rintro (_ | ⟨_,there⟩)
      · exact others _ inside rfl
      · exact marked.live there
    refine ⟨marked.own,?_,rolledBack ▸ live,counter ▸ marked.counted⟩
    have slot := marked.inSlot
    simp only [rollbackCapacityRestoredProbePending]
    rw [mine.own]
    split
    · exact slot
    · rename_i owner previous held
      replace held : g.capacityRestoredPending id = owner::previous := held
      split
      · rename_i its
        rw [held,its] at slot
        have kept : reservation ∈ previous := (List.mem_cons.mp slot).resolve_left (others _ inside)
        simpa [Gates.setPending] using liveStays kept live
      · exact slot
  · rw [rolledBack] at rolled
    rw [counter]
    rcases List.mem_cons.mp rolled with rfl | there
    · exact mine.counted
    · exact markers.rolled _ there

theorem releaseCases (id : String) (g : Gates) (acc : Account) (until_ : Int) (reason : RateLimitReason) (evidence : Evidence) (later : List Write) :
    releaseQuotaLockPredating id g acc until_ reason evidence later = (g,none) ∨ ∃ at_, releaseQuotaLockPredating id g acc until_ reason evidence later =
      ((markCapacityRestoredProbePending g id).1,some ⟨until_,at_,reason,evidence,(markCapacityRestoredProbePending g id).2,later⟩) := by
  unfold releaseQuotaLockPredating
  split
  · exact .inl rfl
  · rename_i at_ _
    split
    · exact .inl rfl
    · exact .inr ⟨at_,rfl⟩

structure Called (id : String) (g : Gates) (jobs : List Job) (seen : List Evidence) (writes : List Write) (released : Gates × Option Restore) : Prop where
  told : ∀ write ∈ writes, write.Told seen
  founded : ∀ r, released.2 = some r → r.Founded seen
  markers : Markers id released.1 (jobs ++ (writes.map .write ++ (released.2.map Job.restore).toList))

theorem calledWrites (markers : Markers id g jobs) {writes} (told : ∀ write ∈ writes, write.Told processed) :
    Called id g jobs processed writes (g,none) := by
  refine ⟨told,?_,?_⟩
  · intro r none_
    cases none_
  · simpa using markers.writes writes

theorem calledRelease (markers : Markers id g jobs) (acc : Account) (until_ : Int) {reason later}
    (seen : evidence ∈ processed) (quota : isQuotaDerivedRateLimitReason (some reason) = true)
    (cleared : ∀ cleared startedAt, evidence = .claim cleared startedAt → ∃ w ∈ BANKED_RESET_WINDOWS_BY_REASON reason, w ∈ cleared)
    (told : ∀ write ∈ later, write.Told processed) :
    Called id g jobs processed [] (releaseQuotaLockPredating id g acc until_ reason evidence later) := by
  rcases releaseCases id g acc until_ reason evidence later with same | ⟨at_,same⟩
  · rw [same]
    exact calledWrites markers (List.forall_mem_nil _)
  · rw [same]
    refine ⟨List.forall_mem_nil _,fun r its => ?_,markers.mark [] evidence later until_ at_ reason⟩
    cases its
    exact ⟨seen,quota,cleared,told⟩

theorem stampTold (acc : Account) (evidence : CapacityRestoredEvidence) (seen : .usageRead evidence.fetchStartedAt ∈ processed) :
    ∀ write ∈ stampStaleResetIfStranded acc evidence, write.Told processed := by
  unfold stampStaleResetIfStranded
  dsimp only
  split
  · exact List.forall_mem_singleton.mpr seen
  · exact List.forall_mem_nil _

theorem successTold (account : Account) (clearBoundMs now : Int) (seen : .success clearBoundMs ∈ processed) :
    ∀ write ∈ (applySuccessRateLimitClear account clearBoundMs now).2, write.Told processed := by
  unfold applySuccessRateLimitClear
  dsimp only
  split
  · exact List.forall_mem_nil _
  · split <;> split <;> simp [Write.Told,seen]

theorem restoredCalled (markers : Markers id g jobs) (acc : Option Account) (evidence : CapacityRestoredEvidence) (now : Int)
    (seen : .usageRead evidence.fetchStartedAt ∈ processed) : Called id g jobs processed
      (clearRateLimitOnCapacityRestored id g acc evidence now).1 (clearRateLimitOnCapacityRestored id g acc evidence now).2 := by
  have nothing : Called id g jobs processed [] (g,none) := calledWrites markers (List.forall_mem_nil _)
  cases acc with
  | none => exact nothing
  | some acc =>
    unfold clearRateLimitOnCapacityRestored
    dsimp only
    split
    · exact calledWrites markers (stampTold acc evidence seen)
    · split
      · rename_i quota
        exact calledRelease markers acc _ seen quota (fun _ _ other => by cases other) (stampTold acc evidence seen)
      · exact nothing
    · exact nothing

theorem bankedCalled (markers : Markers id g jobs) (acc : Option Account) (claim : Claim) (now : Int)
    (seen : .claim claim.cleared claim.claimStartedAt ∈ processed) : Called id g jobs processed [] (clearRateLimitOnBankedReset id g acc claim now) := by
  have nothing : Called id g jobs processed [] (g,none) := calledWrites markers (List.forall_mem_nil _)
  cases acc with
  | none => exact nothing
  | some acc =>
    unfold clearRateLimitOnBankedReset
    dsimp only
    split
    · split
      · rename_i eligible
        obtain ⟨quota,windows⟩ := (Bool.and_eq_true ..).mp eligible
        obtain ⟨w,inside,held⟩ := List.any_eq_true.mp windows
        refine calledRelease markers acc _ seen quota (fun cleared startedAt its => ?_) (List.forall_mem_nil _)
        cases its
        exact ⟨w,inside,of_decide_eq_true held⟩
      · exact nothing
    · exact nothing

theorem Stamped.apply (lock : Stamped row locked processed) (told : w.Told processed) :
    Stamped (row.apply w) (w.locks.or locked) processed := by
  intro held
  cases w with
  | setRateLimited until_ reason now => exact ⟨now,rfl,.inl rfl⟩
  | setRateLimitedDeadlineOnly until_ reason now => exact ⟨now,rfl,.inl rfl⟩
  | resetConsecutiveRateLimits notAfterMs =>
    simp only [Row.apply] at held ⊢
    split at held
    · rename_i older
      rw [if_pos older]
      obtain ⟨instant,its,at_ | ⟨none_,newer⟩⟩ := lock held
      · rw [at_] at older
        exact ⟨instant,its,.inr ⟨rfl,_,told,of_decide_eq_true older⟩⟩
      · exact ⟨instant,its,.inr ⟨rfl,newer⟩⟩
    · rename_i newer
      rw [if_neg newer]
      exact lock held
  | clearOnSuccess clearBoundMs =>
    simp only [Row.apply] at held ⊢
    split at held
    · exact absurd rfl held
    · rename_i other
      rw [if_neg other]
      exact lock held
  | stampObservedRateLimitReset expectedReset observedAt =>
    simp only [Row.apply] at held ⊢
    split at held
    · rename_i stamps
      rw [if_pos stamps]
      exact lock held
    · rename_i other
      rw [if_neg other]
      exact lock held

theorem Fits.processes (fit : Fits id s) {writes released}
    (called : Called id s.gates s.jobs (evidence::s.processed) writes released) : Fits id (s.processes evidence writes released) where
  lock held := by
    obtain ⟨instant,its,at_ | ⟨none_,newer⟩⟩ := fit.lock held
    · exact ⟨instant,its,.inl at_⟩
    · exact ⟨instant,its,.inr ⟨none_,newer.more⟩⟩
  told job inside := by
    rcases List.mem_append.mp inside with there | new
    · exact (fit.told job there).more
    · rcases List.mem_append.mp new with write | restore
      · obtain ⟨w,here,rfl⟩ := List.mem_map.mp write
        exact called.told w here
      · obtain ⟨r,released_,rfl⟩ := Option.map_eq_some_iff.mp (Option.mem_toList.mp restore)
        exact called.founded r released_
  markers := called.markers

theorem takeParts {place} (taken : s.take place = some (job,t)) :
    ∃ before after, s.jobs = before ++ job::after ∧ t = { s with jobs := before ++ after } := by
  unfold State.take at taken
  split at taken
  · cases taken
  · rename_i held after there
    cases taken
    exact ⟨s.jobs.take place,after,by rw [← there,List.take_append_drop],rfl⟩

theorem clearedRow (cleared : s.row.clearRateLimitOnCapacityRestore r = some row) :
    (s.row.rateLimitedAt = some r.expectedAt ∧ s.row.rateLimitedReason = some r.expectedReason ∧ r.expectedAt < r.evidence.startedAt) ∧
      row.rateLimitedUntil = none ∧ row.rateLimitReset = s.row.rateLimitReset := by
  unfold Row.clearRateLimitOnCapacityRestore at cleared
  split at cleared
  · rename_i matching
    cases cleared
    exact ⟨matching.2,rfl,rfl⟩
  · cases cleared

theorem Fits.drop (fit : Fits id s) (jobs : s.jobs = before ++ job::after) :
    (∀ other ∈ before ++ after, other.Told s.processed) ∧ job.Told s.processed ∧ Markers id s.gates (before ++ job::after) := by
  have told := fit.told
  rw [jobs] at told
  refine ⟨fun other inside => told other ?_,told job (List.mem_append_right _ (.head _)),jobs ▸ fit.markers⟩
  rcases List.mem_append.mp inside with there | there
  · exact List.mem_append_left _ there
  · exact List.mem_append_right _ (.tail _ there)

theorem Fits.execute (fit : Fits id s) (jobs : s.jobs = before ++ job::after) :
    Fits id (State.execute { s with jobs := before ++ after } job) := by
  obtain ⟨told,its,markers⟩ := fit.drop jobs
  cases job with
  | write w => exact ⟨fit.lock.apply its,told,markers.drop⟩
  | restore r =>
    unfold State.execute
    dsimp only
    split
    · rename_i row cleared
      refine ⟨fun held => absurd (clearedRow cleared).2.1 held,fun other inside => ?_,markers.drop.writes _⟩
      rcases List.mem_append.mp inside with there | new
      · exact told other there
      · obtain ⟨w,here,rfl⟩ := List.mem_map.mp new
        exact its.later w here
    · exact ⟨fit.lock,told,markers.rollback⟩

theorem Fits.throw (fit : Fits id s) (jobs : s.jobs = before ++ job::after) :
    Fits id (State.throw { s with jobs := before ++ after } job) := by
  obtain ⟨told,its,markers⟩ := fit.drop jobs
  cases job with
  | write w => exact ⟨fit.lock,told,markers.drop⟩
  | restore r => exact ⟨fit.lock,told,markers.rollback⟩

theorem Fits.step {e} (fit : Fits id s) (step : s.step id e = some t) : Fits id t := by
  cases e with
  | limit until_ reason now deadlineOnly =>
    cases step
    refine ⟨fit.lock,fun job inside => ?_,fit.markers.writes [_]⟩
    rcases List.mem_append.mp inside with there | new
    · exact fit.told job there
    · rw [List.mem_singleton.mp new]
      cases deadlineOnly <;> trivial
  | success account clearBoundMs now =>
    cases step
    exact fit.processes (calledWrites fit.markers (successTold account clearBoundMs now (.head _)))
  | capacityRestored acc evidence now =>
    cases step
    exact fit.processes (restoredCalled fit.markers acc evidence now (.head _))
  | bankedReset acc claim now =>
    cases step
    exact fit.processes (bankedCalled fit.markers acc claim now (.head _))
  | execute place =>
    obtain ⟨⟨job,rest⟩,taken,rfl⟩ := Option.map_eq_some_iff.mp step
    obtain ⟨before,after,jobs,rfl⟩ := takeParts taken
    exact fit.execute jobs
  | throw place =>
    obtain ⟨⟨job,rest⟩,taken,rfl⟩ := Option.map_eq_some_iff.mp step
    obtain ⟨before,after,jobs,rfl⟩ := takeParts taken
    exact fit.throw jobs

theorem fitsReachable (reach : (lockMachine id).Reachable s) : Fits id s := by
  refine reach.invariant (fun s start => ?_) (fun s e t fit step => fit.step step)
  obtain ⟨idle,gates,locked,stamped⟩ := start
  refine ⟨fun held => ?_,?_,?_⟩
  · obtain ⟨instant,its⟩ := Option.isSome_iff_exists.mp (stamped (Option.isSome_iff_ne_none.mpr held))
    exact ⟨instant,locked.trans its,.inl its⟩
  · rw [idle]
    exact List.forall_mem_nil _
  · rw [idle,gates]
    exact ⟨List.forall_mem_nil _,List.nodup_nil,List.forall_mem_nil _⟩

structure Causal (id : String) (s t : State) (job : Job) : Prop where
  lifted : s.row.rateLimitedUntil ≠ none → t.row.rateLimitedUntil = none →
    ∃ instant, s.locked = some instant ∧ Newer s.processed instant
  released : ∀ r, job = .restore r → t.row.rateLimitedUntil ≠ s.row.rateLimitedUntil →
    (∃ reason, s.row.rateLimitedReason = some reason ∧ isQuotaDerivedRateLimitReason (some reason) = true ∧
      ∀ cleared startedAt, r.evidence = .claim cleared startedAt → ∃ w ∈ BANKED_RESET_WINDOWS_BY_REASON reason, w ∈ cleared) ∧
    s.gates.reservation id ≠ none
  moved : t.row.rateLimitReset ≠ s.row.rateLimitReset → ∃ recorded observedAt, s.row.rateLimitReset = some recorded ∧ observedAt < recorded ∧
    t.row.rateLimitReset = some observedAt ∧ .usageRead observedAt ∈ s.processed

theorem Stamped.lifted (lock : Stamped row locked processed) (told : w.Told processed) (held : row.rateLimitedUntil ≠ none)
    (gone : (row.apply w).rateLimitedUntil = none) : ∃ instant, locked = some instant ∧ Newer processed instant := by
  obtain ⟨instant,its,at_⟩ := lock held
  refine ⟨instant,its,?_⟩
  rcases at_ with at_ | ⟨-,newer⟩
  · cases w with
    | clearOnSuccess clearBoundMs =>
      simp only [Row.apply] at gone
      split at gone
      · rename_i clears
        have older := ((Bool.and_eq_true ..).mp clears).2
        rw [at_] at older
        exact ⟨_,told,of_decide_eq_true older⟩
      · exact absurd gone held
    | setRateLimited | setRateLimitedDeadlineOnly => cases gone
    | resetConsecutiveRateLimits | stampObservedRateLimitReset =>
      simp only [Row.apply] at gone
      split at gone <;> exact absurd gone held
  · exact newer

theorem Row.moved (told : w.Told processed) (moves : (row.apply w).rateLimitReset ≠ row.rateLimitReset) :
    ∃ recorded observedAt, row.rateLimitReset = some recorded ∧ observedAt < recorded ∧ (row.apply w).rateLimitReset = some observedAt ∧
      .usageRead observedAt ∈ processed := by
  cases w with
  | stampObservedRateLimitReset expectedReset observedAt =>
    simp only [Row.apply] at moves ⊢
    split at moves
    · rename_i stamps
      exact ⟨expectedReset,observedAt,stamps.1,stamps.2.1,by rw [if_pos stamps],told⟩
    · exact absurd rfl moves
  | setRateLimited | setRateLimitedDeadlineOnly => exact absurd rfl moves
  | resetConsecutiveRateLimits | clearOnSuccess =>
    simp only [Row.apply] at moves
    split at moves <;> exact absurd rfl moves

/-- Only the execution of a write touches the row, and it lifts a lock only on newer evidence. -/
theorem lockLifted (id : String) (s t : State) (e : Event) (reach : (lockMachine id).Reachable s) (step : (lockMachine id).step s e = some t) :
    t.row = s.row ∨ ∃ place job rest, e = .execute place ∧ s.take place = some (job,rest) ∧ Causal id s t job := by
  have fit := fitsReachable reach
  cases e with
  | limit | success | capacityRestored | bankedReset =>
    cases step
    exact .inl rfl
  | throw place =>
    obtain ⟨⟨job,rest⟩,taken,rfl⟩ := Option.map_eq_some_iff.mp step
    obtain ⟨before,after,jobs,rfl⟩ := takeParts taken
    refine .inl ?_
    cases job <;> rfl
  | execute place =>
    obtain ⟨⟨job,rest⟩,taken,rfl⟩ := Option.map_eq_some_iff.mp step
    refine .inr ⟨place,job,rest,rfl,taken,?_⟩
    obtain ⟨before,after,jobs,rfl⟩ := takeParts taken
    obtain ⟨-,its,markers⟩ := fit.drop jobs
    cases job with
    | write w => exact ⟨fit.lock.lifted its,fun r other => (by cases other),Row.moved its⟩
    | restore r =>
      dsimp only [State.execute]
      split
      · rename_i row cleared
        obtain ⟨⟨at_,reason,older⟩,-,reset⟩ := clearedRow cleared
        refine ⟨fun held _ => ?_,fun _ same _ => ?_,fun moves => absurd reset moves⟩
        · obtain ⟨instant,locked,stamped | ⟨none_,-⟩⟩ := fit.lock held
          · cases Option.some.inj (stamped.symm.trans at_)
            exact ⟨_,locked,_,its.processed,older⟩
          · cases none_.symm.trans at_
        · cases same
          have slot := (markers.marked r.reservation (by simp [reservations,Job.reservation])).inSlot
          refine ⟨⟨_,reason,its.quota,its.cleared⟩,fun none_ => ?_⟩
          rw [List.head?_eq_none_iff.mp none_] at slot
          cases slot
      · exact ⟨fun held gone => absurd gone held,fun _ _ moves => absurd rfl moves,fun moves => absurd rfl moves⟩

def lockedRow : Row := ⟨1,some 1000,some .weekly_exhausted_429,some 10,none,false⟩

def lockedState : State := ⟨lockedRow,[],.empty,some 10,[]⟩

def reading : Event := .capacityRestored (some ⟨lockedRow,"anthropic",true,none⟩) ⟨20,[]⟩ 30

def underWay : State := (lockedState.step "a" reading).getD lockedState

def unlocked : State := (underWay.step "a" (.execute 0)).getD lockedState

theorem weeklyLifted : underWay.row.rateLimitedUntil = some 1000 ∧ unlocked.row.rateLimitedUntil = none ∧
    (unlocked.row = underWay.row ∨ ∃ place job rest, Event.execute 0 = .execute place ∧ underWay.take place = some (job,rest) ∧
      Causal "a" underWay unlocked job) :=
  ⟨rfl,rfl,lockLifted "a" underWay unlocked (.execute 0) (Machine.runReachable [reading] ⟨rfl,rfl,rfl,fun _ => rfl⟩ rfl) rfl⟩

end Clankermux.RateLimitLock
