import Clankermux.AutoRefresh
import Clankermux.History

/-! What holds of every run of the cycles: there is one at a time, it primes an account once, it
keeps the cooldown of an account that it tracks, and each of its guarded writes finds what its
guard says. -/
namespace Clankermux.AutoRefreshScheduler
open InsertionMap History

@[grind] def Sound : Happened → Prop
  | .dispatched _ flag => flag = some true
  | .resumed _ row _ => row.autoPauseOnOverageEnabled = true ∧ row.paused = true ∧ (row.pauseReason = none ∨ row.pauseReason = some "overage")
  | .peakResumed _ before => before.pauseReason = some "peak_hours"
  | .peakPaused _ before => before.paused = false
  | .thresholdPaused _ before => before.paused = false
  | _ => True

def LastAttempt (trace : List Happened) (id : String) (at_ : Int) : Prop :=
  ∃ newer, Since trace (.attempted id at_) newer ∧ (∀ other, .attempted id other ∉ newer) ∧ .forgotten id ∉ newer

def PrimedOnce (trace : List Happened) : Prop :=
  ∀ newer older cycle reason id now owned, trace = newer ++ .primed cycle reason id now owned::older →
    (∀ other at_ its, .primed cycle other id at_ its ∉ older) ∧
    (reason = .weekly → owned = false ∧ ∀ other at_ its, .primed cycle .weekly other at_ its ∉ older)

def CooledDown (trace : List Happened) : Prop :=
  ∀ newer older cycle reason id now, trace = newer ++ .primed cycle reason id now true::older →
    ∀ at_, LastAttempt older id at_ → now - at_ ≥ FIVE_HOUR_PRIME_COOLDOWN_MS

@[grind] def Happened.aside : Happened → Bool
  | .primed _ _ _ _ _ | .attempted _ _ | .forgotten _ => false
  | _ => true

structure Kept (s after : Scheduler) : Prop where
  rows : (keys s.rows).Nodup → (keys after.rows).Nodup
  refreshMutex : after.refreshMutex = s.refreshMutex
  cycles : after.cycles = s.cycles
  nextTask : after.nextTask = s.nextTask
  last : after.lastFiveHourPrimeTime = s.lastFiveHourPrimeTime
  trace : ∃ added, after.trace = added ++ s.trace ∧ ∀ h ∈ added, h.aside = true ∧ Sound h

structure Base (s : Scheduler) : Prop where
  rows : (keys s.rows).Nodup
  numbered : ∀ cycle reason id now owned, .primed cycle reason id now owned ∈ s.trace → cycle < s.nextTask
  cooling : ∀ id at_, LastAttempt s.trace id at_ → get s.lastFiveHourPrimeTime id = some at_
  once : PrimedOnce s.trace
  cooled : CooledDown s.trace
  sound : ∀ h ∈ s.trace, Sound h

section Kept
variable {s mid after : Scheduler} {id : String} {added trace : List Happened}

theorem Kept.refl : Kept s s := ⟨fun unique => unique,rfl,rfl,rfl,rfl,[],rfl,by simp⟩

theorem Kept.trans (first : Kept s mid) (second : Kept mid after) : Kept s after := by
  obtain ⟨one,its,aside⟩ := first.trace
  obtain ⟨two,theirs,aside'⟩ := second.trace
  refine ⟨fun unique => second.rows (first.rows unique),second.refreshMutex.trans first.refreshMutex,second.cycles.trans first.cycles,
    second.nextTask.trans first.nextTask,second.last.trans first.last,two ++ one,by rw [theirs,its,List.append_assoc],?_⟩
  intro h inside
  exact (List.mem_append.mp inside).elim (aside' h) (aside h)

theorem updateKept {change note}
    (good : ∀ row, get s.rows id = some row → (note row).aside = true ∧ Sound (note row)) : Kept s (s.update id change note) := by
  unfold Scheduler.update
  split
  · rename_i row found
    exact ⟨nodupSet,rfl,rfl,rfl,rfl,[note row],rfl,by simpa using good row found⟩
  · exact .refl

theorem rewriteKept {change} : Kept s (s.rewrite id change) := by
  unfold Scheduler.rewrite
  split
  · exact ⟨nodupSet,rfl,rfl,rfl,rfl,[],rfl,by simp⟩
  · exact .refl

theorem lastAttemptAside (aside : ∀ h ∈ added, h.aside = true) {at_} (last : LastAttempt (added ++ trace) id at_) :
    LastAttempt trace id at_ := by
  obtain ⟨newer,since,none_,kept⟩ := last
  have absent : .attempted id at_ ∉ added := fun inside => absurd (aside _ inside) (by simp [Happened.aside])
  obtain ⟨rest,rfl,later⟩ := sinceAdded absent since
  exact ⟨rest,later,fun other inside => none_ other (List.mem_append_right _ inside),fun inside => kept (List.mem_append_right _ inside)⟩

theorem PrimedOnce.grow (once : PrimedOnce trace) (none_ : ∀ cycle reason id now owned, .primed cycle reason id now owned ∉ added) :
    PrimedOnce (added ++ trace) := by
  intro newer older cycle reason id now owned split
  obtain ⟨rest,-,split⟩ := splitAdded (none_ cycle reason id now owned) split
  exact once rest older cycle reason id now owned split

theorem CooledDown.grow (cooled : CooledDown trace) (none_ : ∀ cycle reason id now owned, .primed cycle reason id now owned ∉ added) :
    CooledDown (added ++ trace) := by
  intro newer older cycle reason id now split
  obtain ⟨rest,-,split⟩ := splitAdded (none_ cycle reason id now true) split
  exact cooled rest older cycle reason id now split

theorem Kept.primed (kept : Kept s after) {cycle reason now owned} :
    .primed cycle reason id now owned ∈ after.trace ↔ .primed cycle reason id now owned ∈ s.trace := by
  obtain ⟨added,its,aside⟩ := kept.trace
  rw [its,List.mem_append,or_iff_right_iff_imp]
  exact fun inside => absurd (aside _ inside).1 (by simp [Happened.aside])

theorem Base.keep (base : Base s) (kept : Kept s after) : Base after := by
  obtain ⟨added,its,aside⟩ := kept.trace
  have none_ : ∀ cycle reason id now owned, .primed cycle reason id now owned ∉ added :=
    fun _ _ _ _ _ inside => absurd (aside _ inside).1 (by simp [Happened.aside])
  refine ⟨kept.rows base.rows,?_,?_,its ▸ base.once.grow none_,its ▸ base.cooled.grow none_,?_⟩
  · intro cycle reason id now owned inside
    rw [kept.nextTask]
    exact base.numbered cycle reason id now owned (kept.primed.mp inside)
  · intro id at_ last
    rw [kept.last]
    rw [its] at last
    exact base.cooling id at_ (lastAttemptAside (fun h inside => (aside h inside).1) last)
  · intro h inside
    rw [its] at inside
    exact (List.mem_append.mp inside).elim (fun new => (aside h new).2) (base.sound h)

end Kept

structure BatchOk (s : Scheduler) (task : TaskId) (now : Int) (batch : Batch) : Prop where
  unique : (batch.rest.map Prod.fst).Nodup
  owned : ∀ account ∈ batch.rest, account.1 ∈ batch.owned
  past : ∀ reason id at_ its, .primed task reason id at_ its ∈ s.trace →
    reason = .fiveHour ∧ id ∈ batch.owned ∧ id ∉ batch.rest.map Prod.fst
  cool : ∀ account ∈ batch.rest, ∀ at_, get s.lastFiveHourPrimeTime account.1 = some at_ → now - at_ ≥ FIVE_HOUR_PRIME_COOLDOWN_MS
  chosen : ∀ account ∈ batch.accounts, selected now account.2 = true
  among : batch.rest ⊆ batch.accounts

@[grind] def StageOk (p : Prime) : Stage → Prop
  | .codexResuming => overagePaused p.row = true
  | .resuming => overagePaused p.row = true
  | _ => True

@[grind] def FrameOk (s : Scheduler) (task : TaskId) (now : Int) : Frame → Prop
  | .prime batch p stage => StageOk p stage ∧ selected now p.row = true ∧
    (p.reason = .fiveHour → BatchOk s task now batch ∧ p.id ∉ batch.rest.map Prod.fst)
  | _ => ∀ reason id at_ its, .primed task reason id at_ its ∉ s.trace

structure Current (s : Scheduler) (task : TaskId) : Prop where
  base : Base s
  running : s.refreshMutex = true
  only : ∃ cycle, s.cycles = [(task,cycle)]
  known : task < s.nextTask

def Idle (s : Scheduler) : Prop := Base s ∧ s.refreshMutex = false ∧ s.cycles = []

inductive Inv (s : Scheduler) : Prop where
  | idle (idle : Idle s)
  | running (task : TaskId) (cycle : Cycle) (current : Current s task) (here : get s.cycles task = some cycle)
    (frame : FrameOk s task cycle.now cycle.frame)

section Cycle
variable {s after : Scheduler} {task : TaskId} {now dateNow : Int} {batch : Batch} {p : Prime} {dormant : String → Bool}

theorem BatchOk.keep (ok : BatchOk s task now batch) (kept : Kept s after) : BatchOk after task now batch :=
  ⟨ok.unique,ok.owned,fun reason id at_ its inside => ok.past reason id at_ its (kept.primed.mp inside),by rw [kept.last]; exact ok.cool,
    ok.chosen,ok.among⟩

theorem Current.keep (current : Current s task) (kept : Kept s after) : Current after task := by
  obtain ⟨cycle,only⟩ := current.only
  exact ⟨current.base.keep kept,kept.refreshMutex.trans current.running,⟨cycle,kept.cycles.trans only⟩,kept.nextTask.symm ▸ current.known⟩

theorem Current.suspend (current : Current s task) {frame} (ok : FrameOk s task now frame) : Inv (s.suspend task now frame) := by
  obtain ⟨cycle,only⟩ := current.only
  have its : (s.suspend task now frame).cycles = [(task,⟨now,frame⟩)] := by simp [Scheduler.suspend,only,InsertionMap.set]
  refine .running task ⟨now,frame⟩ ⟨⟨current.base.rows,current.base.numbered,current.base.cooling,current.base.once,current.base.cooled,
    current.base.sound⟩,current.running,⟨_,its⟩,current.known⟩ (by simp [its,InsertionMap.get]) ?_
  cases frame with
  | prime batch p stage =>
    refine ⟨ok.1,ok.2.1,fun five => ?_⟩
    obtain ⟨batchOk,gone⟩ := ok.2.2 five
    exact ⟨{ batchOk with },gone⟩
  | _ => exact ok

theorem Current.finished (current : Current s task) : Inv (s.finished task) := by
  obtain ⟨cycle,only⟩ := current.only
  refine .idle ⟨⟨current.base.rows,current.base.numbered,current.base.cooling,current.base.once,current.base.cooled,current.base.sound⟩,
    rfl,?_⟩
  simp [Scheduler.finished,only,delete]

theorem lastAttemptRecord {trace h id at_}
    (other : ∀ id at_, h ≠ .attempted id at_) (last : LastAttempt (h::trace) id at_) : LastAttempt trace id at_ := by
  obtain ⟨newer,since,none_,kept⟩ := last
  rcases sinceCons.mp since with ⟨-,same⟩ | ⟨rest,rfl,later⟩
  · exact absurd same (other id at_)
  · exact ⟨rest,later,fun at_ inside => none_ at_ (.tail _ inside),fun inside => kept (.tail _ inside)⟩

theorem Base.primed (base : Base s) {reason id owned} (known : task < s.nextTask)
    (fresh : ∀ other at_ its, .primed task other id at_ its ∉ s.trace)
    (weekly : reason = .weekly → owned = false ∧ ∀ other at_ its, .primed task .weekly other at_ its ∉ s.trace)
    (cool : owned = true → ∀ at_, get s.lastFiveHourPrimeTime id = some at_ → now - at_ ≥ FIVE_HOUR_PRIME_COOLDOWN_MS) :
    Base (s.record (.primed task reason id now owned)) := by
  refine ⟨base.rows,?_,fun id at_ last => base.cooling id at_ (lastAttemptRecord (by simp) last),?_,?_,?_⟩
  · intro cycle other its at_ owned inside
    rcases List.mem_cons.mp inside with same | old
    · cases same
      exact known
    · exact base.numbered cycle other its at_ owned old
  · intro newer older cycle other its at_ owned split
    rcases splitCons.mp split with ⟨-,same,rfl⟩ | ⟨rest,-,split⟩
    · cases same
      exact ⟨fresh,weekly⟩
    · exact base.once rest older cycle other its at_ owned split
  · intro newer older cycle other its at_ split booked last
    rcases splitCons.mp split with ⟨-,same,rfl⟩ | ⟨rest,-,split⟩
    · cases same
      exact cool rfl booked (base.cooling _ _ last)
    · exact base.cooled rest older cycle other its at_ split booked last
  · exact List.forall_mem_cons.mpr ⟨trivial,base.sound⟩

theorem Current.startPrime (current : Current s task) (fresh : ∀ other at_ its, .primed task other p.id at_ its ∉ s.trace)
    (weekly : p.reason = .weekly →
      batch.owned.contains p.id = false ∧ ∀ other at_ its, .primed task .weekly other at_ its ∉ s.trace)
    (cool : batch.owned.contains p.id = true → ∀ at_, get s.lastFiveHourPrimeTime p.id = some at_ →
      now - at_ ≥ FIVE_HOUR_PRIME_COOLDOWN_MS)
    (chosen : selected now p.row = true)
    (ok : p.reason = .fiveHour → BatchOk (s.record (.primed task p.reason p.id now (batch.owned.contains p.id))) task now batch ∧
      p.id ∉ batch.rest.map Prod.fst) : Inv (AutoRefreshScheduler.startPrime s task now batch p) := by
  have started : Current (s.record (.primed task p.reason p.id now (batch.owned.contains p.id))) task :=
    ⟨current.base.primed current.known fresh weekly cool,current.running,current.only,current.known⟩
  refine started.suspend ⟨?_,chosen,ok⟩
  split <;> trivial

theorem Current.primeWeekly (current : Current s task)
    (past : ∀ reason id at_ its, .primed task reason id at_ its ∈ s.trace → reason = .fiveHour ∧ id ∈ batch.owned)
    (chosen : ∀ account ∈ batch.accounts, selected now account.2 = true) :
    Inv (AutoRefreshScheduler.primeWeekly s dormant task now batch) := by
  unfold AutoRefreshScheduler.primeWeekly
  split
  · rename_i account found
    have inside : account ∈ batch.accounts.filter (weeklyEligible s dormant batch.owned now) :=
      List.mem_mergeSort.mp (List.mem_of_head? found)
    have free : batch.owned.contains account.1 = false := by
      have eligible := (List.mem_filter.mp inside).2
      simp only [weeklyEligible,Bool.and_eq_true,Bool.not_eq_true'] at eligible
      exact eligible.1.1.1.1
    have notOwned : account.1 ∉ batch.owned := by simpa using free
    refine current.startPrime (fun other at_ its old => notOwned (past other account.1 at_ its old).2) (fun _ => ⟨free,?_⟩) ?_
      (chosen account (List.mem_filter.mp inside).1) ?_
    · intro other at_ its old
      cases (past .weekly other at_ its old).1
    · intro owned
      cases free.symm.trans owned
    · intro five
      cases five
  · exact current.finished

theorem Current.primeNext (current : Current s task) (ok : BatchOk s task now batch) :
    Inv (AutoRefreshScheduler.primeNext s dormant task now batch) := by
  unfold AutoRefreshScheduler.primeNext
  split
  · rename_i account rest whole
    have here : account.1 ∈ batch.rest.map Prod.fst := by simp [whole]
    have unique := ok.unique
    rw [whole,List.map_cons,List.nodup_cons] at unique
    refine current.startPrime (fun other at_ its old => (ok.past other account.1 at_ its old).2.2 here) (fun weekly => nomatch weekly)
      (fun _ => ok.cool account (by simp [whole])) (ok.chosen account (ok.among (by simp [whole])))
      (fun _ => ⟨⟨unique.2,?_,?_,?_,ok.chosen,?_⟩,unique.1⟩)
    · exact fun its inside => ok.owned its (by simp [whole,inside])
    · intro reason id at_ its inside
      rcases List.mem_cons.mp inside with same | old
      · cases same
        exact ⟨rfl,ok.owned account (by simp [whole]),unique.1⟩
      · obtain ⟨five,owned,gone⟩ := ok.past reason id at_ its old
        exact ⟨five,owned,fun later => gone (by simpa [whole] using .inr (by simpa using later))⟩
    · exact fun its inside => ok.cool its (by simp [whole,inside])
    · exact fun its inside => ok.among (by simp [whole,inside])
  · exact current.primeWeekly (fun reason id at_ its old => ⟨(ok.past reason id at_ its old).1,(ok.past reason id at_ its old).2.1⟩)
      ok.chosen

structure InPrime (s : Scheduler) (task : TaskId) (now : Int) (batch : Batch) (p : Prime) : Prop where
  current : Current s task
  chosen : selected now p.row = true
  five : p.reason = .fiveHour → BatchOk s task now batch ∧ p.id ∉ batch.rest.map Prod.fst

theorem InPrime.keep (prime : InPrime s task now batch p) (kept : Kept s after) : InPrime after task now batch p :=
  ⟨prime.current.keep kept,prime.chosen,fun five => ⟨(prime.five five).1.keep kept,(prime.five five).2⟩⟩

theorem InPrime.suspend (prime : InPrime s task now batch p) {stage} (ok : StageOk p stage) :
    Inv (s.suspend task now (.prime batch p stage)) := prime.current.suspend ⟨ok,prime.chosen,prime.five⟩

theorem Base.book (base : Base s) (id : String) (at_ : Int) :
    Base ({ s with lastFiveHourPrimeTime := set s.lastFiveHourPrimeTime id at_ }.record (.attempted id at_)) := by
  have none_ : ∀ cycle reason other now owned, .primed cycle reason other now owned ∉ [Happened.attempted id at_] := by simp
  refine ⟨base.rows,?_,?_,base.once.grow none_,base.cooled.grow none_,List.forall_mem_cons.mpr ⟨trivial,base.sound⟩⟩
  · intro cycle reason other now owned inside
    exact base.numbered cycle reason other now owned (List.mem_of_ne_of_mem (by simp) inside)
  · rintro other then_ ⟨newer,since,latest,kept⟩
    rcases sinceCons.mp since with ⟨-,same⟩ | ⟨rest,rfl,later⟩
    · cases same
      exact getSetSelf
    · have apart : other ≠ id := fun same => latest at_ (same ▸ (.head _))
      exact (getSetOther apart).trans (base.cooling other then_
        ⟨rest,later,fun at_ inside => latest at_ (.tail _ inside),fun inside => kept (.tail _ inside)⟩)

section
variable (prime : InPrime s task now batch p)
include prime

theorem InPrime.book (attempted : Bool) : InPrime (bookPrime s dateNow p attempted) task now batch p := by
  obtain ⟨current,chosen,five⟩ := prime
  unfold bookPrime
  cases reason : p.reason with
  | weekly =>
    exact ⟨⟨current.base.keep ⟨fun unique => unique,rfl,rfl,rfl,rfl,[],rfl,by simp⟩,current.running,current.only,current.known⟩,
      chosen,fun same => (nomatch reason.symm.trans same)⟩
  | fiveHour =>
    cases attempted with
    | false => exact ⟨current,chosen,five⟩
    | true =>
      obtain ⟨ok,gone⟩ := five reason
      refine ⟨⟨current.base.book p.id dateNow,current.running,current.only,current.known⟩,chosen,
        fun _ => ⟨⟨ok.unique,ok.owned,?_,?_,ok.chosen,ok.among⟩,gone⟩⟩
      · exact fun other id at_ its inside => ok.past other id at_ its (List.mem_of_ne_of_mem (by simp) inside)
      · intro account inside at_ found
        have apart : account.1 ≠ p.id := fun same => gone (same ▸ List.mem_map_of_mem inside)
        exact ok.cool account inside at_ ((getSetOther apart).symm.trans found)

theorem InPrime.finish {attempted} :
    Inv (finishPrime s dateNow dormant task now batch p attempted) := by
  have booked : InPrime (bookPrime s dateNow p attempted) task now batch p := prime.book attempted
  unfold finishPrime
  cases reason : p.reason with
  | fiveHour => exact booked.current.primeNext (booked.five reason).1
  | weekly => exact booked.current.finished

theorem InPrime.abandon : Inv (abandonPrime s dateNow task p) :=
  (prime.book true).current.finished

theorem InPrime.fail : Inv (recordRefreshFailure s dateNow dormant task now batch p) := by
  have counted : InPrime { s with consecutiveFailures := set s.consecutiveFailures p.id ((get s.consecutiveFailures p.id).getD 0 + 1) }
      task now batch p := prime.keep ⟨fun unique => unique,rfl,rfl,rfl,rfl,[],rfl,by simp⟩
  unfold recordRefreshFailure
  simp only
  split
  · exact counted.suspend trivial
  · exact counted.finish

end

theorem pauseKept (id : String) : Kept s (pauseAtThreshold s id) := by
  unfold pauseAtThreshold
  split
  · rename_i open_
    have updated : Kept s (s.update id (fun row => { row with paused := true,pauseReason := some "failure_threshold" })
        (.thresholdPaused id)) := by
      refine updateKept fun row found => ⟨rfl,?_⟩
      simpa [found,Sound] using open_
    exact updated.trans ⟨fun unique => unique,rfl,rfl,rfl,rfl,[],rfl,by simp⟩
  · exact ⟨fun unique => unique,rfl,rfl,rfl,rfl,[],rfl,by simp⟩

theorem resumeKept (guard : overagePaused p.row = true) (chosen : selected now p.row = true) : Kept s (resumeRow s p) := by
  refine updateKept fun _ _ => ⟨rfl,?_⟩
  simp only [overagePaused,Bool.and_eq_true] at guard
  obtain ⟨⟨enabled,paused⟩,-⟩ := guard
  simp only [selected,enabled,paused,Bool.and_eq_true] at chosen
  exact ⟨enabled,paused,by simpa using chosen.2⟩

section
variable (prime : InPrime s task now batch p)
include prime

theorem InPrime.succeed :
    Inv (AutoRefreshScheduler.succeed s dateNow dormant task now batch p) := by
  have kept : Kept s { s with consecutiveFailures := delete s.consecutiveFailures p.id } :=
    ⟨fun unique => unique,rfl,rfl,rfl,rfl,[],rfl,by simp⟩
  exact (prime.keep kept).finish

theorem InPrime.codex (result : SpendResult) :
    Inv (handleCodexPrimeOutcome s dateNow dormant task now batch p result) := by
  unfold handleCodexPrimeOutcome
  split
  · exact prime.finish
  · exact prime.fail
  · rename_i responseOk responseStatus earliestResetMs onCredits
    have known : ∀ known failures, InPrime { s with lastRefreshResetTime := known,consecutiveFailures := failures } task now batch p :=
      fun known failures => prime.keep ⟨fun unique => unique,rfl,rfl,rfl,rfl,[],rfl,by simp⟩
    split_ifs with refused neutral guard
    · exact prime.finish
    · exact prime.fail
    · have ok := (Bool.and_eq_true_iff.mp guard).1
      cases earliestResetMs <;> exact (known _ _).suspend ok
    · cases earliestResetMs <;> exact (known _ _).finish

theorem InPrime.conclude {started} (response : Option Response) :
    Inv (concludeDispatch s dateNow dormant task now batch p started response) := by
  unfold concludeDispatch
  split
  · exact prime.fail
  · split_ifs
    · exact prime.suspend trivial
    · exact prime.finish
    · exact prime.fail

theorem InPrime.tryNext {attempt started} (response : Option Response) :
    Inv (tryNextModel s dateNow dormant task now batch p attempt started response) := by
  unfold tryNextModel
  split
  · exact prime.suspend trivial
  · exact prime.conclude response

theorem InPrime.afterResume :
    Inv (AutoRefreshScheduler.afterResume s dateNow dormant task now batch p) := by
  unfold AutoRefreshScheduler.afterResume
  split
  · exact prime.suspend trivial
  · exact prime.succeed

theorem InPrime.afterRemaining :
    Inv (AutoRefreshScheduler.afterRemaining s dateNow dormant task now batch p) := by
  unfold AutoRefreshScheduler.afterRemaining
  split
  · rename_i guard
    exact prime.suspend guard
  · exact prime.afterResume

theorem InPrime.afterStatus (response : Response) :
    Inv (AutoRefreshScheduler.afterStatus s dateNow dormant task now batch p response) := by
  unfold AutoRefreshScheduler.afterStatus
  split
  · exact prime.suspend trivial
  · exact prime.afterRemaining

theorem InPrime.afterClear (response : Response) :
    Inv (AutoRefreshScheduler.afterClear s dateNow dormant task now batch p response) := by
  unfold AutoRefreshScheduler.afterClear
  split
  · exact prime.suspend trivial
  · exact prime.afterStatus response

end

theorem clearKept {started response} : Kept s (clearLock s dateNow p started response) := by
  have updated : Kept s (s.update p.id
      (fun row => { row with rateLimitReset := (truthy response.resetTime).or row.rateLimitReset,rateLimitedUntil := none })
      (fun _ => .unlocked p.id started (get s.locks p.id))) := updateKept fun _ _ => ⟨rfl,trivial⟩
  exact updated.trans ⟨fun unique => unique,rfl,rfl,rfl,rfl,[],rfl,by simp⟩

theorem InPrime.advance (prime : InPrime s task now batch p) {stage answer} (ok : StageOk p stage)
    (done : advancePrime s dateNow dormant task now batch p stage answer = some after) : Inv after := by
  unfold advancePrime at done
  split at done
  all_goals first
    | cases done
    | skip
  · exact prime.codex _
  · exact prime.abandon
  · exact (prime.keep (resumeKept ok prime.chosen)).finish
  · exact prime.abandon
  · exact prime.suspend trivial
  · split at done
    · cases done
      exact prime.finish
    · rename_i flag
      split at done
      · cases done
        exact prime.finish
      · cases done
        have dispatched : Kept s (s.record (.dispatched p.id _)) :=
          ⟨fun unique => unique,rfl,rfl,rfl,rfl,[_],rfl,by simpa [Happened.aside,Sound] using Decidable.not_not.mp flag⟩
        have ok : StageOk p (.dispatching 0 s.steps none) := trivial
        exact (prime.keep dispatched).suspend ok
  · split at done
    · cases done
      exact prime.conclude _
    · cases done
      exact prime.tryNext _
  · exact prime.tryNext _
  · exact (prime.keep clearKept).afterClear _
  · exact (prime.keep rewriteKept).afterStatus _
  · exact (prime.keep rewriteKept).afterRemaining
  · exact (prime.keep (resumeKept ok prime.chosen)).afterResume
  · exact prime.succeed
  · exact (prime.keep (pauseKept _)).finish
  · exact prime.finish
  all_goals exact prime.fail

theorem memForgotten {h} :
    h ∈ (((keys s.lastFiveHourPrimeTime).filter (!tracked s ·)).map Happened.forgotten).reverse ↔
      ∃ id, id ∈ keys s.lastFiveHourPrimeTime ∧ tracked s id = false ∧ h = .forgotten id := by
  simp only [List.mem_reverse,List.mem_map,List.mem_filter,Bool.not_eq_true']
  constructor
  · rintro ⟨id,⟨inside,gone⟩,rfl⟩
    exact ⟨id,inside,gone,rfl⟩
  · rintro ⟨id,inside,gone,rfl⟩
    exact ⟨id,⟨inside,gone⟩,rfl⟩

theorem cleanupPrimed {reason id at_ its} :
    .primed task reason id at_ its ∈ (cleanupTracking s).trace ↔ .primed task reason id at_ its ∈ s.trace := by
  rw [cleanupTracking,List.mem_append,memForgotten,or_iff_right_iff_imp]
  rintro ⟨_,-,-,impossible⟩
  cases impossible

theorem Base.cleanup (base : Base s) : Base (cleanupTracking s) := by
  have none_ : ∀ cycle reason id now owned, .primed cycle reason id now owned ∉
      (((keys s.lastFiveHourPrimeTime).filter (!tracked s ·)).map Happened.forgotten).reverse := by
    intro cycle reason id now owned inside
    obtain ⟨_,-,-,impossible⟩ := memForgotten.mp inside
    cases impossible
  refine ⟨base.rows,fun cycle reason id now owned inside => base.numbered cycle reason id now owned (cleanupPrimed.mp inside),?_,
    base.once.grow none_,base.cooled.grow none_,?_⟩
  · rintro id at_ ⟨newer,since,latest,kept⟩
    have absent : Happened.attempted id at_ ∉
        (((keys s.lastFiveHourPrimeTime).filter (!tracked s ·)).map Happened.forgotten).reverse := by
      intro inside
      obtain ⟨_,-,-,impossible⟩ := memForgotten.mp inside
      cases impossible
    obtain ⟨rest,rfl,later⟩ := sinceAdded absent since
    have booked := base.cooling id at_ ⟨rest,later,fun other inside => latest other (List.mem_append_right _ inside),
      fun inside => kept (List.mem_append_right _ inside)⟩
    have still : tracked s id = true := by
      by_contra gone
      exact kept (List.mem_append_left _ (memForgotten.mpr ⟨id,memKeysOfGet booked,by simpa using gone,rfl⟩))
    exact getFilterKeys.trans ((if_pos still).trans booked)
  · intro h inside
    rcases List.mem_append.mp inside with new | old
    · obtain ⟨_,-,-,rfl⟩ := memForgotten.mp new
      trivial
    · exact base.sound h old

theorem peakKept {inPeak id} : Kept s (peakUpdate s inPeak id) := by
  unfold peakUpdate
  split_ifs with peak free resume
  · refine updateKept fun row found => ⟨rfl,?_⟩
    simpa [found,Sound] using free
  · exact .refl
  · refine updateKept fun row found => ⟨rfl,?_⟩
    simpa [found,Sound] using resume
  · exact .refl

structure Before (s : Scheduler) (task : TaskId) : Prop where
  current : Current s task
  fresh : ∀ reason id at_ its, .primed task reason id at_ its ∉ s.trace

section
variable (before : Before s task)
include before

theorem Before.keep (kept : Kept s after) : Before after task :=
  ⟨before.current.keep kept,fun reason id at_ its inside => before.fresh reason id at_ its (kept.primed.mp inside)⟩

theorem Before.cleanup : Before (cleanupTracking s) task :=
  ⟨⟨before.current.base.cleanup,before.current.running,before.current.only,before.current.known⟩,
    fun reason id at_ its inside => before.fresh reason id at_ its (cleanupPrimed.mp inside)⟩

theorem Before.peakNext {inPeak} (ids : List String) :
    Inv (AutoRefreshScheduler.peakNext s task now inPeak ids) := by
  cases ids with
  | nil => exact before.current.suspend before.fresh
  | cons id rest => exact before.current.suspend before.fresh

theorem Before.batchOk : BatchOk s task now (selectBatch s dateNow now) := by
  have owned : (selectBatch s dateNow now).rest.Sublist
      ((s.rows.filter fun entry => selected now entry.2).filter fun entry => fiveHourDue s dateNow entry.1 entry.2 now) :=
    List.filter_sublist
  have accounts : (selectBatch s dateNow now).rest.Sublist (selectBatch s dateNow now).accounts := owned.trans List.filter_sublist
  refine ⟨?_,fun account inside => List.mem_map_of_mem (owned.subset inside),
    fun reason id at_ its inside => absurd inside (before.fresh reason id at_ its),?_,
    fun account inside => (List.mem_filter.mp inside).2,accounts.subset⟩
  · have rows : (selectBatch s dateNow now).rest.Sublist s.rows := accounts.trans List.filter_sublist
    exact nodupSublist before.current.base.rows rows
  · intro account inside at_ found
    have due := (List.mem_filter.mp inside).2
    simpa [isFiveHourPrimeCoolingDown,found] using due

theorem Before.select :
    Inv (if (selectBatch s dateNow now).accounts = [] then s.finished task
      else AutoRefreshScheduler.primeNext s dormant task now (selectBatch s dateNow now)) := by
  split_ifs
  · exact before.current.finished
  · exact before.current.primeNext before.batchOk

end

theorem Current.advance (current : Current s task) {frame answer} (ok : FrameOk s task now frame)
    (done : AutoRefreshScheduler.advance s dateNow dormant task now frame answer = some after) : Inv after := by
  unfold AutoRefreshScheduler.advance at done
  split at done
  case h_7 batch p stage answer => exact InPrime.advance ⟨current,ok.2.1,ok.2.2⟩ ok.1 done
  all_goals cases done
  · exact (Before.cleanup ⟨current,ok⟩).current.suspend (Before.cleanup ⟨current,ok⟩).fresh
  · exact current.suspend ok
  · exact Before.peakNext ⟨current,ok⟩ _
  · exact (Before.keep ⟨current,ok⟩ peakKept).peakNext _
  · exact current.suspend ok
  · exact Before.select ⟨current,ok⟩
  all_goals exact current.finished

end Cycle

section Runs
variable {s after : Scheduler} {e : Event}

theorem FrameOk.keep {task now frame} (ok : FrameOk s task now frame) (kept : Kept s after) :
    FrameOk after task now frame := by
  cases frame with
  | prime batch p stage => exact ⟨ok.1,ok.2.1,fun five => ⟨(ok.2.2 five).1.keep kept,(ok.2.2 five).2⟩⟩
  | _ => exact fun reason id at_ its inside => ok reason id at_ its (kept.primed.mp inside)

theorem Inv.keep (inv : Inv s) (kept : Kept s after) : Inv after := by
  cases inv with
  | idle idle =>
    obtain ⟨base,free,none_⟩ := idle
    exact .idle ⟨base.keep kept,kept.refreshMutex.trans free,kept.cycles.trans none_⟩
  | running task cycle current here frame => exact .running task cycle (current.keep kept) (kept.cycles.symm ▸ here) (frame.keep kept)

theorem Inv.checkAndRefresh (inv : Inv s) {now} : Inv (AutoRefreshScheduler.checkAndRefresh s now) := by
  unfold AutoRefreshScheduler.checkAndRefresh
  split
  · exact inv
  · rename_i free
    cases inv with
    | running task cycle current here frame => exact absurd current.running free
    | idle idle =>
      obtain ⟨base,-,none_⟩ := idle
      have its : set s.cycles s.nextTask ⟨now,.cleanup⟩ = [(s.nextTask,⟨now,.cleanup⟩)] := by rw [none_,InsertionMap.set]
      have older : ∀ reason id at_ owned, .primed s.nextTask reason id at_ owned ∉ s.trace :=
        fun reason id at_ owned inside => Nat.lt_irrefl _ (base.numbered _ reason id at_ owned inside)
      refine .running s.nextTask ⟨now,.cleanup⟩ ⟨{ base with numbered := ?_ },rfl,⟨_,its⟩,Nat.lt_succ_self _⟩
        getSetSelf older
      exact fun cycle reason id at_ owned inside => Nat.lt_succ_of_lt (base.numbered cycle reason id at_ owned inside)

theorem writeKept {id row} : Kept s (writeRow s id row) := by
  cases row with
  | none =>
    exact ⟨fun unique => nodupSublist unique deleteSublist,rfl,rfl,rfl,rfl,[],rfl,by simp⟩
  | some row => exact ⟨nodupSet,rfl,rfl,rfl,rfl,[],rfl,by simp⟩

theorem lockKept {id rateLimitedUntil} : Kept s (lockRow s id rateLimitedUntil) :=
  rewriteKept.trans ⟨fun unique => unique,rfl,rfl,rfl,rfl,[],rfl,by simp⟩

theorem Inv.act (inv : Inv s) (done : AutoRefreshScheduler.act s e = some after) : Inv after := by
  unfold AutoRefreshScheduler.act at done
  split at done
  · cases done
    exact inv.checkAndRefresh
  · rename_i task answer acts
    obtain ⟨cycle,found,done⟩ := Option.bind_eq_some_iff.mp done
    cases inv with
    | idle idle => simp [idle.2.2] at found
    | running its own current here frame =>
      obtain ⟨only,single⟩ := current.only
      have same : its = task := by
        by_contra other
        simp [single,InsertionMap.get,other] at found
      subst same
      cases here.symm.trans found
      exact current.advance frame done
  · cases done
    exact inv.keep writeKept
  · cases done
    exact inv.keep lockKept

theorem stepInv (inv : Inv s) (stepped : step s e = some after) : Inv after := by
  obtain ⟨acted,done,rfl⟩ := Option.map_eq_some_iff.mp stepped
  exact (inv.act done).keep ⟨fun unique => unique,rfl,rfl,rfl,rfl,[],rfl,by simp⟩

theorem startInv (start : machine.init s) : Inv s := by
  obtain ⟨providers,rfl⟩ := start
  refine .idle ⟨⟨List.nodup_nil,by simp [Scheduler.start],?_,?_,?_,by simp [Scheduler.start]⟩,rfl,rfl⟩
  · rintro id at_ ⟨newer,since,-⟩
    exact absurd since notSinceNil
  · intro newer older cycle reason id now owned split
    simp [Scheduler.start] at split
  · intro newer older cycle reason id now split
    simp [Scheduler.start] at split

theorem reachableInv (reach : machine.Reachable s) : Inv s :=
  reach.invariant (fun _ => startInv) (fun _ _ _ inv stepped => stepInv inv stepped)

theorem Inv.base (inv : Inv s) : Base s := by
  cases inv with
  | idle idle => exact idle.1
  | running task cycle current here frame => exact current.base

def overageRow : Row :=
  { provider := "anthropic",refreshToken := "r",disabled := false,autoRefreshEnabled := true,rateLimitReset := some 500
    rateLimitedUntil := none,rateLimitStatus := none,rateLimitRemaining := none,paused := true,pauseReason := some "overage"
    autoPauseOnOverageEnabled := true,peakHoursPauseEnabled := false }

def event (now : Int) (action : Action) : Event := ⟨now,fun _ => false,action⟩

def dispatching : List Event :=
  [event 900 (.write "a" (some overageRow)),event 1000 .checkAndRefresh,event 1000 (.proceed 0 (.cleaned false)),event 1000 (.proceed 0 .done),
    event 1000 (.proceed 0 .done),event 1000 (.proceed 0 .done),event 1000 (.proceed 0 .done),event 1000 (.proceed 0 .done)]

def answered : List Event :=
  [event 1300 (.proceed 0 (.responded ⟨true,200,some 9000,none,none⟩)),event 1300 (.proceed 0 .done),event 1300 (.proceed 0 .done),
    event 1400 (.proceed 0 .done)]

end Runs

end Clankermux.AutoRefreshScheduler
