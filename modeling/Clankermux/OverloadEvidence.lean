import Clankermux.OverloadProbe

/-! Stale evidence does nothing, and deadlines only move forward. What a step does to
one bucket is said once, in `BucketStep`; the run results follow from it. -/
namespace Clankermux.OverloadBreaker
open History

def Outlived (key : String) (since : List Happened) : Prop :=
  (∃ now resetTime reporter, .tripped key now resetTime reporter ∈ since) ∨ ClearedSince key since ∨
    ∃ token d, .admitted token d ∈ since ∧ LeasesOn token key
variable {token : OverloadProbeToken} {key : String} {cancelled : List Canceller} {w after : World} {d : Option Canceller}
  {outcome : Outcome} {b : Breaker} {e : Event}

theorem Outlived.split {added since} (h : Outlived key (added ++ since)) :
    Outlived key added ∨ Outlived key since := by
  rcases h with ⟨n,r,p,m⟩ | ⟨p,m,c⟩ | ⟨t,d,m,on⟩
  · exact (List.mem_append.mp m).imp (fun m => .inl ⟨n,r,p,m⟩) (fun m => .inl ⟨n,r,p,m⟩)
  · exact (List.mem_append.mp m).imp (fun m => .inr (.inl ⟨p,m,c⟩)) (fun m => .inr (.inl ⟨p,m,c⟩))
  · exact (List.mem_append.mp m).imp (fun m => .inr (.inr ⟨t,d,m,on⟩)) (fun m => .inr (.inr ⟨t,d,m,on⟩))

inductive BucketStep (w after : World) (added : List Happened) (key : String) : Prop where
  | kept (same : after.breaker.bucket key = w.breaker.bucket key) (quiet : ¬ Outlived key added)
  | tripped (resetTime : Option Int) (reporter : Option Nat) (generation : Nat) (untilMs : Int)
      (entry : ∃ cancelled : List Canceller, added = cancelled.map .cancelled ++ [.tripped key after.clock resetTime reporter])
      (deadline : untilMs = ((w.breaker.bucket key).map
        (fun old => max old.untilMs (normalizeUntil resetTime after.clock).1)).getD
          (normalizeUntil resetTime after.clock).1)
      (now : after.breaker.bucket key = some ⟨untilMs,generation,none⟩)
  | leased (bucket : OverloadBucket) (probe : Option Probe) (before : w.breaker.bucket key = some bucket)
      (now : after.breaker.bucket key = some { bucket with probe })
      (fresh : ∀ p, probe = some p → w.breaker.leaseIdCounter < p.leaseId)
      (unclear : ¬ ClearedSince key added)
  | gone (absent : after.breaker.bucket key = none)

theorem notOutlivedNil : ¬ Outlived key [] := by
  rintro (⟨_,_,_,m⟩ | ⟨_,m,_⟩ | ⟨_,_,m,_⟩) <;> cases m

theorem notOutlivedTrip {key struck now resetTime reporter} (ne : key ≠ struck) :
    ¬ Outlived key (cancelled.map .cancelled ++ [.tripped struck now resetTime reporter]) := by
  rintro (⟨_,_,_,m⟩ | ⟨_,m,_⟩ | ⟨_,_,m,_⟩)
  · simp [ne] at m
  · simp at m
  · simp at m

theorem notOutlivedAdmission (off : ¬ LeasesOn token key) :
    ¬ Outlived key (cancelled.map .cancelled ++ [.admitted token d]) := by
  rintro (⟨_,_,_,m⟩ | ⟨_,m,_⟩ | ⟨t,e,m,on⟩)
  · simp at m
  · simp at m
  · have same : t = token ∧ e = d := by simpa using m
    exact off (same.1 ▸ on)

theorem notClearedAdmission : ¬ ClearedSince key (cancelled.map .cancelled ++ [.admitted token d]) := by
  rintro ⟨_,m,_⟩
  simp at m

theorem tripBucketStep (w : World) (now : Int) (provider : String) (resetTime : Option Int)
    (model : Option String) (reporter : Option Nat) (key : String) (history : List Happened) :
    let t := applyProviderOverloadCooldown w.breaker now provider resetTime model reporter
    BucketStep w ⟨t.breaker,now,history⟩
      (t.cancelled.map .cancelled ++ [.tripped (bucketKey provider model) now resetTime reporter]) key := by
  intro t
  have there : t.breaker.bucket key = _ := tripBucket
  by_cases struck : key = bucketKey provider model
  · subst struck
    rw [if_pos rfl] at there
    exact .tripped resetTime reporter _ _ ⟨t.cancelled,rfl⟩ tripUntil there
  · rw [if_neg struck] at there
    exact .kept there (notOutlivedTrip struck)

theorem admitBucketStep {w now}
    (admits : Admits w.breaker now d token cancelled b) (key : String)
    (history : List Happened) :
    BucketStep w ⟨b,now,history⟩ (cancelled.map .cancelled ++ [.admitted token d]) key := by
  cases before : w.breaker.bucket key with
  | none => exact .gone (admits.absent key before)
  | some bucket =>
    rcases admits.present key bucket before with ⟨same,outside⟩ | ⟨leaseId,lower,_,now_,_⟩
    · exact .kept (same.trans before.symm) (notOutlivedAdmission fun ⟨lease,given,its⟩ => outside lease given its)
    · exact .leased bucket _ before now_ (fun p its => by cases its; exact lower) notClearedAdmission

theorem completeBucketStep (w : World) (now : Int) (token : OverloadProbeToken) (outcome : Outcome) (key : String)
    (history : List Happened) :
    BucketStep w ⟨completeProviderOverloadProbe w.breaker (some token) outcome,now,history⟩
      [.completed token.probeId] key := by
  rcases completeCases w.breaker (some token) outcome key with
    same | ⟨_,_,_,_,_,bucket,before,_,gone | freed⟩
  · refine .kept same ?_
    rintro (⟨_,_,_,m⟩ | ⟨_,m,_⟩ | ⟨_,_,m,_⟩) <;> simp at m
  · exact .gone gone
  · refine .leased bucket none before freed (by simp) ?_
    rintro ⟨_,m,_⟩
    simp at m

theorem clearBucketStep (w : World) (now : Int) (provider : Option String) (key : String) (history : List Happened) :
    BucketStep w ⟨clearProviderOverloadCooldown w.breaker provider,now,history⟩ [.cleared provider] key := by
  by_cases swept : cleared provider key = true
  · exact .gone (by simp [clearBucket,swept])
  · refine .kept (by simp [clearBucket,swept]) ?_
    rintro (⟨_,_,_,m⟩ | ⟨p,m,c⟩ | ⟨_,_,m,_⟩)
    · simp at m
    · have same : p = provider := by simpa using m
      exact swept (same ▸ c)
    · simp at m

theorem bucketStep (done : step w e = some after) :
    ∃ added, after.history = added ++ w.history ∧ ∀ key, BucketStep w after added key := by
  obtain ⟨elapsed,call⟩ := e
  cases call with
  | apply provider resetTime model reporter =>
    cases done
    exact ⟨_,by simp,fun key => tripBucketStep w _ provider resetTime model reporter key _⟩
  | acquire provider model d =>
    rcases acquireStep done with rfl | ⟨token,cancelled,breaker,admits,rfl⟩
    · exact ⟨[],rfl,fun key => .kept rfl notOutlivedNil⟩
    · exact ⟨_,by simp,fun key => admitBucketStep admits key _⟩
  | complete token outcome =>
    cases token with
    | none =>
      cases done
      exact ⟨[],rfl,fun key => .kept rfl notOutlivedNil⟩
    | some token =>
      simp only [step] at done
      split at done
      · cases done
        exact ⟨[.completed token.probeId],rfl,fun key => completeBucketStep w _ token outcome key _⟩
      · cases done
  | clear provider =>
    cases done
    exact ⟨[.cleared provider],rfl,fun key => clearBucketStep w _ provider key _⟩

theorem completionNeedsCurrentLease (changed : (completeProviderOverloadProbe b (some token) outcome).bucket key ≠ b.bucket key) :
    ∃ lease ∈ token.leases, lease.key = key ∧ ∃ bucket, b.bucket key = some bucket ∧ Current bucket lease := by
  rcases completeCases b (some token) outcome key with
    same | ⟨_,lease,its,given,at_key,bucket,found,current,_⟩
  · exact absurd same changed
  · cases its
    exact ⟨lease,given,at_key,bucket,found,current⟩

def NoneCurrent (b : Breaker) (leases : List ProbeLease) : Prop :=
  ∀ lease ∈ leases, ∀ bucket, b.bucket lease.key = some bucket → ¬ Current bucket lease

theorem settleNoneCurrent {leases} (h : NoneCurrent b leases) :
    leases.foldl (settleLease outcome) b = b := by
  induction leases with
  | nil => rfl
  | cons head rest ih =>
    have same : settleLease outcome b head = b := by
      unfold settleLease
      split
      · rfl
      · rename_i bucket found
        rw [if_neg (h head (.head _) bucket found)]
    rw [List.foldl_cons,same]
    exact ih (fun lease given => h lease (.tail _ given))

theorem notCurrentUnleased {bucket lease} (unleased : bucket.probe = none) :
    ¬ Current bucket lease := by
  simp [Current,unleased]

theorem settleLeavesNoneCurrent {leases} :
    NoneCurrent (leases.foldl (settleLease outcome) b) leases := by
  induction leases generalizing b with
  | nil => intro lease given; cases given
  | cons head rest ih =>
    intro lease given bucket found current
    rw [List.foldl_cons] at found
    rcases List.mem_cons.mp given with rfl | inside
    · rcases settleAllCases outcome (settleLease outcome b lease) lease.key rest
        with same | ⟨_,_,_,old,_,_,gone | freed⟩
      · rw [same] at found
        unfold settleLease at found
        split at found
        · rename_i absent; rw [absent] at found; cases found
        · rename_i old there
          split at found
          · cases outcome <;> simp [Breaker.bucket] at found
            · subst found; exact notCurrentUnleased rfl current
            · subst found; exact notCurrentUnleased rfl current
          · rename_i stale
            cases found.symm.trans there
            exact stale current
      · simp [gone] at found
      · rw [freed] at found
        cases found
        exact notCurrentUnleased rfl current
    · exact ih lease inside bucket found current

theorem completionIdempotent (b : Breaker) (token : Option OverloadProbeToken) (first second : Outcome) :
    completeProviderOverloadProbe (completeProviderOverloadProbe b token first) token second =
      completeProviderOverloadProbe b token first := by
  cases token with
  | none => rfl
  | some t => exact settleNoneCurrent settleLeavesNoneCurrent

def LeasesLive (w : World) : Prop :=
  ∀ token d lease newer, Since w.history (.admitted token d) newer → lease ∈ token.leases →
    ∀ bucket, w.breaker.bucket lease.key = some bucket → Current bucket lease → ¬ Outlived lease.key newer

theorem leasesLiveStep (r : Recorded w) (h : LeasesLive w)
    (done : step w e = some after) : LeasesLive after := by
  obtain ⟨added,advance,_⟩ := (stepSpec r done).advance
  obtain ⟨entries,history,buckets⟩ := bucketStep done
  have same : entries = added := by
    have : after.history = added ++ w.history := by cases advance <;> assumption
    exact List.append_cancel_right (history.symm.trans this)
  subst same
  intro token d lease newer here given bucket found current outlived
  rcases advance.since here with ⟨rest,rfl,before⟩ | ⟨cancelled,rfl,_⟩
  · cases buckets lease.key with
    | kept same quiet =>
      exact h token d lease rest before given bucket (same ▸ found) current (outlived.split.resolve_left quiet)
    | tripped _ _ _ _ _ _ now =>
      rw [now] at found
      cases found
      exact notCurrentUnleased rfl current
    | leased old probe _ now fresh =>
      rw [now] at found
      cases found
      -- A lease taken now has an identity no earlier token carries.
      obtain ⟨p,its,id⟩ : ∃ p, probe = some p ∧ p.leaseId = lease.leaseId := by
        simpa [Option.map_eq_some_iff] using current.2
      have := fresh p its
      have := r.leaseIds token d before.mem lease given
      omega
    | gone absent => simp [absent] at found
  · rcases outlived with ⟨_,_,_,m⟩ | ⟨_,m,_⟩ | ⟨_,_,m,_⟩ <;> simp at m

theorem evidenceReachable {w} (reach : machine.Reachable w) : Recorded w ∧ LeasesLive w := by
  refine reach.invariant (P := fun w => Recorded w ∧ LeasesLive w) ?_ ?_
  · rintro s ⟨empty,fresh⟩
    exact ⟨recordedStart empty fresh,fun token d lease newer here => absurd (fresh ▸ here) notSinceNil⟩
  · rintro s e t ⟨recorded,live⟩ done
    exact ⟨(stepSpec recorded done).recorded,leasesLiveStep recorded live done⟩

theorem outlivedTokenChangesNothing {w} (reach : machine.Reachable w)
    {newer} (outcome : Outcome)
    (here : Since w.history (.admitted token d) newer) (outlived : Outlived key newer) :
    (completeProviderOverloadProbe w.breaker (some token) outcome).bucket key = w.breaker.bucket key := by
  by_contra changed
  obtain ⟨lease,given,rfl,bucket,found,current⟩ := completionNeedsCurrentLease changed
  exact (evidenceReachable reach).2 token d lease newer here given bucket found current outlived

theorem deadlineStep {old new}
    (done : step w e = some after) (before : w.breaker.bucket key = some old)
    (found : after.breaker.bucket key = some new) : old.untilMs ≤ new.untilMs := by
  obtain ⟨added,_,buckets⟩ := bucketStep done
  cases buckets key with
  | kept same _ => rw [same,before] at found; cases found; exact le_rfl
  | tripped _ _ _ untilMs _ deadline now =>
    rw [now] at found
    cases found
    rw [before] at deadline
    exact deadline ▸ Int.le_max_left _ _
  | leased bucket probe there now =>
    rw [now] at found
    cases found
    cases before.symm.trans there
    exact le_rfl
  | gone absent => simp [absent] at found

theorem deadlineMonotone {old new}
    (run : machine.Steps (fun w _ => (w.breaker.bucket key).isSome) w after)
    (before : w.breaker.bucket key = some old) (found : after.breaker.bucket key = some new) :
    old.untilMs ≤ new.untilMs := by
  induction run generalizing new with
  | refl => rw [before] at found; cases found; exact le_rfl
  | next _ present done ih =>
    obtain ⟨between,there⟩ := Option.isSome_iff_exists.mp present
    exact Int.le_trans (ih there) (deadlineStep done there found)

theorem normalizeUntilBound (candidate : Option Int) (now : Int) :
    (normalizeUntil candidate now).1 ≤ now + MAX_PROVIDER_OVERLOAD_COOLDOWN_MS := by
  have short : DEFAULT_PROVIDER_OVERLOAD_COOLDOWN_MS ≤ MAX_PROVIDER_OVERLOAD_COOLDOWN_MS := by decide
  unfold normalizeUntil
  split
  · split
    · simp only
      split
      · exact le_rfl
      · simp only; omega
    · simp only; omega
  · simp only; omega

def SetByTrip (w : World) (key : String) (deadline : Int) : Prop :=
  ∃ now resetTime reporter newer, Since w.history (.tripped key now resetTime reporter) newer ∧
    ¬ ClearedSince key newer ∧ deadline = (normalizeUntil resetTime now).1

theorem SetByTrip.carry {added deadline}
    (h : SetByTrip w key deadline) (history : after.history = added ++ w.history)
    (unclear : ¬ ClearedSince key added) : SetByTrip after key deadline := by
  obtain ⟨now,resetTime,reporter,newer,⟨older,split⟩,clear,its⟩ := h
  refine ⟨now,resetTime,reporter,added ++ newer,⟨older,?_⟩,?_,its⟩
  · rw [history,split,List.append_assoc]
  · rintro ⟨provider,member,swept⟩
    rcases List.mem_append.mp member with recent | past
    · exact unclear ⟨provider,recent,swept⟩
    · exact clear ⟨provider,past,swept⟩

def DeadlinesSet (w : World) : Prop :=
  ∀ key bucket, w.breaker.bucket key = some bucket → SetByTrip w key bucket.untilMs

theorem deadlinesSetStep (h : DeadlinesSet w) (done : step w e = some after) :
    DeadlinesSet after := by
  obtain ⟨added,history,buckets⟩ := bucketStep done
  intro key bucket found
  cases buckets key with
  | kept same quiet =>
    exact (h key bucket (same ▸ found)).carry history (fun swept => quiet (.inr (.inl swept)))
  | tripped resetTime reporter generation untilMs entry deadline now =>
    rw [now] at found
    cases found
    obtain ⟨cancelled,entries⟩ := entry
    have unclear : ¬ ClearedSince key added := by
      rintro ⟨_,member,_⟩
      simp [entries] at member
    have recent : SetByTrip after key (normalizeUntil resetTime after.clock).1 := by
      refine ⟨after.clock,resetTime,reporter,cancelled.map .cancelled,⟨w.history,by rw [history,entries]; simp⟩,?_,rfl⟩
      rintro ⟨_,member,_⟩
      simp at member
    cases before : w.breaker.bucket key with
    | none => rw [deadline,before]; exact recent
    | some old =>
      rw [deadline,before,Option.map_some,Option.getD_some]
      rcases Int.le_total old.untilMs (normalizeUntil resetTime after.clock).1 with later | earlier
      · rw [Int.max_eq_right later]; exact recent
      · rw [Int.max_eq_left earlier]; exact (h key old before).carry history unclear
  | leased old probe before now _ unclear =>
    rw [now] at found
    cases found
    exact (h key old before).carry history unclear
  | gone absent => simp [absent] at found

theorem deadlinesSet {w} (reach : machine.Reachable w) : DeadlinesSet w := by
  refine reach.invariant ?_ (fun _ _ _ => deadlinesSetStep)
  rintro s ⟨empty,_⟩ key bucket found
  simp [empty,Breaker.empty,Breaker.bucket] at found

end Clankermux.OverloadBreaker
