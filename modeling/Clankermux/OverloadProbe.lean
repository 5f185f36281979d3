import Clankermux.History
import Clankermux.OverloadSteps

/-! Single flight of the half-open probe. A bucket has one holder at a time, and a
holder that gives way without having settled is cancelled on the way out. An
operator clear is the exception the code makes on purpose: it stops gating and
leaves the probe running. -/
namespace Clankermux.OverloadBreaker
open History

def LeasesOn (token : OverloadProbeToken) (key : String) : Prop := ∃ lease ∈ token.leases, lease.key = key

def Holds (b : Breaker) (token : OverloadProbeToken) (key : String) : Prop :=
  ∃ bucket probe, b.bucket key = some bucket ∧ bucket.probe = some probe ∧ probe.probeId = token.probeId

def Resolved (key : String) (probeId : Nat) (since : List Happened) : Prop :=
  (∃ now resetTime reporter, .tripped key now resetTime reporter ∈ since) ∨
  (∃ provider, .cleared provider ∈ since ∧ cleared provider key = true) ∨ .completed probeId ∈ since

structure Outstanding (token : OverloadProbeToken) (canceller : Canceller) (since : List Happened) : Prop where
  uncompleted : .completed token.probeId ∉ since
  uncancelled : .cancelled canceller ∉ since
  notReporting : ∀ key now resetTime, .tripped key now resetTime (some token.probeId) ∉ since

def ClearedSince (key : String) (since : List Happened) : Prop :=
  ∃ provider, .cleared provider ∈ since ∧ cleared provider key = true

theorem Resolved.grow {key probeId since} (added : List Happened)
    (h : Resolved key probeId since) : Resolved key probeId (added ++ since) := by
  rcases h with ⟨n,r,p,m⟩ | ⟨p,m,c⟩ | m
  · exact .inl ⟨n,r,p,List.mem_append_right _ m⟩
  · exact .inr (.inl ⟨p,List.mem_append_right _ m,c⟩)
  · exact .inr (.inr (List.mem_append_right _ m))
variable {token : OverloadProbeToken} {d : Option Canceller} {w after : World}

theorem Outstanding.shrink {canceller added since}
    (h : Outstanding token canceller (added ++ since)) : Outstanding token canceller since :=
  ⟨fun m => h.uncompleted (List.mem_append_right _ m),fun m => h.uncancelled (List.mem_append_right _ m),
    fun k n r m => h.notReporting k n r (List.mem_append_right _ m)⟩

structure Recorded (w : World) : Prop where
  probeIds : ∀ token d, .admitted token d ∈ w.history → token.probeId ≤ w.breaker.probeIdCounter
  unique : ∀ token d other e, .admitted token d ∈ w.history → .admitted other e ∈ w.history →
    token.probeId = other.probeId → token = other ∧ d = e
  leaseIds : ∀ token d, .admitted token d ∈ w.history → ∀ lease ∈ token.leases,
    lease.leaseId ≤ w.breaker.leaseIdCounter
  held : ∀ key bucket probe, w.breaker.bucket key = some bucket → bucket.probe = some probe →
    probe.admissionTtlMs = PROBE_ADMISSION_TTL_MS ∧ probe.leaseId ≤ w.breaker.leaseIdCounter ∧
    ∃ token, .admitted token probe.onDisplaced ∈ w.history ∧ token.probeId = probe.probeId ∧
      token.acquiredAt = probe.acquiredAt ∧ ⟨key,bucket.generation,probe.leaseId⟩ ∈ token.leases
  owner : ∀ token d, .admitted token d ∈ w.history → ∀ lease ∈ token.leases,
    ∀ other e, .admitted other e ∈ w.history → ∀ foreign ∈ other.leases,
      lease.leaseId = foreign.leaseId → token = other

theorem recordedStart {w} (empty : w.breaker = .empty) (fresh : w.history = []) : Recorded w := by
  constructor <;> simp [fresh,empty,Breaker.empty,Breaker.bucket]

theorem Recorded.quiet (h : Recorded w) (added : List Happened)
    (nobody : ∀ token d, .admitted token d ∉ added) (history : after.history = added ++ w.history)
    (probeIds : w.breaker.probeIdCounter ≤ after.breaker.probeIdCounter)
    (leaseIds : w.breaker.leaseIdCounter ≤ after.breaker.leaseIdCounter)
    (kept : ∀ key bucket probe, after.breaker.bucket key = some bucket → bucket.probe = some probe →
      ∃ old, w.breaker.bucket key = some old ∧ old.probe = some probe ∧ old.generation = bucket.generation) :
    Recorded after := by
  have past : ∀ {token d}, .admitted token d ∈ after.history → .admitted token d ∈ w.history := by
    intro token d member
    rw [history] at member
    exact (List.mem_append.mp member).resolve_left (nobody token d)
  constructor
  · exact fun token d member => Nat.le_trans (h.probeIds token d (past member)) probeIds
  · exact fun token d other e first second => h.unique token d other e (past first) (past second)
  · exact fun token d member lease given => Nat.le_trans (h.leaseIds token d (past member) lease given) leaseIds
  · intro key bucket probe found held
    obtain ⟨old,before,same,generation⟩ := kept key bucket probe found held
    obtain ⟨ttl,bound,token,member,rest⟩ := h.held key old probe before same
    exact ⟨ttl,Nat.le_trans bound leaseIds,token,by rw [history]; exact List.mem_append_right _ member,
      by rwa [← generation]⟩
  · exact fun token d first lease given other e second foreign its =>
      h.owner token d (past first) lease given other e (past second) foreign its

theorem Recorded.granted {added now cancelled} (h : Recorded w)
    (nobody : ∀ token d, .admitted token d ∉ added)
    (history : after.history = added ++ .admitted token d::w.history)
    (admits : Admits w.breaker now d token cancelled after.breaker) : Recorded after := by
  have cases : ∀ {t e}, .admitted t e ∈ after.history → (t = token ∧ e = d) ∨ .admitted t e ∈ w.history := by
    intro t e member
    rw [history] at member
    rcases List.mem_cons.mp ((List.mem_append.mp member).resolve_left (nobody t e)) with same | old
    · cases same; exact .inl ⟨rfl,rfl⟩
    · exact .inr old
  have newest : .admitted token d ∈ after.history := by simp [history]
  have old : ∀ {t e}, .admitted t e ∈ w.history → .admitted t e ∈ after.history := by
    intro t e member
    rw [history]
    exact List.mem_append_right _ (.tail _ member)
  have later : ∀ {t e}, .admitted t e ∈ w.history → t.probeId ≠ token.probeId := by
    intro t e member same
    have := h.probeIds t e member
    have := admits.probeId
    omega
  constructor
  · intro t e member
    rcases cases member with ⟨rfl,rfl⟩ | past
    · exact Nat.le_of_eq (admits.probeId.trans admits.probeIds.symm)
    · have := h.probeIds t e past
      have := admits.probeIds
      omega
  · intro t e other f first second same
    rcases cases first with ⟨rfl,rfl⟩ | before
    · rcases cases second with ⟨rfl,rfl⟩ | past
      · exact ⟨rfl,rfl⟩
      · exact absurd same.symm (later past)
    · rcases cases second with ⟨rfl,rfl⟩ | past
      · exact absurd same (later before)
      · exact h.unique t e other f before past same
  · intro t e member lease given
    rcases cases member with ⟨rfl,rfl⟩ | past
    · exact (admits.leases lease given).2.1
    · exact Nat.le_trans (h.leaseIds t e past lease given) admits.leaseIds
  · intro key bucket probe found held
    cases before : w.breaker.bucket key with
    | none => simp [admits.absent key before] at found
    | some past =>
      rcases admits.present key past before with ⟨same,_⟩ | ⟨leaseId,_,upper,fresh,given,_⟩
      · cases found.symm.trans same
        obtain ⟨ttl,bound,t,member,rest⟩ := h.held key bucket probe before held
        exact ⟨ttl,Nat.le_trans bound admits.leaseIds,t,old member,rest⟩
      · cases found.symm.trans fresh
        cases held
        exact ⟨rfl,upper,token,newest,rfl,admits.acquiredAt,given⟩
  · intro t e first lease given other f second foreign its same
    rcases cases first with ⟨rfl,rfl⟩ | before
    · rcases cases second with ⟨rfl,rfl⟩ | past
      · rfl
      · have := (admits.leases lease given).1
        have := h.leaseIds other f past foreign its
        omega
    · rcases cases second with ⟨rfl,rfl⟩ | past
      · have := (admits.leases foreign its).1
        have := h.leaseIds t e before lease given
        omega
      · exact h.owner t e before lease given other f past foreign its same

def GivesWay (added : List Happened) (clock : Int) (token : OverloadProbeToken) (d : Option Canceller)
    (key : String) : Prop :=
  .completed token.probeId ∈ added ∨ ClearedSince key added ∨
  (∃ now resetTime reporter, .tripped key now resetTime reporter ∈ added ∧
    (reporter = some token.probeId ∨ ∀ canceller, d = some canceller → .cancelled canceller ∈ added)) ∨
  (token.acquiredAt + PROBE_ADMISSION_TTL_MS ≤ clock ∧
    ∀ canceller, d = some canceller → .cancelled canceller ∈ added)

inductive Advance (w after : World) (added : List Happened) : Prop where
  | quiet (nobody : ∀ token d, .admitted token d ∉ added) (history : after.history = added ++ w.history)
  | granted (cancelled : List Canceller) (token : OverloadProbeToken) (d : Option Canceller)
      (entries : added = cancelled.map .cancelled ++ [.admitted token d]) (history : after.history = added ++ w.history)
      (admits : Admits w.breaker after.clock d token cancelled after.breaker)

theorem notAdmittedCancelled {cancelled : List Canceller} :
    .admitted token d ∉ cancelled.map Happened.cancelled := by
  simp

theorem Advance.since {added newer : List Happened}
    (h : Advance w after added) (here : Since after.history (.admitted token d) newer) :
    (∃ rest, newer = added ++ rest ∧ Since w.history (.admitted token d) rest) ∨
    ∃ cancelled, newer = cancelled.map .cancelled ∧ Admits w.breaker after.clock d token cancelled after.breaker := by
  cases h with
  | quiet nobody history =>
    rw [history] at here
    exact .inl (sinceAdded (nobody token d) here)
  | granted cancelled fresh e entries history admits =>
    rw [history,entries,List.append_assoc,List.singleton_append] at here
    obtain ⟨rest,same,here⟩ := sinceAdded notAdmittedCancelled here
    rcases sinceCons.mp here with ⟨empty,it⟩ | ⟨older,more,here⟩
    · cases it
      exact .inr ⟨cancelled,by rw [same,empty,List.append_nil],admits⟩
    · exact .inl ⟨older,by rw [same,more,entries,List.append_assoc,List.singleton_append],here⟩

structure StepSpec (w after : World) : Prop where
  clock : w.clock ≤ after.clock
  recorded : Recorded after
  advance : ∃ added, Advance w after added ∧
    ∀ token d key, .admitted token d ∈ w.history → Holds w.breaker token key →
      Holds after.breaker token key ∨ GivesWay added after.clock token d key

theorem tick (clock : Int) (elapsed : Nat) : clock ≤ clock + elapsed :=
  Int.le_add_of_nonneg_right (Int.natCast_nonneg _)

theorem holderIs {w} (h : Recorded w) {key bucket probe}
    (member : .admitted token d ∈ w.history)
    (found : w.breaker.bucket key = some bucket) (held : bucket.probe = some probe)
    (mine : probe.probeId = token.probeId) :
    probe.onDisplaced = d ∧ probe.acquiredAt = token.acquiredAt ∧ probe.admissionTtlMs = PROBE_ADMISSION_TTL_MS ∧
      ⟨key,bucket.generation,probe.leaseId⟩ ∈ token.leases := by
  obtain ⟨ttl,_,other,its,id,acquired,lease⟩ := h.held key bucket probe found held
  obtain ⟨same,callback⟩ := h.unique other _ token d its member (id.trans mine)
  subst same
  exact ⟨callback,acquired.symm,ttl,lease⟩

theorem tripSpec {w} (h : Recorded w) (elapsed : Nat) (provider : String) (resetTime : Option Int)
    (model : Option String) (reporter : Option Nat) :
    let now := w.clock + elapsed
    let t := applyProviderOverloadCooldown w.breaker now provider resetTime model reporter
    StepSpec w ⟨t.breaker,now,
      t.cancelled.map .cancelled ++ .tripped (bucketKey provider model) now resetTime reporter::w.history⟩ := by
  intro now t
  let added : List Happened :=
    t.cancelled.map .cancelled ++ [.tripped (bucketKey provider model) now resetTime reporter]
  have nobody : ∀ token d, .admitted token d ∉ added := by simp [added]
  have history : t.cancelled.map .cancelled ++ .tripped (bucketKey provider model) now resetTime reporter::w.history =
      added ++ w.history := by simp [added]
  refine ⟨tick _ _,?_,added,.quiet nobody history,?_⟩
  · refine h.quiet added nobody history le_rfl le_rfl ?_
    intro key bucket probe found held
    rw [show t.breaker.bucket key = _ from tripBucket] at found
    split at found
    · cases found; simp at held
    · exact ⟨bucket,found,held,rfl⟩
  · rintro token d key member ⟨bucket,probe,found,held,mine⟩
    by_cases struck : key = bucketKey provider model
    · subst struck
      refine .inr (.inr (.inr (.inl ⟨now,resetTime,reporter,by simp [added],?_⟩)))
      by_cases own : reporter = some token.probeId
      · exact .inl own
      · refine .inr fun canceller given => ?_
        have callback := (holderIs h member found held mine).1
        have invoked : canceller ∈ t.cancelled := tripCancels found held (by rw [mine]; exact Ne.symm own)
          (callback.trans given)
        exact List.mem_append_left _ (List.mem_map_of_mem invoked)
    · refine .inl ⟨bucket,probe,?_,held,mine⟩
      rw [show t.breaker.bucket key = _ from tripBucket,if_neg struck]
      exact found

theorem acquireSpec (h : Recorded w) {elapsed provider model}
    (done : step w ⟨elapsed,.acquire provider model d⟩ = some after) : StepSpec w after := by
  rcases acquireStep done with rfl | ⟨token,cancelled,breaker,admits,rfl⟩
  · refine ⟨tick _ _,?_,[],.quiet (by simp) rfl,fun token e key member holds => .inl holds⟩
    exact h.quiet [] (by simp) rfl le_rfl le_rfl
      (fun key bucket probe found held => ⟨bucket,found,held,rfl⟩)
  · refine ⟨tick _ _,?_,_,.granted _ token d rfl (by simp) admits,?_⟩
    · exact h.granted (fun _ _ => notAdmittedCancelled) rfl admits
    · rintro other e key member ⟨bucket,probe,found,held,mine⟩
      rcases admits.present key bucket found with ⟨kept,_⟩ | ⟨leaseId,_,_,_,_,free,cancels⟩
      · exact .inl ⟨bucket,probe,kept,held,mine⟩
      · obtain ⟨callback,acquired,ttl,_⟩ := holderIs h member found held mine
        refine .inr (.inr (.inr (.inr ⟨?_,fun canceller given => ?_⟩)))
        · simp only [isLeaseBlockingAdmission,held,Option.any_some,decide_eq_false_iff_not] at free
          simp only
          omega
        · exact List.mem_append_left _ (List.mem_map_of_mem (cancels probe canceller held (callback.trans given)))

theorem completeSpec {w} (h : Recorded w) (elapsed : Nat) (token : OverloadProbeToken)
    (outcome : Outcome) (opaque_ : issued w.history token = true) :
    StepSpec w ⟨completeProviderOverloadProbe w.breaker (some token) outcome,w.clock + elapsed,
      .completed token.probeId::w.history⟩ := by
  have counters := completeCounters w.breaker (some token) outcome
  refine ⟨tick _ _,?_,[.completed token.probeId],.quiet (by simp) rfl,?_⟩
  · refine h.quiet [.completed token.probeId] (by simp) rfl (Nat.le_of_eq counters.2.2.symm)
      (Nat.le_of_eq counters.2.1.symm) ?_
    intro key bucket probe found held
    rcases completeCases w.breaker (some token) outcome key with
      same | ⟨_,_,_,_,_,old,_,_,gone | freed⟩
    · exact ⟨bucket,same ▸ found,held,rfl⟩
    · simp [gone] at found
    · rw [freed] at found
      cases found
      simp at held
  · rintro holder d key member ⟨bucket,probe,found,held,mine⟩
    rcases completeCases w.breaker (some token) outcome key with
      same | ⟨t,lease,its,given,at_key,old,before,current,_⟩
    · exact .inl ⟨bucket,probe,same.trans found,held,mine⟩
    · cases its
      cases found.symm.trans before
      obtain ⟨e,issued_⟩ : ∃ e, .admitted token e ∈ w.history := by
        obtain ⟨entry,inside,matches_⟩ := List.any_eq_true.mp opaque_
        split at matches_
        · exact ⟨_,eq_of_beq matches_ ▸ inside⟩
        · cases matches_
      have id : probe.leaseId = lease.leaseId := by simpa [held] using current.2
      have same := h.owner holder d member _ (holderIs h member found held mine).2.2.2 token e issued_ lease given id
      exact .inr (.inl (by simp [same]))

theorem clearSpec {w} (h : Recorded w) (elapsed : Nat) (provider : Option String) :
    StepSpec w ⟨clearProviderOverloadCooldown w.breaker provider,w.clock + elapsed,.cleared provider::w.history⟩ := by
  have counters := clearCounters w.breaker provider
  refine ⟨tick _ _,?_,[.cleared provider],.quiet (by simp) rfl,?_⟩
  · refine h.quiet [.cleared provider] (by simp) rfl (Nat.le_of_eq counters.2.2.symm)
      (Nat.le_of_eq counters.2.1.symm) ?_
    intro key bucket probe found held
    simp only [clearBucket] at found
    split at found
    · cases found
    · exact ⟨bucket,found,held,rfl⟩
  · rintro token d key member ⟨bucket,probe,found,held,mine⟩
    by_cases swept : cleared provider key = true
    · exact .inr (.inr (.inl ⟨provider,by simp,swept⟩))
    · exact .inl ⟨bucket,probe,by simpa [clearBucket,swept] using found,held,mine⟩

theorem stepSpec {e} (h : Recorded w) (done : step w e = some after) :
    StepSpec w after := by
  obtain ⟨elapsed,call⟩ := e
  cases call with
  | apply provider resetTime model reporter =>
    cases done
    exact tripSpec h elapsed provider resetTime model reporter
  | acquire provider model d => exact acquireSpec h done
  | complete token outcome =>
    cases token with
    | none =>
      cases done
      refine ⟨tick _ _,?_,[],.quiet (by simp) rfl,fun token d key member holds => .inl holds⟩
      exact h.quiet [] (by simp) rfl le_rfl le_rfl
        (fun key bucket probe found held => ⟨bucket,found,held,rfl⟩)
    | some token =>
      simp only [step] at done
      split at done
      · cases done
        exact completeSpec h elapsed token outcome ‹_›
      · cases done
  | clear provider =>
    cases done
    exact clearSpec h elapsed provider

end Clankermux.OverloadBreaker
