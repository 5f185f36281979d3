import Clankermux.OverloadBreaker

/-! What one call of the breaker can do to the bucket of one key. Every result
about runs is derived from these statements alone. -/
namespace Clankermux.OverloadBreaker
open InsertionMap

theorem familyNameInjective {f g : ModelFamily} (same : f.name = g.name) : f = g := by
  cases f <;> cases g <;> first | rfl | exact absurd same (by decide)

theorem familyKeyInjective {providerKey} {f g : ModelFamily}
    (same : providerKey ++ ":" ++ f.name = providerKey ++ ":" ++ g.name) : f = g :=
  familyNameInjective ((String.append_right_inj _).mp same)

theorem familyKeyNotProvider (providerKey : String) (f : ModelFamily) :
    providerKey ++ ":" ++ f.name ≠ providerKey := by
  intro same
  have lengths := congrArg (fun s => s.toList.length) same
  simp only [String.toList_append,List.length_append] at lengths
  have colon : (":" : String).toList.length = 1 := by decide
  omega

section Trip
variable {b : Breaker} {now : Int} {provider : String} {resetTime : Option Int}
  {model : Option String} {probeId : Option Nat} {key : String}

theorem tripBucket : (applyProviderOverloadCooldown b now provider resetTime model probeId).breaker.bucket key =
    if key = bucketKey provider model then
      some ⟨(applyProviderOverloadCooldown b now provider resetTime model probeId).effectiveUntil,
        b.generationCounter + 1,none⟩
    else b.bucket key := by
  simp only [applyProviderOverloadCooldown,Breaker.bucket,getSet]

theorem tripUntil : (applyProviderOverloadCooldown b now provider resetTime model probeId).effectiveUntil =
    ((b.bucket (bucketKey provider model)).map (fun old => max old.untilMs (normalizeUntil resetTime now).1)).getD
      (normalizeUntil resetTime now).1 := rfl

theorem tripCancels {bucket probe canceller}
    (found : b.bucket (bucketKey provider model) = some bucket) (held : bucket.probe = some probe)
    (foreign : some probe.probeId ≠ probeId) (given : probe.onDisplaced = some canceller) :
    canceller ∈ (applyProviderOverloadCooldown b now provider resetTime model probeId).cancelled := by
  simp [applyProviderOverloadCooldown,found,held,foreign,given]

end Trip

section Lease
variable {now : Int} {probeId : Nat} {onDisplaced : Option Canceller} {keys : List String}
  {b : Breaker} {key head : String} {bucket old : OverloadBucket}

@[simp] theorem leaseBucketSelf (now : Int) (probeId : Nat) (onDisplaced : Option Canceller) : (leaseBucket b now probeId onDisplaced key bucket).bucket key =
    some { bucket with probe := some (freshProbe now probeId onDisplaced (b.leaseIdCounter + 1)) } := by
  simp [leaseBucket,Breaker.bucket]

theorem leaseBucketOther (now : Int) (probeId : Nat) (onDisplaced : Option Canceller) (old : OverloadBucket)
    (ne : key ≠ head) :
    (leaseBucket b now probeId onDisplaced head old).bucket key = b.bucket key := by
  simp [leaseBucket,Breaker.bucket,getSetOther ne]

theorem leaseCounters (now : Int) (probeId : Nat) (onDisplaced : Option Canceller) (keys : List String)
    (b : Breaker) : b.leaseIdCounter ≤ (takeLeases now probeId onDisplaced keys b).breaker.leaseIdCounter ∧
    (takeLeases now probeId onDisplaced keys b).breaker.generationCounter = b.generationCounter ∧
    (takeLeases now probeId onDisplaced keys b).breaker.probeIdCounter = b.probeIdCounter := by
  induction keys generalizing b with
  | nil => exact ⟨le_rfl,rfl,rfl⟩
  | cons head rest ih =>
    cases found : b.bucket head with
    | none => simpa only [takeLeases,found] using ih b
    | some old =>
      have tail := ih (leaseBucket b now probeId onDisplaced head old)
      simp only [takeLeases,found]
      exact ⟨Nat.le_of_succ_le tail.1,tail.2⟩

theorem leaseAbsent (absent : b.bucket key = none) :
    (takeLeases now probeId onDisplaced keys b).breaker.bucket key = none := by
  induction keys generalizing b with
  | nil => exact absent
  | cons head rest ih =>
    cases found : b.bucket head with
    | none => simpa only [takeLeases,found] using ih absent
    | some old =>
      have ne : key ≠ head := by rintro rfl; simp [absent] at found
      simp only [takeLeases,found]
      exact ih (by rw [leaseBucketOther _ _ _ _ ne,absent])

theorem leasePresent (now : Int) (probeId : Nat) (onDisplaced : Option Canceller) (keys : List String)
    (found : b.bucket key = some bucket) :
    ∃ probe, (takeLeases now probeId onDisplaced keys b).breaker.bucket key = some { bucket with probe } ∧
      (probe = bucket.probe ∧ key ∉ keys ∨
        ∃ leaseId, b.leaseIdCounter < leaseId ∧
          leaseId ≤ (takeLeases now probeId onDisplaced keys b).breaker.leaseIdCounter ∧
          probe = some (freshProbe now probeId onDisplaced leaseId) ∧
          ⟨key,bucket.generation,leaseId⟩ ∈ (takeLeases now probeId onDisplaced keys b).leases) := by
  induction keys generalizing b bucket with
  | nil => exact ⟨bucket.probe,found,.inl ⟨rfl,by simp⟩⟩
  | cons head rest ih =>
    cases here : b.bucket head with
    | none =>
      have ne : key ≠ head := by rintro rfl; simp [here] at found
      simpa [takeLeases,here,ne] using ih found
    | some old =>
      simp only [takeLeases,here]
      have counted := leaseCounters now probeId onDisplaced rest (leaseBucket b now probeId onDisplaced head old)
      by_cases same : key = head
      · subst same
        cases here.symm.trans found
        obtain ⟨probe,after,kept | ⟨leaseId,lower,upper,fresh,member⟩⟩ :=
          ih (leaseBucketSelf now probeId onDisplaced)
        · exact ⟨probe,after,.inr ⟨b.leaseIdCounter + 1,Nat.lt_succ_self _,counted.1,kept.1,
            (.head _)⟩⟩
        · exact ⟨probe,after,.inr ⟨leaseId,Nat.lt_of_succ_lt lower,upper,fresh,
            .tail _ member⟩⟩
      · obtain ⟨probe,after,kept | ⟨leaseId,lower,upper,fresh,member⟩⟩ :=
          ih ((leaseBucketOther now probeId onDisplaced old same).trans found)
        · exact ⟨probe,after,.inl ⟨kept.1,by simp [same,kept.2]⟩⟩
        · exact ⟨probe,after,.inr ⟨leaseId,Nat.lt_of_succ_lt lower,upper,fresh,
            .tail _ member⟩⟩

theorem leaseCancels {probe canceller} (member : key ∈ keys)
    (found : b.bucket key = some bucket) (held : bucket.probe = some probe)
    (given : probe.onDisplaced = some canceller) :
    canceller ∈ (takeLeases now probeId onDisplaced keys b).displaced := by
  induction keys generalizing b with
  | nil => simp at member
  | cons head rest ih =>
    by_cases same : key = head
    · subst same
      simp [takeLeases,found,held,given]
    · have inside : key ∈ rest := by simpa [same] using member
      cases here : b.bucket head with
      | none => simpa only [takeLeases,here] using ih inside found
      | some old =>
        simp only [takeLeases,here]
        exact List.mem_append_right _ (ih inside (by rw [leaseBucketOther _ _ _ _ same,found]))

theorem leaseOrigin {lease} (member : lease ∈ (takeLeases now probeId onDisplaced keys b).leases) :
    lease.key ∈ keys ∧ b.leaseIdCounter < lease.leaseId ∧
      lease.leaseId ≤ (takeLeases now probeId onDisplaced keys b).breaker.leaseIdCounter ∧
      ∃ bucket, b.bucket lease.key = some bucket ∧ bucket.generation = lease.generation := by
  induction keys generalizing b with
  | nil => simp [takeLeases] at member
  | cons head rest ih =>
    cases here : b.bucket head with
    | none =>
      simp only [takeLeases,here] at member ⊢
      obtain ⟨inside,more⟩ := ih member
      exact ⟨.tail _ inside,more⟩
    | some old =>
      simp only [takeLeases,here] at member ⊢
      have counted := leaseCounters now probeId onDisplaced rest (leaseBucket b now probeId onDisplaced head old)
      rcases List.mem_cons.mp member with rfl | tail
      · exact ⟨.head _,Nat.lt_succ_self _,counted.1,old,here,rfl⟩
      · obtain ⟨inside,lower,upper,bucket,found,generation⟩ := ih tail
        refine ⟨.tail _ inside,Nat.lt_of_succ_lt lower,upper,?_⟩
        by_cases same : lease.key = head
        · rw [same,leaseBucketSelf] at found
          cases found
          exact ⟨old,by rw [same]; exact here,generation⟩
        · exact ⟨bucket,by rw [← found,leaseBucketOther _ _ _ _ same],generation⟩

end Lease

section Complete
variable {b : Breaker} {outcome : Outcome} {key : String} {lease : ProbeLease} {leases : List ProbeLease}

def Released (before after : Option OverloadBucket) (lease : ProbeLease) : Prop :=
  ∃ bucket, before = some bucket ∧ Current bucket lease ∧
    (after = none ∨ after = some { bucket with probe := none })

theorem settleOther (outcome : Outcome) (b : Breaker) (ne : key ≠ lease.key) : (settleLease outcome b lease).bucket key = b.bucket key := by
  unfold settleLease
  split
  · rfl
  · split
    · cases outcome <;> simp [Breaker.bucket,getDeleteOther ne,getSetOther ne]
    · rfl

theorem settleCases (outcome : Outcome) (b : Breaker) (lease : ProbeLease) : (settleLease outcome b lease).bucket lease.key = b.bucket lease.key ∨
    Released (b.bucket lease.key) ((settleLease outcome b lease).bucket lease.key) lease := by
  unfold settleLease
  split
  · exact .inl rfl
  · rename_i bucket found
    split
    · rename_i current
      refine .inr ⟨bucket,found,current,?_⟩
      cases outcome
      · exact .inl (by simp [Breaker.bucket])
      · exact .inr (by simp [Breaker.bucket])
      · exact .inr (by simp [Breaker.bucket])
    · exact .inl rfl

theorem settleCounters (outcome : Outcome) (b : Breaker) (lease : ProbeLease) : (settleLease outcome b lease).generationCounter = b.generationCounter ∧
    (settleLease outcome b lease).leaseIdCounter = b.leaseIdCounter ∧
    (settleLease outcome b lease).probeIdCounter = b.probeIdCounter := by
  unfold settleLease
  split
  · exact ⟨rfl,rfl,rfl⟩
  · split
    · cases outcome <;> exact ⟨rfl,rfl,rfl⟩
    · exact ⟨rfl,rfl,rfl⟩

theorem settleIdle (idle : ∀ bucket, b.bucket key = some bucket → bucket.probe = none) :
    (leases.foldl (settleLease outcome) b).bucket key = b.bucket key := by
  induction leases generalizing b with
  | nil => rfl
  | cons head rest ih =>
    have same : (settleLease outcome b head).bucket key = b.bucket key := by
      by_cases mine : key = head.key
      · subst mine
        rcases settleCases outcome b head with unchanged | ⟨bucket,found,current,_⟩
        · exact unchanged
        · simp [idle bucket found,Current] at current
      · exact settleOther outcome b mine
    rw [List.foldl_cons,ih (by rw [same]; exact idle),same]

theorem settleAllCases (outcome : Outcome) (b : Breaker) (key : String) (leases : List ProbeLease) : (leases.foldl (settleLease outcome) b).bucket key = b.bucket key ∨
    ∃ lease ∈ leases, lease.key = key ∧
      Released (b.bucket key) ((leases.foldl (settleLease outcome) b).bucket key) lease := by
  induction leases generalizing b with
  | nil => exact .inl rfl
  | cons head rest ih =>
    rw [List.foldl_cons]
    by_cases mine : key = head.key
    · subst mine
      rcases settleCases outcome b head with unchanged | released
      · rcases ih (b := settleLease outcome b head) with same | ⟨lease,member,its,more⟩
        · exact .inl (same.trans unchanged)
        · exact .inr ⟨lease,.tail _ member,its,by rwa [unchanged] at more⟩
      · obtain ⟨bucket,found,current,after⟩ := released
        -- Deleted or released, the bucket has no lease left for the rest of the token.
        have idle : ∀ old, (settleLease outcome b head).bucket head.key = some old → old.probe = none := by
          intro old now
          rcases after with gone | kept
          · simp [gone] at now
          · rw [kept] at now; cases now; rfl
        rw [settleIdle idle]
        exact .inr ⟨head,.head _,rfl,bucket,found,current,after⟩
    · have other := settleOther outcome b mine
      rcases ih (b := settleLease outcome b head) with same | ⟨lease,member,its,more⟩
      · exact .inl (same.trans other)
      · exact .inr ⟨lease,.tail _ member,its,by rwa [other] at more⟩

theorem settleAllCounters :
    let after := leases.foldl (settleLease outcome) b
    after.generationCounter = b.generationCounter ∧ after.leaseIdCounter = b.leaseIdCounter ∧
      after.probeIdCounter = b.probeIdCounter := by
  induction leases generalizing b with
  | nil => exact ⟨rfl,rfl,rfl⟩
  | cons head rest ih =>
    have first := settleCounters outcome b head
    have tail := ih (b := settleLease outcome b head)
    exact ⟨tail.1.trans first.1,tail.2.1.trans first.2.1,tail.2.2.trans first.2.2⟩

theorem completeCases (b : Breaker) (token : Option OverloadProbeToken) (outcome : Outcome) (key : String) :
    (completeProviderOverloadProbe b token outcome).bucket key = b.bucket key ∨
      ∃ t lease, token = some t ∧ lease ∈ t.leases ∧ lease.key = key ∧
        Released (b.bucket key) ((completeProviderOverloadProbe b token outcome).bucket key) lease := by
  cases token with
  | none => exact .inl rfl
  | some t =>
    rcases settleAllCases outcome b key t.leases with same | ⟨lease,member,its,r⟩
    · exact .inl same
    · exact .inr ⟨t,lease,rfl,member,its,r⟩

theorem completeCounters (b : Breaker) (token : Option OverloadProbeToken) (outcome : Outcome) :
    let after := completeProviderOverloadProbe b token outcome
    after.generationCounter = b.generationCounter ∧ after.leaseIdCounter = b.leaseIdCounter ∧
      after.probeIdCounter = b.probeIdCounter := by
  cases token with
  | none => exact ⟨rfl,rfl,rfl⟩
  | some t => exact settleAllCounters

end Complete

theorem deleteAll {m : InsertionMap String OverloadBucket} {doomed : List String} {key} :
    get (doomed.foldl delete m) key = if key ∈ doomed then none else get m key := by
  induction doomed generalizing m with
  | nil => simp
  | cons head rest ih =>
    rw [List.foldl_cons,ih,getDelete]
    by_cases first : key = head
    · simp [first]
    · simp [first]

theorem clearBucket {b : Breaker} {provider : Option String} {key} :
    (clearProviderOverloadCooldown b provider).bucket key =
      if cleared provider key then none else b.bucket key := by
  cases provider with
  | none => simp [clearProviderOverloadCooldown,Breaker.bucket,cleared]
  | some p =>
    simp only [clearProviderOverloadCooldown,Breaker.bucket,deleteAll,cleared]
    by_cases mine : ofProvider (getProviderOverloadKey p) key = true
    · cases found : get b.buckets key with
      | none => simp [mine]
      | some bucket => simp [mine,memKeysOfGet found]
    · simp [mine]

theorem clearCounters (b : Breaker) (provider : Option String) :
    let after := clearProviderOverloadCooldown b provider
    after.generationCounter = b.generationCounter ∧ after.leaseIdCounter = b.leaseIdCounter ∧
      after.probeIdCounter = b.probeIdCounter := by
  cases provider <;> exact ⟨rfl,rfl,rfl⟩

structure Admits (b : Breaker) (now : Int) (onDisplaced : Option Canceller) (token : OverloadProbeToken)
    (cancelled : List Canceller) (after : Breaker) : Prop where
  probeId : token.probeId = b.probeIdCounter + 1
  acquiredAt : token.acquiredAt = now
  generations : after.generationCounter = b.generationCounter
  leaseIds : b.leaseIdCounter ≤ after.leaseIdCounter
  probeIds : after.probeIdCounter = b.probeIdCounter + 1
  absent : ∀ key, b.bucket key = none → after.bucket key = none
  present : ∀ key bucket, b.bucket key = some bucket →
    (after.bucket key = some bucket ∧ ∀ lease ∈ token.leases, lease.key ≠ key) ∨
    ∃ leaseId, b.leaseIdCounter < leaseId ∧ leaseId ≤ after.leaseIdCounter ∧
      after.bucket key = some { bucket with probe := some (freshProbe now token.probeId onDisplaced leaseId) } ∧
      ⟨key,bucket.generation,leaseId⟩ ∈ token.leases ∧
      isLeaseBlockingAdmission bucket now = false ∧
      ∀ probe canceller, bucket.probe = some probe → probe.onDisplaced = some canceller → canceller ∈ cancelled
  leases : ∀ lease ∈ token.leases, b.leaseIdCounter < lease.leaseId ∧ lease.leaseId ≤ after.leaseIdCounter ∧
    ∃ bucket, b.bucket lease.key = some bucket ∧ bucket.generation = lease.generation

theorem acquireCases (b : Breaker) (now : Int) (provider : String) (model : Option String)
    (onDisplaced : Option Canceller) :
    let a := tryAcquireProviderOverloadProbe b now provider model onDisplaced
    (a.breaker = b ∧ a.cancelled = [] ∧ ∀ token, a.admission ≠ .admitted (some token)) ∨
      ∃ token, a.admission = .admitted (some token) ∧ Admits b now onDisplaced token a.cancelled a.breaker := by
  simp only [tryAcquireProviderOverloadProbe]
  split
  · exact .inl ⟨rfl,rfl,by simp⟩
  split
  · exact .inl ⟨rfl,rfl,by simp⟩
  rename_i free
  split
  · exact .inl ⟨rfl,rfl,by simp⟩
  let next : Breaker := { b with probeIdCounter := b.probeIdCounter + 1 }
  let keys := existing b (relevantKeys b provider model)
  have counted := leaseCounters now (b.probeIdCounter + 1) onDisplaced keys next
  refine .inr ⟨_,rfl,rfl,rfl,counted.2.1,counted.1,counted.2.2,fun key none => leaseAbsent none,?_,?_⟩
  · intro key bucket found
    obtain ⟨probe,after,⟨same,outside⟩ | ⟨leaseId,lower,upper,fresh,member⟩⟩ :=
      leasePresent (b := next) now (b.probeIdCounter + 1) onDisplaced keys found
    · subst same
      exact .inl ⟨after,fun lease given its => outside (its ▸ (leaseOrigin given).1)⟩
    · subst fresh
      have half : key ∈ keys := (leaseOrigin member).1
      have relevant : key ∈ relevantKeys b provider model := List.mem_of_mem_filter half
      refine .inr ⟨leaseId,lower,upper,after,member,?_,?_⟩
      · cases blocking : isLeaseBlockingAdmission bucket now with
        | false => rfl
        | true => exact absurd (List.any_eq_true.mpr ⟨key,relevant,by simp [found,blocking]⟩) free
      · intro probe canceller held given
        exact List.mem_eraseDups.mpr (leaseCancels (b := next) half found held given)
  · intro lease given
    have origin := leaseOrigin given
    exact ⟨origin.2.1,origin.2.2⟩

theorem acquireStep {w after elapsed provider model d}
    (done : step w ⟨elapsed,.acquire provider model d⟩ = some after) : after = ⟨w.breaker,w.clock + elapsed,w.history⟩ ∨
      ∃ token cancelled breaker, Admits w.breaker (w.clock + elapsed) d token cancelled breaker ∧
        after = ⟨breaker,w.clock + elapsed,cancelled.map .cancelled ++ .admitted token d::w.history⟩ := by
  simp only [step] at done
  rcases acquireCases w.breaker (w.clock + elapsed) provider model d with ⟨same,_,refused⟩ | ⟨token,admission,admits⟩
  · left
    split at done
    · exact absurd ‹_› (refused _)
    · rw [same] at done
      exact (Option.some.inj done).symm
  · rw [admission] at done
    exact .inr ⟨token,_,_,admits,(Option.some.inj done).symm⟩

end Clankermux.OverloadBreaker
