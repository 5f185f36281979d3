import Clankermux.OverloadEvidence

/-! A request for one model family is answered from the family's bucket and the
provider-wide one, so a trip of another family cannot change its answer. -/
namespace Clankermux.OverloadBreaker
open History

section Agree
variable {b other : Breaker} {now : Int} {keys : List String}

theorem latestDeadlineAgree (agree : ∀ key ∈ keys, b.bucket key = other.bucket key) (max : Option Int) :
    latestDeadline b now keys max = latestDeadline other now keys max := by
  induction keys generalizing max with
  | nil => rfl
  | cons head rest ih =>
    have tail := fun key inside => agree key (List.mem_cons_of_mem head inside)
    simp only [latestDeadline,agree head (.head _)]
    split
    · exact ih tail _
    · exact ih tail _

theorem existingAgree (agree : ∀ key ∈ keys, b.bucket key = other.bucket key) :
    existing b keys = existing other keys := by
  apply List.filter_congr
  intro key inside
  rw [agree key inside]

theorem blockedAgree (agree : ∀ key ∈ keys, b.bucket key = other.bucket key) :
    blocked b now keys = blocked other now keys := by
  unfold blocked
  induction keys with
  | nil => rfl
  | cons head rest ih =>
    rw [List.any_cons,List.any_cons,agree head (.head _),
      ih (fun key inside => agree key (List.mem_cons_of_mem head inside))]

theorem takeLeasesAgree (now : Int) (probeId : Nat) (onDisplaced : Option Canceller)
    (agree : ∀ key ∈ keys, b.bucket key = other.bucket key) (counter : b.leaseIdCounter = other.leaseIdCounter) :
    (takeLeases now probeId onDisplaced keys b).leases = (takeLeases now probeId onDisplaced keys other).leases := by
  induction keys generalizing b other with
  | nil => rfl
  | cons head rest ih =>
    have here := agree head (.head _)
    have tail := fun key inside => agree key (List.mem_cons_of_mem head inside)
    simp only [takeLeases,← here]
    cases b.bucket head with
    | none => exact ih tail counter
    | some bucket =>
      simp only
      rw [counter]
      congr 1
      refine ih ?_ (by simp [leaseBucket,counter])
      intro key inside
      by_cases same : key = head
      · subst same; simp [counter]
      · rw [leaseBucketOther _ _ _ _ same,leaseBucketOther _ _ _ _ same,tail key inside]

end Agree

theorem relevantFamily {b provider model f} (family : getModelFamily model = some f) :
    relevantKeys b provider (some model) =
      [getProviderOverloadKey provider ++ ":" ++ f.name,getProviderOverloadKey provider] := by
  simp [relevantKeys,resolveOverloadKeyParts,family]

theorem bucketFamily {provider model f} (family : getModelFamily model = some f) :
    bucketKey provider (some model) = getProviderOverloadKey provider ++ ":" ++ f.name := by
  simp [bucketKey,resolveOverloadKeyParts,family]

theorem admissionAgree {b other now provider model onDisplaced} (relevant : relevantKeys b provider model = relevantKeys other provider model)
    (agree : ∀ key ∈ relevantKeys b provider model, b.bucket key = other.bucket key)
    (leases : b.leaseIdCounter = other.leaseIdCounter) (probes : b.probeIdCounter = other.probeIdCounter) :
    (tryAcquireProviderOverloadProbe b now provider model onDisplaced).admission =
      (tryAcquireProviderOverloadProbe other now provider model onDisplaced).admission := by
  have until_ : getProviderOverloadUntil b provider now model = getProviderOverloadUntil other provider now model := by
    unfold getProviderOverloadUntil
    rw [← relevant]
    exact latestDeadlineAgree agree none
  have half := existingAgree agree
  let left : Breaker := { b with probeIdCounter := b.probeIdCounter + 1 }
  let right : Breaker := { other with probeIdCounter := b.probeIdCounter + 1 }
  have halves : ∀ key ∈ existing b (relevantKeys b provider model), left.bucket key = right.bucket key :=
    fun key inside => agree key (List.mem_of_mem_filter inside)
  have taken := takeLeasesAgree now (b.probeIdCounter + 1) onDisplaced halves leases
  simp only [tryAcquireProviderOverloadProbe]
  rw [← until_,← relevant,← blockedAgree agree,← half,← probes]
  split
  · rfl
  · split
    · rfl
    · split
      · rfl
      · simp only
        rw [taken]

theorem tripSparesOtherFamily (b : Breaker) (now later_ : Int) (provider requested : String)
    (resetTime : Option Int) (model asked : String) (reporter : Option Nat) (onDisplaced : Option Canceller)
    {f g} (same : getProviderOverloadKey requested = getProviderOverloadKey provider)
    (tripped : getModelFamily model = some f) (wanted : getModelFamily asked = some g) (ne : f ≠ g) :
    (tryAcquireProviderOverloadProbe (applyProviderOverloadCooldown b now provider resetTime (some model) reporter).breaker
        later_ requested (some asked) onDisplaced).admission =
      (tryAcquireProviderOverloadProbe b later_ requested (some asked) onDisplaced).admission := by
  refine admissionAgree ?_ ?_ rfl rfl
  · rw [relevantFamily wanted,relevantFamily wanted]
  · intro key inside
    rw [relevantFamily wanted,same] at inside
    rw [tripBucket,bucketFamily tripped,if_neg]
    rintro rfl
    rcases List.mem_cons.mp inside with its | provider_
    · exact ne (familyKeyInjective its)
    · exact familyKeyNotProvider _ f (List.mem_singleton.mp provider_)

structure EvidenceHarmless (w : World) : Prop where
  current : ∀ token outcome key,
    (completeProviderOverloadProbe w.breaker (some token) outcome).bucket key ≠ w.breaker.bucket key →
      ∃ lease ∈ token.leases, lease.key = key ∧ ∃ bucket, w.breaker.bucket key = some bucket ∧ Current bucket lease
  idempotent : ∀ token first second,
    completeProviderOverloadProbe (completeProviderOverloadProbe w.breaker token first) token second =
      completeProviderOverloadProbe w.breaker token first
  outlived : ∀ token d newer key outcome, Since w.history (.admitted token d) newer → Outlived key newer →
    (completeProviderOverloadProbe w.breaker (some token) outcome).bucket key = w.breaker.bucket key
  monotone : ∀ after key old new, machine.Steps (fun w _ => (w.breaker.bucket key).isSome) w after →
    w.breaker.bucket key = some old → after.breaker.bucket key = some new → old.untilMs ≤ new.untilMs
  bounded : ∀ key bucket, w.breaker.bucket key = some bucket → ∃ now resetTime reporter newer,
    Since w.history (.tripped key now resetTime reporter) newer ∧ ¬ ClearedSince key newer ∧
      bucket.untilMs = (normalizeUntil resetTime now).1 ∧ bucket.untilMs ≤ now + MAX_PROVIDER_OVERLOAD_COOLDOWN_MS
  spares : ∀ now later provider requested resetTime model asked reporter onDisplaced f g,
    getProviderOverloadKey requested = getProviderOverloadKey provider →
    getModelFamily model = some f → getModelFamily asked = some g → f ≠ g →
    (tryAcquireProviderOverloadProbe (applyProviderOverloadCooldown w.breaker now provider resetTime (some model)
        reporter).breaker later requested (some asked) onDisplaced).admission =
      (tryAcquireProviderOverloadProbe w.breaker later requested (some asked) onDisplaced).admission

theorem evidenceHarmless {w : World} (reach : machine.Reachable w) : EvidenceHarmless w where
  current _ _ _ changed := completionNeedsCurrentLease changed
  idempotent := completionIdempotent w.breaker
  outlived _ _ _ _ outcome here gone := outlivedTokenChangesNothing reach outcome here gone
  monotone _ _ _ _ run before found := deadlineMonotone run before found
  bounded key bucket found := by
    obtain ⟨now,resetTime,reporter,newer,here,unclear,deadline⟩ := deadlinesSet reach key bucket found
    exact ⟨now,resetTime,reporter,newer,here,unclear,deadline,deadline ▸ normalizeUntilBound resetTime now⟩
  spares now later provider requested resetTime model asked reporter onDisplaced _ _ same tripped wanted ne :=
    tripSparesOtherFamily w.breaker now later provider requested resetTime model asked reporter onDisplaced
      same tripped wanted ne

def retripped : List Event :=
  [⟨0,.apply "codex" none none none⟩,⟨60000,.acquire "codex" none (some 1)⟩,⟨1000,.apply "codex" none none none⟩]

theorem evidenceHarmlessRetripped : ∃ w, machine.run ⟨.empty,0,[]⟩ retripped = some w ∧
    (w.breaker.bucket "codex").isSome ∧ EvidenceHarmless w :=
  ⟨_,rfl,by decide,evidenceHarmless (Machine.runReachable (s := ⟨.empty,0,[]⟩) retripped ⟨rfl,rfl⟩ rfl)⟩

theorem inspected (b : Breaker) (now keys seen) :
    let out := (keys.filterMap b.bucket).foldl (inspectBucket now) seen
    out.untilMs = latestDeadline b now keys seen.untilMs ∧
      (out.halfOpen ∨ out.untilMs.isSome ↔ seen.halfOpen ∨ seen.untilMs.isSome ∨ existing b keys ≠ []) := by
  have ahead max d : (later max d).isSome := by cases max <;> grind
  induction keys generalizing seen with
  | nil => simp [latestDeadline,existing]
  | cons key rest ih =>
    cases found : b.bucket key with
    | none => simpa [latestDeadline,existing,found] using ih seen
    | some bucket =>
      obtain ⟨deadline,held⟩ := ih (inspectBucket now seen bucket)
      simp only [List.filterMap_cons,found,List.foldl_cons]
      refine ⟨deadline.trans ?_,held.trans ?_⟩ <;> clear ih deadline held
      · grind [inspectBucket]
      · grind [inspectBucket,existing]

/-- The state read without a lease is what an acquisition at the same instant answers. -/
theorem inspectionAdmits (b provider model now onDisplaced) :
    let status := inspectProviderOverload b provider model now
    match (tryAcquireProviderOverloadProbe b now provider model onDisplaced).admission with
    | .refused .open untilMs => status.state = .open ∧ status.untilMs = untilMs
    | .admitted none => status.state = .closed
    | _ => status.state = .half_open := by
  have seen := inspected b now (relevantKeys b provider model) ⟨none,false,false⟩
  have free (absent : existing b (relevantKeys b provider model) = []) :
      blocked b now (relevantKeys b provider model) = false := by
    simp_all [blocked,existing]
  unfold inspectProviderOverload tryAcquireProviderOverloadProbe getProviderOverloadUntil
  grind [List.isEmpty_iff]

end Clankermux.OverloadBreaker
