import Clankermux.ProbeGate
import Mathlib.Data.Finset.Card

/-! The leases of the recovery-probe gate: what one call does to them, and what follows
for every run over fewer accounts than the gate has room for. -/
namespace Clankermux.RateLimitCooldown
open InsertionMap History

def Call.Completes (lease : RateLimitProbeLease) : Call → Prop
  | .completeRateLimitProbe account _ presented => presented = some lease ∧ account.id = lease.accountId
  | .applyRateLimitCooldown account _ _ reprobe presented =>
    reprobe = false ∧ presented = some lease ∧ account.id = lease.accountId
  | _ => False

theorem evictFew {m} (few : m.length < MAX_PROBE_GATES) : evictOldest m = m := by
  cases m with
  | nil => rfl
  | cons oldest rest => rw [evictOldest,if_neg (Nat.not_le.mpr few)]

structure Held (accounts : Finset String) (g : Gates) : Prop where
  nodup : (keys g.probeLeases).Nodup
  inside : ∀ id ∈ keys g.probeLeases, id ∈ accounts
  own : ∀ id lease, get g.probeLeases id = some lease → lease.accountId = id

variable {accounts : Finset String} {g : Gates}

section
variable (held : Held accounts g)
include held

theorem Held.few : g.probeLeases.length ≤ accounts.card := by
  have distinct : (keys g.probeLeases).toFinset.card = g.probeLeases.length := by
    rw [List.toFinset_card_of_nodup held.nodup,keys,List.length_map]
  rw [← distinct]
  exact Finset.card_le_card (fun id its => held.inside id (List.mem_toFinset.mp its))

section
variable (few : accounts.card < MAX_PROBE_GATES)
include few

theorem Held.pruned (now : Int) :
    pruneProbeLeases g.probeLeases now = g.probeLeases.filter (fun entry => decide (¬ entry.2.leaseUntil ≤ now)) := by
  refine evictFew (Nat.lt_of_le_of_lt ?_ few)
  exact (List.length_filter_le _ _).trans held.few

theorem Held.getPruned (now : Int) (id : String) :
    get (pruneProbeLeases g.probeLeases now) id =
      (get g.probeLeases id).filter (fun lease => decide (¬ lease.leaseUntil ≤ now)) := by
  rw [held.pruned few]
  exact getFilterValues (p := fun lease => decide (¬ lease.leaseUntil ≤ now)) held.nodup

theorem Held.anyPruned (now : Int) (id : String) :
    (get (pruneProbeLeases g.probeLeases now) id).any (fun existing => existing.leaseUntil > now) =
      (get g.probeLeases id).any (fun existing => existing.leaseUntil > now) := by
  rw [held.getPruned few]
  cases get g.probeLeases id with
  | none => rfl
  | some lease =>
    by_cases live : now < lease.leaseUntil
    · simp [live]
    · simp [live]

theorem Held.wouldSuppress (account : Account) (now : Int) :
    wouldSuppressProbe g account now = true ↔ (getRateLimitProbeAdmission g account now false).2 = .suppressed := by
  unfold wouldSuppressProbe getRateLimitProbeAdmission
  dsimp only
  rw [held.anyPruned few]
  by_cases required : (inspectProbeGate g account now).gatingRequired = true
  · by_cases cooling : (inspectProbeGate g account now).coolingDown = true
    · simp [required,cooling]
    · by_cases live : (get g.probeLeases account.id).any (fun existing => existing.leaseUntil > now) = true
      · simp [required,cooling,live]
      · simp [required,cooling,live]
  · simp [required]

end

end

inductive LeaseStep (g : Gates) (call : Call) (answer : Answer) (after : Gates) : Prop where
  | kept (refused : ∀ lease, answer ≠ .admission (.admitted lease))
      (leases : after.probeLeases = g.probeLeases) (identities : after.leaseIdentities = g.leaseIdentities)
  | pruned (now : Int) (at_ : call.time = some now) (refused : ∀ lease, answer ≠ .admission (.admitted lease))
      (leases : after.probeLeases = pruneProbeLeases g.probeLeases now)
      (identities : after.leaseIdentities = g.leaseIdentities)
  | admitted (account : Account) (now : Int) (reprobe : Bool) (lease : RateLimitProbeLease)
      (calls : call = .getRateLimitProbeAdmission account now reprobe)
      (answers : answer = .admission (.admitted lease))
      (its : lease = ⟨g.leaseIdentities,account.id,now + PROBE_LEASE_MS,(g.reservation account.id).map (·.generation)⟩)
      (free : (get (pruneProbeLeases g.probeLeases now) account.id).any (fun existing => existing.leaseUntil > now) = false)
      (lapsed : ((g.reservation account.id).bind (·.cooldownUntil)).getD 0 > now → reprobe = true)
      (leases : after.probeLeases = set (pruneProbeLeases g.probeLeases now) account.id lease)
      (identities : after.leaseIdentities = g.leaseIdentities + 1)
  | released (lease : RateLimitProbeLease) (presents : call.lease = some lease)
      (live : get g.probeLeases call.accountId = some lease)
      (completes : call.accountId = lease.accountId → call.Completes lease)
      (refused : ∀ lease, answer ≠ .admission (.admitted lease))
      (leases : after.probeLeases = delete g.probeLeases call.accountId)
      (identities : after.leaseIdentities = g.leaseIdentities)

theorem releaseLeases (account : Account) (outcome : ProbeOutcome) (lease : RateLimitProbeLease) :
    (releaseProbeLease g account outcome lease).probeLeases = delete g.probeLeases account.id ∧
    (releaseProbeLease g account outcome lease).leaseIdentities = g.leaseIdentities := by
  unfold releaseProbeLease
  dsimp only
  split <;> exact ⟨rfl,rfl⟩

theorem armedLeases (armed : Bool) (id : String) (cooldownUntil : Int) :
    (if armed then armBurstRecoveryProbe g id cooldownUntil else g).probeLeases = g.probeLeases ∧
    (if armed then armBurstRecoveryProbe g id cooldownUntil else g).leaseIdentities = g.leaseIdentities := by
  cases armed <;> exact ⟨rfl,rfl⟩

theorem completeLeases (account : Account) (outcome : ProbeOutcome) (presented : Option RateLimitProbeLease) :
    ((completeRateLimitProbe g account outcome presented).probeLeases = g.probeLeases ∨
      ∃ lease, presented = some lease ∧ get g.probeLeases account.id = some lease ∧
        (completeRateLimitProbe g account outcome presented).probeLeases = delete g.probeLeases account.id) ∧
    (completeRateLimitProbe g account outcome presented).leaseIdentities = g.leaseIdentities := by
  cases presented with
  | none => exact ⟨.inl rfl,rfl⟩
  | some lease =>
    by_cases live : get g.probeLeases account.id = some lease
    · simp only [completeRateLimitProbe,if_pos live]
      obtain ⟨leases,identities⟩ := releaseLeases (g := g) account outcome lease
      exact ⟨.inr ⟨lease,rfl,live,leases⟩,identities⟩
    · have same : completeRateLimitProbe g account outcome (some lease) = g := if_neg live
      rw [same]
      exact ⟨.inl rfl,rfl⟩

theorem cooldownLeases (account : Account) (info : RateLimitInfo) (now : Int) (presented : Option RateLimitProbeLease) :
    (applyRateLimitCooldown g account info now false presented).gates.probeLeases =
      (completeRateLimitProbe g account .cooldown_reapplied presented).probeLeases ∧
    (applyRateLimitCooldown g account info now false presented).gates.leaseIdentities =
      (completeRateLimitProbe g account .cooldown_reapplied presented).leaseIdentities := by
  unfold applyRateLimitCooldown
  simp only [Bool.false_eq_true,if_false]
  split <;> exact armedLeases _ _ _

theorem reprobeGates (account : Account) (info : RateLimitInfo) (now : Int) (presented : Option RateLimitProbeLease) :
    (applyRateLimitCooldown g account info now true presented).gates = g := by
  unfold applyRateLimitCooldown
  simp only [if_true]
  split <;> rfl

theorem rollbackRolled (reservation : CapacityProbeReservation) :
    (rollbackCapacityRestoredProbePending g reservation).capacityGenerationCounter = g.capacityGenerationCounter ∧
    (rollbackCapacityRestoredProbePending g reservation).rolledBack = reservation::g.rolledBack := by
  simp only [rollbackCapacityRestoredProbePending]
  split
  · exact ⟨rfl,rfl⟩
  · split <;> exact ⟨rfl,rfl⟩

theorem rollbackLeases (reservation : CapacityProbeReservation) :
    (rollbackCapacityRestoredProbePending g reservation).probeLeases = g.probeLeases ∧
    (rollbackCapacityRestoredProbePending g reservation).leaseIdentities = g.leaseIdentities := by
  unfold rollbackCapacityRestoredProbePending
  dsimp only
  split
  · exact ⟨rfl,rfl⟩
  · split <;> exact ⟨rfl,rfl⟩

theorem leaseStep (call : Call) : LeaseStep g call (g.after call).2 (g.after call).1 := by
  cases call with
  | getRateLimitProbeAdmission account now reprobe =>
    simp only [Gates.after,getRateLimitProbeAdmission]
    split
    · exact .kept (by simp) rfl rfl
    · split
      · exact .kept (by simp) rfl rfl
      · rename_i cooling
        split
        · exact .pruned now rfl (by simp) rfl rfl
        · rename_i free
          refine .admitted account now reprobe _ rfl rfl rfl (by simpa using free) ?_ rfl rfl
          intro early
          by_contra plain
          exact cooling ⟨by simpa [inspectProbeGate] using early,plain⟩
  | completeRateLimitProbe account outcome presented =>
    obtain ⟨kept | ⟨lease,rfl,live,leases⟩,identities⟩ := completeLeases (g := g) account outcome presented
    · exact .kept (by simp [Gates.after]) kept identities
    · exact .released lease rfl live (fun same => ⟨rfl,same⟩) (by simp [Gates.after]) leases identities
  | applyRateLimitCooldown account info now reprobe presented =>
    cases reprobe with
    | true =>
      have same := reprobeGates (g := g) account info now presented
      exact .kept (by simp [Gates.after]) (congrArg _ same) (congrArg _ same)
    | false =>
      obtain ⟨leases,identities⟩ := cooldownLeases (g := g) account info now presented
      obtain ⟨kept | ⟨lease,rfl,live,deleted⟩,counted⟩ := completeLeases (g := g) account .cooldown_reapplied presented
      · exact .kept (by simp [Gates.after]) (leases.trans kept) (identities.trans counted)
      · exact .released lease rfl live (fun same => ⟨rfl,rfl,same⟩) (by simp [Gates.after]) (leases.trans deleted)
          (identities.trans counted)
  | markCapacityRestoredProbePending accountId => exact .kept (by simp [Gates.after]) rfl rfl
  | rollbackCapacityRestoredProbePending reservation =>
    obtain ⟨leases,identities⟩ := rollbackLeases (g := g) reservation
    exact .kept (by simp [Gates.after]) leases identities
variable {lease : RateLimitProbeLease}

theorem completesGone {call} (completes : call.Completes lease) :
    get (g.after call).1.probeLeases lease.accountId ≠ some lease := by
  have settled (account : Account) (outcome : ProbeOutcome) (own : account.id = lease.accountId) :
      get (completeRateLimitProbe g account outcome (some lease)).probeLeases lease.accountId ≠ some lease := by
    by_cases live : get g.probeLeases account.id = some lease
    · have deleted := (releaseLeases (g := g) account outcome lease).1
      rw [completeRateLimitProbe,if_pos live,deleted,← own,getDeleteSelf]
      simp
    · rw [completeRateLimitProbe,if_neg live,← own]
      exact live
  cases call with
  | completeRateLimitProbe account outcome presented =>
    obtain ⟨rfl,own⟩ := completes
    exact settled account outcome own
  | applyRateLimitCooldown account info now reprobe presented =>
    obtain ⟨rfl,rfl,own⟩ := completes
    have leases := (cooldownLeases (g := g) account info now (some lease)).1
    simp only [Gates.after,leases]
    exact settled account _ own
  | _ => exact completes.elim

structure Custody (accounts : Finset String) (w : World) : Prop where
  held : Held accounts w.gates
  known : ∀ id lease, get w.gates.probeLeases id = some lease → HandedOut w.history lease
  fresh : ∀ lease, HandedOut w.history lease → lease.identity < w.gates.leaseIdentities
  recorded : ∀ account now reprobe lease,
    ⟨.getRateLimitProbeAdmission account now reprobe,.admission (.admitted lease)⟩ ∈ w.history →
      lease.accountId = account.id ∧ lease.leaseUntil = now + PROBE_LEASE_MS
  kept : ∀ first between lease, Since w.history first between → first.answer = .admission (.admitted lease) →
    (∃ e ∈ between, e.call.Completes lease) ∨ lease.leaseUntil ≤ w.clock ∨
      get w.gates.probeLeases lease.accountId = some lease
  gone : ∀ first between lease, Since w.history first between → first.answer = .admission (.admitted lease) →
    (∃ e ∈ between, e.call.Completes lease ∨
      ∃ other, e.answer = .admission (.admitted other) ∧ other.accountId = lease.accountId) →
    get w.gates.probeLeases lease.accountId ≠ some lease

theorem HandedOut.cons {history e} :
    HandedOut (e::history) lease ↔ e.answer = .admission (.admitted lease) ∨ HandedOut history lease := by
  simp [HandedOut]

theorem handedOutSince {history between first}
    (here : Since history first between) (admits : first.answer = .admission (.admitted lease)) :
    HandedOut history lease := ⟨first,here.mem,admits⟩

theorem Held.ofPruned (held : Held accounts g) (few : accounts.card < MAX_PROBE_GATES) {now id}
    (found : get (pruneProbeLeases g.probeLeases now) id = some lease) :
    get g.probeLeases id = some lease ∧ now < lease.leaseUntil := by
  rw [held.getPruned few,Option.filter_eq_some_iff] at found
  exact ⟨found.1,by simpa using found.2⟩

theorem Held.surviving (held : Held accounts g) (few : accounts.card < MAX_PROBE_GATES) (now : Int) {id}
    (found : get g.probeLeases id = some lease) :
    lease.leaseUntil ≤ now ∨ get (pruneProbeLeases g.probeLeases now) id = some lease := by
  rw [held.getPruned few,found]
  by_cases lapsed : lease.leaseUntil ≤ now
  · exact .inl lapsed
  · exact .inr (by simp [Int.not_le.mp lapsed])

theorem Held.prune (held : Held accounts g) (few : accounts.card < MAX_PROBE_GATES) (now : Int) :
    Held accounts { g with probeLeases := pruneProbeLeases g.probeLeases now } where
  nodup := by
    simp only [held.pruned few]
    exact held.nodup.sublist (List.filter_sublist.map _)
  inside id its := by
    simp only [held.pruned few] at its
    exact held.inside id ((List.filter_sublist.map _).subset its)
  own id lease found := held.own id lease (held.ofPruned few found).1

theorem Held.step {call} (held : Held accounts g) (few : accounts.card < MAX_PROBE_GATES)
    (inside : call.accountId ∈ accounts) : Held accounts (g.after call).1 := by
  cases leaseStep (g := g) call with
  | kept _ leases _ => exact ⟨leases ▸ held.nodup,leases ▸ held.inside,leases ▸ held.own⟩
  | pruned now _ _ leases _ =>
    have pruned := held.prune few now
    exact ⟨leases ▸ pruned.nodup,leases ▸ pruned.inside,leases ▸ pruned.own⟩
  | admitted account now reprobe lease calls _ its _ _ leases _ =>
    subst calls
    have pruned := held.prune few now
    refine ⟨?_,?_,?_⟩
    · rw [leases,keysSet]
      split
      · exact pruned.nodup
      · rename_i new
        exact List.nodup_append.mpr ⟨pruned.nodup,by simp,by rintro id its other same rfl; simp_all⟩
    · rw [leases,keysSet]
      intro id its
      split at its
      · exact pruned.inside id its
      · rcases List.mem_append.mp its with old | new
        · exact pruned.inside id old
        · exact List.mem_singleton.mp new ▸ inside
    · rw [leases]
      intro id other found
      rw [getSet] at found
      split at found
      · rename_i same
        cases found
        rw [its,same]
      · exact pruned.own id other found
  | released lease _ _ _ _ leases _ =>
    refine ⟨?_,?_,?_⟩
    · rw [leases,deleteEqFilter]
      exact held.nodup.sublist (List.filter_sublist.map _)
    · rw [leases]
      exact fun id its => held.inside id (memKeysDelete.mp its).1
    · rw [leases]
      intro id other found
      rw [getDelete] at found
      split at found
      · cases found
      · exact held.own id other found

variable {w after : World} {call : Call}

theorem stepCases (step : w.step call = some after) :
    (∀ now ∈ call.time, w.clock ≤ now) ∧ call.Presentable w.history ∧
      after = ⟨(w.gates.after call).1,call.time.getD w.clock,⟨call,(w.gates.after call).2⟩::w.history⟩ := by
  unfold World.step at step
  split at step
  · rename_i allowed
    exact ⟨allowed.1,allowed.2,(Option.some.inj step).symm⟩
  · cases step

theorem clockForward (later : ∀ now ∈ call.time, w.clock ≤ now) : w.clock ≤ call.time.getD w.clock := by
  cases at_ : call.time with
  | none => exact le_rfl
  | some now => exact later now at_

theorem Custody.knownAfter (custody : Custody accounts w) (few : accounts.card < MAX_PROBE_GATES) (id : String)
    (lease : RateLimitProbeLease) (found : get (w.gates.after call).1.probeLeases id = some lease) :
    HandedOut (⟨call,(w.gates.after call).2⟩::w.history) lease := by
  rw [HandedOut.cons]
  cases leaseStep (g := w.gates) call with
  | kept _ leases _ => exact .inr (custody.known id lease (leases ▸ found))
  | pruned now _ _ leases _ => exact .inr (custody.known id lease (custody.held.ofPruned few (leases ▸ found)).1)
  | admitted account now reprobe given _ answers _ _ _ leases _ =>
    rw [leases,getSet] at found
    split at found
    · exact .inl (by rw [answers,Option.some.inj found])
    · exact .inr (custody.known id lease (custody.held.ofPruned few found).1)
  | released given _ _ _ _ leases _ =>
    rw [leases,getDelete] at found
    split at found
    · cases found
    · exact .inr (custody.known id lease found)

theorem admissionGiven (answers : (g.after call).2 = .admission (.admitted lease)) :
    ∃ account now reprobe, call = .getRateLimitProbeAdmission account now reprobe ∧
      lease = ⟨g.leaseIdentities,account.id,now + PROBE_LEASE_MS,(g.reservation account.id).map (·.generation)⟩ ∧
      get (g.after call).1.probeLeases account.id = some lease ∧
      (g.after call).1.leaseIdentities = g.leaseIdentities + 1 := by
  cases leaseStep (g := g) call with
  | kept refused _ _ => exact absurd answers (refused lease)
  | pruned now _ refused _ _ => exact absurd answers (refused lease)
  | released given _ _ _ refused _ _ => exact absurd answers (refused lease)
  | admitted account now reprobe given calls answers' its _ _ leases identities =>
    cases answers'.symm.trans answers
    exact ⟨account,now,reprobe,calls,its,by rw [leases,getSetSelf],identities⟩

section
variable (custody : Custody accounts w)
include custody

theorem Custody.freshAfter (lease : RateLimitProbeLease)
    (handed : HandedOut (⟨call,(w.gates.after call).2⟩::w.history) lease) :
    lease.identity < (w.gates.after call).1.leaseIdentities := by
  rcases HandedOut.cons.mp handed with new | old
  · obtain ⟨_,_,_,_,its,_,identities⟩ := admissionGiven new
    rw [identities,its]
    exact Nat.lt_succ_self _
  · have before := custody.fresh lease old
    cases leaseStep (g := w.gates) call with
    | kept _ _ identities => exact identities ▸ before
    | pruned _ _ _ _ identities => exact identities ▸ before
    | released _ _ _ _ _ _ identities => exact identities ▸ before
    | admitted _ _ _ _ _ _ _ _ _ _ identities => exact identities ▸ Nat.lt_succ_of_lt before

theorem Custody.keptAfter (few : accounts.card < MAX_PROBE_GATES)
    (live : get w.gates.probeLeases lease.accountId = some lease) :
    call.Completes lease ∨ lease.leaseUntil ≤ call.time.getD w.clock ∨
      get (w.gates.after call).1.probeLeases lease.accountId = some lease := by
  cases leaseStep (g := w.gates) call with
  | kept _ leases _ => exact .inr (.inr (leases ▸ live))
  | pruned now at_ _ leases _ =>
    rcases custody.held.surviving few now live with lapsed | live
    · exact .inr (.inl (by simpa [at_] using lapsed))
    · exact .inr (.inr (leases ▸ live))
  | admitted account now reprobe given calls _ _ free _ leases _ =>
    rcases custody.held.surviving few now live with lapsed | live
    · exact .inr (.inl (by simpa [calls,Call.time] using lapsed))
    · by_cases same : lease.accountId = account.id
      · rw [same] at live
        rw [live] at free
        exact .inr (.inl (by simpa [calls,Call.time] using free))
      · exact .inr (.inr (by rw [leases,getSetOther same]; exact live))
  | released given _ found completes _ leases _ =>
    by_cases same : call.accountId = lease.accountId
    · rw [same,live] at found
      cases found
      exact .inl (completes same)
    · exact .inr (.inr (by rw [leases,getDeleteOther (Ne.symm same)]; exact live))

theorem Custody.goneAfter (few : accounts.card < MAX_PROBE_GATES)
    (handed : HandedOut w.history lease) {id}
    (absent : get w.gates.probeLeases id ≠ some lease) : get (w.gates.after call).1.probeLeases id ≠ some lease := by
  cases leaseStep (g := w.gates) call with
  | kept _ leases _ => exact leases ▸ absent
  | pruned now _ _ leases _ => exact leases ▸ fun found => absent (custody.held.ofPruned few found).1
  | admitted account now reprobe given _ _ its _ _ leases _ =>
    rw [leases,getSet]
    split
    · rintro ⟨⟩
      have old := custody.fresh _ handed
      rw [its] at old
      exact Nat.lt_irrefl _ old
    · exact fun found => absent (custody.held.ofPruned few found).1
  | released given _ _ _ _ leases _ =>
    rw [leases,getDelete]
    split
    · simp
    · exact absent

theorem Custody.step (few : accounts.card < MAX_PROBE_GATES)
    (inside : call.accountId ∈ accounts) (step : w.step call = some after) : Custody accounts after := by
  obtain ⟨later,presentable,rfl⟩ := stepCases step
  have forward := clockForward later
  refine ⟨custody.held.step few inside,custody.knownAfter few,custody.freshAfter,?_,?_,?_⟩
  · intro account now reprobe lease its
    rcases List.mem_cons.mp its with new | old
    · obtain ⟨calls,answers⟩ := Happened.mk.inj new
      obtain ⟨_,_,_,made,its,_,_⟩ := admissionGiven answers.symm
      cases calls.trans made
      exact ⟨by rw [its],by rw [its]⟩
    · exact custody.recorded account now reprobe lease old
  · intro first between lease here admits
    rcases sinceCons.mp here with ⟨rfl,rfl⟩ | ⟨rest,rfl,past⟩
    · obtain ⟨account,_,_,_,its,live,_⟩ := admissionGiven admits
      have own : lease.accountId = account.id := by rw [its]
      exact .inr (.inr (by rw [own]; exact live))
    · rcases custody.kept first rest lease past admits with ⟨e,old,completes⟩ | lapsed | live
      · exact .inl ⟨e,.tail _ old,completes⟩
      · exact .inr (.inl (lapsed.trans forward))
      · exact (custody.keptAfter few live).imp (fun completes => ⟨_,.head _,completes⟩) id
  · intro first between lease here admits settled
    obtain ⟨e,its,settles⟩ := settled
    rcases sinceCons.mp here with ⟨rfl,rfl⟩ | ⟨rest,rfl,past⟩
    · cases its
    · have handed := handedOutSince past admits
      rcases List.mem_cons.mp its with rfl | old
      · rcases settles with completes | ⟨other,answers,own⟩
        · exact completesGone completes
        · obtain ⟨account,_,_,_,made,live,_⟩ := admissionGiven answers
          have same : other.accountId = account.id := by rw [made]
          rw [← own,same]
          intro found
          cases live.symm.trans found
          have old := custody.fresh _ handed
          rw [made] at old
          exact Nat.lt_irrefl _ old
      · exact custody.goneAfter few handed (custody.gone first rest lease past admits ⟨e,old,settles⟩)

end

theorem custodyStart (start : gateMachine.init w) : Custody accounts w := by
  obtain ⟨gates,history⟩ := start
  refine ⟨?_,?_,?_,?_,?_,?_⟩
  · rw [gates]
    exact ⟨List.nodup_nil,by simp [Gates.empty,keys],by simp [Gates.empty]⟩
  · rw [gates]
    simp [Gates.empty]
  · rw [history]
    simp [HandedOut]
  · rw [history]
    simp
  · rw [history]
    exact fun _ _ _ here => absurd here notSinceNil
  · rw [history]
    exact fun _ _ _ here => absurd here notSinceNil

theorem reachableCustody (few : accounts.card < MAX_PROBE_GATES)
    (reach : gateMachine.ReachableUnder (fun _ call => call.accountId ∈ accounts) w) : Custody accounts w :=
  reach.invariant (fun _ => custodyStart) (fun _ _ _ custody inside step => custody.step few inside step)

end Clankermux.RateLimitCooldown
