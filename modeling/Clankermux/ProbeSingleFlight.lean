import Clankermux.ProbeLeases

/-! The markers of the recovery-probe gate over whole runs, and the single-flight
property of the gate. A marker is followed through its slot: while the reservation a probe
was admitted under is in the slot, whatever took the slot since that admission is in front
of it or was rolled back. -/
namespace Clankermux.RateLimitCooldown
open InsertionMap History

def Call.Arms (id : String) : Call → Prop
  | .applyRateLimitCooldown account info _ reprobe _ =>
    account.id = id ∧ reprobe = false ∧ info.reason = some .model_fallback_429 ∧ isOAuthAnthropicAccount account = true
  | _ => False

def generations (slot : List CapacityProbeReservation) : List Nat := slot.map (·.generation)

variable {g after : Gates} {call : Call} {accounts : Finset String}

theorem setPendingSelf (id : String) (slot : List CapacityProbeReservation) :
    (g.setPending id slot).capacityRestoredPending id = slot := by simp [Gates.setPending]

theorem setPendingOther {id other} (slot : List CapacityProbeReservation) (ne : other ≠ id) :
    (g.setPending id slot).capacityRestoredPending other = g.capacityRestoredPending other := by
  simp [Gates.setPending,ne]

inductive MarkerStep (g : Gates) (call : Call) (answer : Answer) (after : Gates) : Prop where
  | kept (none_ : ∀ reservation, answer ≠ .reservation reservation) (quiet : ∀ id, ¬ call.Arms id)
      (slots : after.capacityRestoredPending = g.capacityRestoredPending)
      (rolled : after.rolledBack = g.rolledBack) (counter : after.capacityGenerationCounter = g.capacityGenerationCounter)
  | marked (id : String) (reservation : CapacityProbeReservation) (answers : answer = .reservation reservation)
      (quiet : ∀ id, ¬ call.Arms id) (own : reservation.accountId = id)
      (next : reservation.generation = g.capacityGenerationCounter + 1)
      (slots : after.capacityRestoredPending =
        (g.setPending id (reservation::g.capacityRestoredPending id)).capacityRestoredPending)
      (rolled : after.rolledBack = g.rolledBack)
      (counter : after.capacityGenerationCounter = g.capacityGenerationCounter + 1)
  | armed (id : String) (node : CapacityProbeReservation) (none_ : ∀ reservation, answer ≠ .reservation reservation)
      (only : ∀ other, call.Arms other → other = id) (next : node.generation = g.capacityGenerationCounter + 1)
      (slots : after.capacityRestoredPending = (g.setPending id [node]).capacityRestoredPending)
      (rolled : after.rolledBack = g.rolledBack)
      (counter : after.capacityGenerationCounter = g.capacityGenerationCounter + 1)
  | rolledBack (reservation : CapacityProbeReservation) (none_ : ∀ reservation, answer ≠ .reservation reservation)
      (calls : call = .rollbackCapacityRestoredProbePending reservation)
      (slots : after.capacityRestoredPending = g.capacityRestoredPending ∨
        ∃ previous, g.capacityRestoredPending reservation.accountId = reservation::previous ∧
          after.capacityRestoredPending = (g.setPending reservation.accountId
            (firstLiveReservation (reservation::g.rolledBack) previous)).capacityRestoredPending)
      (rolled : after.rolledBack = reservation::g.rolledBack)
      (counter : after.capacityGenerationCounter = g.capacityGenerationCounter)
  | recovered (account : Account) (lease : RateLimitProbeLease) (none_ : ∀ reservation, answer ≠ .reservation reservation)
      (calls : call = .completeRateLimitProbe account .recovered (some lease))
      (live : get g.probeLeases account.id = some lease)
      (slots : after.capacityRestoredPending = (g.setPending account.id []).capacityRestoredPending)
      (rolled : after.rolledBack = g.rolledBack) (counter : after.capacityGenerationCounter = g.capacityGenerationCounter)

theorem admissionMarkers (account : Account) (now : Int) (reprobe : Bool) :
    (getRateLimitProbeAdmission g account now reprobe).1.capacityRestoredPending = g.capacityRestoredPending ∧
    (getRateLimitProbeAdmission g account now reprobe).1.rolledBack = g.rolledBack ∧
    (getRateLimitProbeAdmission g account now reprobe).1.capacityGenerationCounter = g.capacityGenerationCounter := by
  unfold getRateLimitProbeAdmission
  dsimp only
  split
  · exact ⟨rfl,rfl,rfl⟩
  · split
    · exact ⟨rfl,rfl,rfl⟩
    · split <;> exact ⟨rfl,rfl,rfl⟩

theorem completionMarkers (account : Account) (outcome : ProbeOutcome) (presented : Option RateLimitProbeLease) :
    ((completeRateLimitProbe g account outcome presented).capacityRestoredPending = g.capacityRestoredPending ∨
      ∃ lease generation, presented = some lease ∧ outcome = .recovered ∧ get g.probeLeases account.id = some lease ∧
        lease.capacityGeneration = some generation ∧
        (g.reservation account.id).map (·.generation) = some generation ∧
        (completeRateLimitProbe g account outcome presented).capacityRestoredPending =
          (g.setPending account.id []).capacityRestoredPending) ∧
    (completeRateLimitProbe g account outcome presented).rolledBack = g.rolledBack ∧
    (completeRateLimitProbe g account outcome presented).capacityGenerationCounter = g.capacityGenerationCounter := by
  cases presented with
  | none => exact ⟨.inl rfl,rfl,rfl⟩
  | some lease =>
    by_cases live : get g.probeLeases account.id = some lease
    · simp only [completeRateLimitProbe,if_pos live,releaseProbeLease]
      split
      · rename_i recovers
        obtain ⟨rfl,some_,same⟩ := recovers
        obtain ⟨generation,its⟩ := Option.ne_none_iff_exists'.mp some_
        exact ⟨.inr ⟨lease,generation,rfl,rfl,live,its,same.trans its,rfl⟩,rfl,rfl⟩
      · exact ⟨.inl rfl,rfl,rfl⟩
    · have same : completeRateLimitProbe g account outcome (some lease) = g := if_neg live
      rw [same]
      exact ⟨.inl rfl,rfl,rfl⟩

theorem cooldownMarkers (account : Account) (info : RateLimitInfo) (now : Int) (presented : Option RateLimitProbeLease) :
    ∃ cooldownUntil, (applyRateLimitCooldown g account info now false presented).gates =
      if info.reason = some .model_fallback_429 ∧ isOAuthAnthropicAccount account = true then
        armBurstRecoveryProbe (completeRateLimitProbe g account .cooldown_reapplied presented) account.id cooldownUntil
      else completeRateLimitProbe g account .cooldown_reapplied presented := by
  have arms (touched : Account) (its : isOAuthAnthropicAccount touched = isOAuthAnthropicAccount account)
      (fallback : RateLimitReason) (other : fallback ≠ .model_fallback_429) :
      armsBurstProbe touched (info.reason.getD fallback) = true ↔
        info.reason = some .model_fallback_429 ∧ isOAuthAnthropicAccount account = true := by
    unfold armsBurstProbe
    cases info.reason with
    | none => simp [other]
    | some reason => simp [its]
  unfold applyRateLimitCooldown
  simp only [Bool.false_eq_true,if_false]
  split
  · rename_i reset _
    exact ⟨reset,if_congr (arms _ rfl .upstream_429_with_reset (by simp)) rfl rfl⟩
  · have other : (if (truthy info.resetTime).isSome = true then RateLimitReason.upstream_429_with_reset
        else .upstream_429_no_reset_probe_cooldown) ≠ .model_fallback_429 := by split <;> simp
    exact ⟨_,if_congr (arms _ rfl _ other) rfl rfl⟩

theorem markerStep (call : Call) : MarkerStep g call (g.after call).2 (g.after call).1 := by
  cases call with
  | getRateLimitProbeAdmission account now reprobe =>
    obtain ⟨slots,rolled,counter⟩ := admissionMarkers (g := g) account now reprobe
    exact .kept (by simp [Gates.after]) (by simp [Call.Arms]) slots rolled counter
  | completeRateLimitProbe account outcome presented =>
    obtain ⟨slots | ⟨lease,_,rfl,rfl,live,_,_,slots⟩,rolled,counter⟩ := completionMarkers (g := g) account outcome presented
    · exact .kept (by simp [Gates.after]) (by simp [Call.Arms]) slots rolled counter
    · exact .recovered account lease (by simp [Gates.after]) rfl live slots rolled counter
  | applyRateLimitCooldown account info now reprobe presented =>
    cases reprobe with
    | true =>
      have same := reprobeGates (g := g) account info now presented
      exact .kept (by simp [Gates.after]) (by simp [Call.Arms]) (congrArg _ same) (congrArg _ same) (congrArg _ same)
    | false =>
      obtain ⟨cooldownUntil,gates⟩ := cooldownMarkers (g := g) account info now presented
      obtain ⟨slots | ⟨_,_,_,impossible,_⟩,rolled,counter⟩ :=
        completionMarkers (g := g) account .cooldown_reapplied presented
      · by_cases armed : info.reason = some .model_fallback_429 ∧ isOAuthAnthropicAccount account = true
        · rw [if_pos armed] at gates
          refine .armed account.id ⟨account.id,g.capacityGenerationCounter + 1,some cooldownUntil⟩ (by simp [Gates.after])
            (fun other its => its.1.symm) rfl ?_ ?_ ?_
          · simp only [Gates.after,gates,armBurstRecoveryProbe,Gates.setPending,slots,counter]
          · exact (congrArg _ gates).trans rolled
          · simp only [Gates.after,gates,armBurstRecoveryProbe,counter]
        · rw [if_neg armed] at gates
          refine .kept (by simp [Gates.after]) (fun id its => armed ⟨its.2.2.1,its.2.2.2⟩) ?_ ?_ ?_
          · exact (congrArg _ gates).trans slots
          · exact (congrArg _ gates).trans rolled
          · exact (congrArg _ gates).trans counter
      · cases impossible
  | markCapacityRestoredProbePending accountId =>
    exact .marked accountId _ rfl (by simp [Call.Arms]) rfl rfl rfl rfl rfl
  | rollbackCapacityRestoredProbePending reservation =>
    simp only [Gates.after,rollbackCapacityRestoredProbePending]
    split
    · exact .rolledBack reservation (by simp) rfl (.inl rfl) rfl rfl
    · rename_i owner previous slot
      split
      · rename_i same
        subst same
        exact .rolledBack owner (by simp) rfl (.inr ⟨previous,slot,rfl⟩) rfl rfl
      · exact .rolledBack reservation (by simp) rfl (.inl rfl) rfl rfl

def Descending (slot : List CapacityProbeReservation) : Prop := (generations slot).Pairwise (· > ·)

structure Marked (w : World) : Prop where
  descending : ∀ id, Descending (w.gates.capacityRestoredPending id)
  counted : ∀ id, ∀ node ∈ w.gates.capacityRestoredPending id, node.generation ≤ w.gates.capacityGenerationCounter
  rolled : ∀ reservation ∈ w.gates.rolledBack,
    ∃ e ∈ w.history, e.call = .rollbackCapacityRestoredProbePending reservation
  admitted : ∀ lease generation, HandedOut w.history lease → lease.capacityGeneration = some generation →
    generation ≤ w.gates.capacityGenerationCounter
  armings : ∀ first between lease generation, Since w.history first between →
    first.answer = .admission (.admitted lease) → lease.capacityGeneration = some generation →
    ∀ e ∈ between, e.call.Arms lease.accountId →
      generation ∉ generations (w.gates.capacityRestoredPending lease.accountId)
  newer : ∀ first between lease generation, Since w.history first between →
    first.answer = .admission (.admitted lease) → lease.capacityGeneration = some generation →
    ∀ e ∈ between, ∀ reservation, e.answer = .reservation reservation → reservation.accountId = lease.accountId →
      generation < reservation.generation ∧
      (reservation ∈ w.gates.capacityRestoredPending lease.accountId ∨ reservation ∈ w.gates.rolledBack ∨
        generation ∉ generations (w.gates.capacityRestoredPending lease.accountId))

theorem liveSuffix (rolledBack slot : List CapacityProbeReservation) : firstLiveReservation rolledBack slot <:+ slot :=
  List.dropWhile_suffix _

theorem liveOrRolled {rolledBack slot node}
    (inside : node ∈ slot) : node ∈ firstLiveReservation rolledBack slot ∨ node ∈ rolledBack := by
  induction slot with
  | nil => cases inside
  | cons head rest ih =>
    by_cases rolled : head ∈ rolledBack
    · rcases List.mem_cons.mp inside with rfl | inside
      · exact .inr rolled
      · simpa [firstLiveReservation,rolled] using ih inside
    · exact .inl (by simpa [firstLiveReservation,rolled] using inside)

structure SlotsKept (g after : Gates) : Prop where
  descending : (∀ id, Descending (g.capacityRestoredPending id)) →
    (∀ id, ∀ node ∈ g.capacityRestoredPending id, node.generation ≤ g.capacityGenerationCounter) →
    ∀ id, Descending (after.capacityRestoredPending id) ∧
      ∀ node ∈ after.capacityRestoredPending id, node.generation ≤ after.capacityGenerationCounter
  counter : g.capacityGenerationCounter ≤ after.capacityGenerationCounter
  absent : ∀ id generation, generation ≤ g.capacityGenerationCounter →
    generation ∉ generations (g.capacityRestoredPending id) → generation ∉ generations (after.capacityRestoredPending id)
  rolled : ∀ reservation ∈ g.rolledBack, reservation ∈ after.rolledBack
  inside : ∀ id node, node ∈ g.capacityRestoredPending id →
    node ∈ after.capacityRestoredPending id ∨ node ∈ after.rolledBack ∨
      ∀ generation ≤ g.capacityGenerationCounter, generation ∉ generations (after.capacityRestoredPending id)

theorem SlotsKept.refl (rolled : after.rolledBack = g.rolledBack)
    (slots : after.capacityRestoredPending = g.capacityRestoredPending)
    (counter : after.capacityGenerationCounter = g.capacityGenerationCounter) : SlotsKept g after where
  descending descending counted id := by
    rw [slots,counter]
    exact ⟨descending id,counted id⟩
  counter := Nat.le_of_eq counter.symm
  absent _ _ _ absent := by
    rw [slots]
    exact absent
  rolled _ its := by
    rw [rolled]
    exact its
  inside _ _ its := by
    rw [slots]
    exact .inl its

theorem SlotsKept.ofSlot {id slot}
    (slots : after.capacityRestoredPending = (g.setPending id slot).capacityRestoredPending)
    (counter : g.capacityGenerationCounter ≤ after.capacityGenerationCounter)
    (rolled : ∀ reservation ∈ g.rolledBack, reservation ∈ after.rolledBack)
    (descending : Descending (g.capacityRestoredPending id) →
      (∀ node ∈ g.capacityRestoredPending id, node.generation ≤ g.capacityGenerationCounter) →
      Descending slot ∧ ∀ node ∈ slot, node.generation ≤ after.capacityGenerationCounter)
    (absent : ∀ generation ≤ g.capacityGenerationCounter,
      generation ∉ generations (g.capacityRestoredPending id) → generation ∉ generations slot)
    (inside : ∀ node ∈ g.capacityRestoredPending id, node ∈ slot ∨ node ∈ after.rolledBack ∨
      ∀ generation ≤ g.capacityGenerationCounter, generation ∉ generations slot) : SlotsKept g after where
  descending sorted counted other := by
    rw [slots]
    by_cases same : other = id
    · rw [same,setPendingSelf]
      exact descending (sorted id) (counted id)
    · rw [setPendingOther _ same]
      exact ⟨sorted other,fun node its => (counted other node its).trans counter⟩
  counter := counter
  absent other generation below out := by
    rw [slots]
    by_cases same : other = id
    · rw [same] at out ⊢
      rw [setPendingSelf]
      exact absent generation below out
    · rw [setPendingOther _ same]
      exact out
  rolled := rolled
  inside other node its := by
    rw [slots]
    by_cases same : other = id
    · rw [same] at its ⊢
      rw [setPendingSelf]
      exact inside node its
    · rw [setPendingOther _ same]
      exact .inl its

theorem slotsKept (call : Call) : SlotsKept g (g.after call).1 := by
  cases markerStep (g := g) call with
  | kept _ _ slots rolled counter => exact .refl rolled slots counter
  | marked id reservation _ _ _ next slots rolled counter =>
    refine .ofSlot slots (by omega) (fun _ its => rolled ▸ its) ?_ ?_ (fun node its => .inl (.tail _ its))
    · intro descending counted
      rw [counter]
      constructor
      · refine List.pairwise_cons.mpr ⟨?_,descending⟩
        intro generation its
        obtain ⟨node,inside,rfl⟩ := List.mem_map.mp its
        have := counted node inside
        show node.generation < reservation.generation
        omega
      · intro node its
        rcases List.mem_cons.mp its with rfl | old
        · omega
        · exact (counted node old).trans (Nat.le_succ _)
    · intro generation below absent its
      rcases List.mem_cons.mp its with new | old
      · have : generation = reservation.generation := new
        omega
      · exact absent old
  | armed id node _ _ next slots rolled counter =>
    have fresh : ∀ generation ≤ g.capacityGenerationCounter, generation ∉ generations [node] := by
      intro generation below its
      have : generation = node.generation := List.mem_singleton.mp its
      omega
    refine .ofSlot slots (by omega) (fun _ its => rolled ▸ its) ?_ (fun generation below _ => fresh generation below)
      (fun _ _ => .inr (.inr fresh))
    intro _ _
    rw [counter]
    exact ⟨List.pairwise_singleton _ _,by simp [next]⟩
  | rolledBack reservation _ _ slots rolled counter =>
    have kept : ∀ old ∈ g.rolledBack, old ∈ (g.after call).1.rolledBack := by
      rw [rolled]
      exact fun _ its => .tail _ its
    rcases slots with slots | ⟨previous,owned,slots⟩
    · refine ⟨fun descending counted id => ?_,Nat.le_of_eq counter.symm,?_,kept,?_⟩
      · rw [slots,counter]
        exact ⟨descending id,counted id⟩
      · rw [slots]
        exact fun _ _ _ absent => absent
      · rw [slots]
        exact fun _ _ its => .inl its
    · have suffix : firstLiveReservation (reservation::g.rolledBack) previous <:+
          g.capacityRestoredPending reservation.accountId := by
        rw [owned]
        exact (liveSuffix _ _).trans (List.suffix_cons _ _)
      refine .ofSlot slots (Nat.le_of_eq counter.symm) kept ?_ ?_ ?_
      · intro descending counted
        rw [counter]
        exact ⟨descending.sublist (suffix.sublist.map _),fun node its => counted node (suffix.subset its)⟩
      · exact fun generation _ absent its => absent ((suffix.sublist.map _).subset its)
      · intro node its
        rw [rolled]
        rw [owned] at its
        rcases List.mem_cons.mp its with rfl | deeper
        · exact .inr (.inl (.head _))
        · exact (liveOrRolled deeper).imp id .inl
  | recovered account lease _ _ _ slots rolled counter =>
    exact .ofSlot slots (Nat.le_of_eq counter.symm) (fun _ its => rolled ▸ its)
      (fun _ _ => ⟨List.Pairwise.nil,by simp⟩) (by simp [generations]) (fun _ _ => .inr (.inr (by simp [generations])))

variable {w after : World}

theorem Marked.step (marked : Marked w) (step : w.step call = some after) : Marked after := by
  obtain ⟨_,_,rfl⟩ := stepCases step
  have kept := slotsKept (g := w.gates) call
  have sorted := kept.descending marked.descending marked.counted
  refine ⟨fun id => (sorted id).1,fun id => (sorted id).2,?_,?_,?_,?_⟩
  · intro reservation its
    cases markerStep (g := w.gates) call with
    | rolledBack taken _ calls _ rolled _ =>
      rw [rolled] at its
      rcases List.mem_cons.mp its with rfl | old
      · exact ⟨_,.head _,calls⟩
      · obtain ⟨e,inside,calls⟩ := marked.rolled reservation old
        exact ⟨e,.tail _ inside,calls⟩
    | _ =>
      rename_i rolled _
      rw [rolled] at its
      obtain ⟨e,inside,calls⟩ := marked.rolled reservation its
      exact ⟨e,.tail _ inside,calls⟩
  · intro lease generation handed its
    rcases HandedOut.cons.mp handed with new | old
    · obtain ⟨account,_,_,_,made,_,_⟩ := admissionGiven new
      rw [made] at its
      obtain ⟨node,owner,rfl⟩ := Option.map_eq_some_iff.mp its
      exact (marked.counted _ node (List.mem_of_mem_head? owner)).trans kept.counter
    · exact (marked.admitted lease generation old its).trans kept.counter
  · intro first between lease generation here admits its e inside arms
    rcases sinceCons.mp here with ⟨rfl,rfl⟩ | ⟨rest,rfl,past⟩
    · cases inside
    · have below := marked.admitted lease generation (handedOutSince past admits) its
      rcases List.mem_cons.mp inside with rfl | old
      · cases markerStep (g := w.gates) call with
        | kept _ quiet _ _ _ => exact absurd arms (quiet _)
        | marked _ _ _ quiet _ _ _ _ _ => exact absurd arms (quiet _)
        | armed id node _ only next slots _ _ =>
          rw [slots,only _ arms,setPendingSelf]
          intro its
          have : generation = node.generation := List.mem_singleton.mp its
          omega
        | rolledBack _ _ calls _ _ _ => rw [show call = _ from calls] at arms; exact arms.elim
        | recovered _ _ _ calls _ _ _ _ => rw [show call = _ from calls] at arms; exact arms.elim
      · exact kept.absent _ generation below (marked.armings first rest lease generation past admits its e old arms)
  · intro first between lease generation here admits its e inside reservation answers own
    rcases sinceCons.mp here with ⟨rfl,rfl⟩ | ⟨rest,rfl,past⟩
    · cases inside
    · have below := marked.admitted lease generation (handedOutSince past admits) its
      rcases List.mem_cons.mp inside with rfl | old
      · cases markerStep (g := w.gates) call with
        | marked id given answers' _ its' next slots _ _ =>
          cases answers'.symm.trans answers
          refine ⟨by omega,.inl ?_⟩
          rw [slots,← own,its',setPendingSelf]
          exact .head _
        | kept none_ _ _ _ _ => exact absurd answers (none_ _)
        | armed _ _ none_ _ _ _ _ _ => exact absurd answers (none_ _)
        | rolledBack _ none_ _ _ _ _ => exact absurd answers (none_ _)
        | recovered _ _ none_ _ _ _ _ _ => exact absurd answers (none_ _)
      · obtain ⟨newer,placed⟩ := marked.newer first rest lease generation past admits its e old reservation answers own
        refine ⟨newer,?_⟩
        rcases placed with inside | rolled | absent
        · exact (kept.inside _ reservation inside).imp id (Or.imp id (fun all => all generation below))
        · exact .inr (.inl (kept.rolled _ rolled))
        · exact .inr (.inr (kept.absent _ generation below absent))

theorem markedStart (start : gateMachine.init w) : Marked w := by
  obtain ⟨gates,history⟩ := start
  refine ⟨?_,?_,?_,?_,?_,?_⟩
  · rw [gates]
    exact fun _ => List.Pairwise.nil
  · rw [gates]
    simp [Gates.empty]
  · rw [gates]
    simp [Gates.empty]
  · rw [history]
    simp [HandedOut]
  · rw [history]
    exact fun _ _ _ _ here => absurd here notSinceNil
  · rw [history]
    exact fun _ _ _ _ here => absurd here notSinceNil

theorem reachableMarked {ok} (reach : gateMachine.ReachableUnder ok w) : Marked w :=
  reach.invariant (fun _ => markedStart) (fun _ _ _ marked _ step => marked.step step)

def Removes (g : Gates) (account : Account) (lease : RateLimitProbeLease) : Prop :=
  g.reservation account.id ≠ none ∧
    (completeRateLimitProbe g account .recovered (some lease)).reservation account.id = none

def RemovesUndisturbed (w : World) : Prop :=
  ∀ first between account lease, Since w.history first between → first.answer = .admission (.admitted lease) →
    Removes w.gates account lease →
    ∀ e ∈ between, ¬ e.call.Arms account.id ∧ e.call ≠ .markCapacityRestoredProbePending account.id

structure SingleFlight (w : World) : Prop where
  spaced : ∀ earlier at_ again first between account now reprobe gates lease,
    Since w.history ⟨.getRateLimitProbeAdmission earlier at_ again,.admission (.admitted first)⟩ between →
    earlier.id = account.id → w.clock ≤ now →
    getRateLimitProbeAdmission w.gates account now reprobe = (gates,.admitted lease) →
    (∃ e ∈ between, e.call.Completes first) ∨ at_ + PROBE_LEASE_MS ≤ now
  owner : ∀ account outcome lease, get w.gates.probeLeases account.id ≠ some lease →
    completeRateLimitProbe w.gates account outcome (some lease) = w.gates
  settled : ∀ first between account outcome lease, Since w.history first between →
    first.answer = .admission (.admitted lease) →
    (∃ e ∈ between, e.call.Completes lease ∨
      ∃ other, e.answer = .admission (.admitted other) ∧ other.accountId = lease.accountId) →
    completeRateLimitProbe w.gates account outcome (some lease) = w.gates
  idempotent : ∀ account outcome again lease,
    completeRateLimitProbe (completeRateLimitProbe w.gates account outcome lease) account again lease =
      completeRateLimitProbe w.gates account outcome lease
  recovered : ∀ first between account lease, Since w.history first between → first.answer = .admission (.admitted lease) →
    Removes w.gates account lease →
    (∀ e ∈ between, ¬ e.call.Arms account.id) ∧
    ∀ e ∈ between, ∀ reservation, e.answer = .reservation reservation → reservation.accountId = account.id →
      ∃ undone ∈ w.history, undone.call = .rollbackCapacityRestoredProbePending reservation
  cooled : ∀ account now gates lease reservation cooldownUntil,
    getRateLimitProbeAdmission w.gates account now false = (gates,.admitted lease) →
    w.gates.reservation account.id = some reservation → reservation.cooldownUntil = some cooldownUntil → cooldownUntil ≤ now
  predicted : ∀ account now,
    wouldSuppressProbe w.gates account now = true ↔ (getRateLimitProbeAdmission w.gates account now false).2 = .suppressed
variable {lease : RateLimitProbeLease} {account : Account}

theorem admissionFree {now reprobe gates}
    (admits : getRateLimitProbeAdmission g account now reprobe = (gates,.admitted lease)) :
    (get (pruneProbeLeases g.probeLeases now) account.id).any (fun existing => existing.leaseUntil > now) = false ∧
    (((g.reservation account.id).bind (·.cooldownUntil)).getD 0 > now → reprobe = true) := by
  have answers : (g.after (.getRateLimitProbeAdmission account now reprobe)).2 = .admission (.admitted lease) := by
    simp only [Gates.after,admits]
  cases leaseStep (g := g) (.getRateLimitProbeAdmission account now reprobe) with
  | kept refused _ _ => exact absurd answers (refused lease)
  | pruned now _ refused _ _ => exact absurd answers (refused lease)
  | released given _ _ _ refused _ _ => exact absurd answers (refused lease)
  | admitted _ _ _ _ calls _ _ free lapsed _ _ =>
    cases calls
    exact ⟨free,lapsed⟩

theorem removesCurrent (removes : Removes g account lease) :
    get g.probeLeases account.id = some lease ∧ ∃ node previous,
      g.capacityRestoredPending account.id = node::previous ∧ lease.capacityGeneration = some node.generation := by
  obtain ⟨present,gone⟩ := removes
  obtain ⟨same | ⟨_,generation,its,_,live,admitted,current,_⟩,_,_⟩ :=
    completionMarkers (g := g) account .recovered (some lease)
  · unfold Gates.reservation at present gone
    exact absurd (same ▸ gone) present
  · cases its
    obtain ⟨node,owner,rfl⟩ := Option.map_eq_some_iff.mp current
    obtain ⟨previous,slot⟩ := List.head?_eq_some_iff.mp owner
    exact ⟨live,node,previous,slot,admitted⟩

theorem Marked.removed (marked : Marked w) (held : Held accounts w.gates) {first between}
    (here : Since w.history first between)
    (admits : first.answer = .admission (.admitted lease)) (removes : Removes w.gates account lease) :
    (∀ e ∈ between, ¬ e.call.Arms account.id) ∧
    ∀ e ∈ between, ∀ reservation, e.answer = .reservation reservation → reservation.accountId = account.id →
      ∃ undone ∈ w.history, undone.call = .rollbackCapacityRestoredProbePending reservation := by
  obtain ⟨live,node,previous,slot,current⟩ := removesCurrent removes
  have own : lease.accountId = account.id := held.own account.id lease live
  have inSlot : node.generation ∈ generations (w.gates.capacityRestoredPending lease.accountId) := by
    rw [own,slot]
    exact .head _
  constructor
  · intro e inside arms
    rw [← own] at arms
    exact marked.armings first between lease _ here admits current e inside arms inSlot
  · intro e inside reservation answers its
    obtain ⟨newer,placed⟩ :=
      marked.newer first between lease _ here admits current e inside reservation answers (its.trans own.symm)
    rcases placed with inSlot' | rolled | absent
    · -- The slot is in descending order, so that nothing newer is behind its owner.
      rw [own,slot] at inSlot'
      have sorted := marked.descending account.id
      rw [slot,Descending,generations,List.map_cons,List.pairwise_cons] at sorted
      rcases List.mem_cons.mp inSlot' with rfl | behind
      · exact absurd newer (Nat.lt_irrefl _)
      · exact absurd (sorted.1 _ (List.mem_map_of_mem behind)) (Nat.lt_asymm newer)
    · exact marked.rolled reservation rolled
    · exact absurd inSlot absent

theorem completeAgain (account : Account) (outcome again : ProbeOutcome) (lease : Option RateLimitProbeLease) :
    completeRateLimitProbe (completeRateLimitProbe g account outcome lease) account again lease =
      completeRateLimitProbe g account outcome lease := by
  cases lease with
  | none => rfl
  | some lease =>
    have gone : get (completeRateLimitProbe g account outcome (some lease)).probeLeases account.id ≠ some lease := by
      by_cases live : get g.probeLeases account.id = some lease
      · rw [completeRateLimitProbe,if_pos live,(releaseLeases account outcome lease).1,getDeleteSelf]
        simp
      · rw [completeRateLimitProbe,if_neg live]
        exact live
    exact if_neg gone

theorem recoveryProbeSingleFlight (few : accounts.card < MAX_PROBE_GATES)
    (reach : gateMachine.ReachableUnder (fun _ call => call.accountId ∈ accounts) w) : SingleFlight w := by
  have custody := reachableCustody few reach
  have marked := reachableMarked reach
  refine ⟨?_,?_,?_,completeAgain,?_,?_,custody.held.wouldSuppress few⟩
  · intro earlier at_ again first between account now reprobe gates lease here same later admits
    obtain ⟨own,expires⟩ := custody.recorded earlier at_ again first here.mem
    rcases custody.kept _ between first here rfl with completes | lapsed | live
    · exact .inl completes
    · exact .inr (by omega)
    · have free := (admissionFree admits).1
      rcases custody.held.surviving few now live with lapsed | live
      · exact .inr (by omega)
      · rw [own,same] at live
        rw [live] at free
        have lapsed : first.leaseUntil ≤ now := by simpa using free
        exact .inr (by omega)
  · exact fun account outcome lease absent => if_neg absent
  · intro first between account outcome lease here admits settled
    refine if_neg (fun live => ?_)
    have own := custody.held.own account.id lease live
    exact custody.gone first between lease here admits settled (own ▸ live)
  · exact fun first between account lease here admits removes => marked.removed custody.held here admits removes
  · intro account now gates lease reservation cooldownUntil admits owner until_
    have lapsed := (admissionFree admits).2
    rw [owner,Option.bind_some,until_,Option.getD_some] at lapsed
    by_contra early
    cases lapsed (Int.not_le.mp early)

def restoredAccount : Account := ⟨"a","anthropic","r",0,none,none,none⟩

def restoredTwice : List Call :=
  [.markCapacityRestoredProbePending "a",.getRateLimitProbeAdmission restoredAccount 0 false,
    .markCapacityRestoredProbePending "a",.rollbackCapacityRestoredProbePending ⟨"a",2,none⟩]

def idle : World := ⟨.empty,0,[]⟩

def restoredWorld : World :=
  (gateMachine.runUnder (fun _ call => decide (call.accountId ∈ ({"a"} : Finset String))) idle restoredTwice).get rfl

theorem restoredReachable :
    gateMachine.ReachableUnder (fun _ call => call.accountId ∈ ({"a"} : Finset String)) restoredWorld := by
  have run : gateMachine.ReachableUnder (fun _ call => decide (call.accountId ∈ ({"a"} : Finset String)) = true)
      restoredWorld := Machine.runReachableUnder (s := idle) restoredTwice ⟨rfl,rfl⟩ (Option.some_get _).symm
  exact run.weaken (fun _ _ inside => of_decide_eq_true inside)

theorem recoveryProbeSingleFlightRestored : SingleFlight restoredWorld :=
  recoveryProbeSingleFlight (by decide) restoredReachable

theorem recoveryDisturbed : ¬ ∀ (accounts : Finset String) (w : World), accounts.card < MAX_PROBE_GATES →
    gateMachine.ReachableUnder (fun _ call => call.accountId ∈ accounts) w → RemovesUndisturbed w := by
  intro all
  have undisturbed := all {"a"} restoredWorld (by decide) restoredReachable
  have marked := undisturbed ⟨.getRateLimitProbeAdmission restoredAccount 0 false,
      .admission (.admitted ⟨0,"a",PROBE_LEASE_MS,some 1⟩)⟩
    [⟨.rollbackCapacityRestoredProbePending ⟨"a",2,none⟩,.nothing⟩,
      ⟨.markCapacityRestoredProbePending "a",.reservation ⟨"a",2,none⟩⟩]
    restoredAccount ⟨0,"a",PROBE_LEASE_MS,some 1⟩ ⟨_,rfl⟩ rfl ⟨by decide,by decide⟩
    ⟨.markCapacityRestoredProbePending "a",.reservation ⟨"a",2,none⟩⟩ (by decide)
  exact marked.2 rfl

end Clankermux.RateLimitCooldown
