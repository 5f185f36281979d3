import Clankermux.ProbeSingleFlight

/-! The reservations of an account and how they unwind. Beside the gate it is kept what was reserved or armed since the marker
was last cleared or armed without a predecessor, and the generation that was reached as it was last cleared. -/
namespace Clankermux.RateLimitCooldown
open InsertionMap

structure Outstanding where
  world : World
  since : String → List CapacityProbeReservation
  cleared : String → Option Nat

def armsBurst (account : Account) (info : RateLimitInfo) (reprobe : Bool) : Bool :=
  !reprobe && info.reason = some .model_fallback_429 && isOAuthAnthropicAccount account

def clearsMarker (g : Gates) (account : Account) (outcome : ProbeOutcome) (lease : Option RateLimitProbeLease) : Bool :=
  lease.any (fun lease => decide (get g.probeLeases account.id = some lease) && decide (outcome = .recovered ∧
    lease.capacityGeneration ≠ none ∧ (g.reservation account.id).map (·.generation) = lease.capacityGeneration))

def Outstanding.note (s : Outstanding) (after : World) : Call → Outstanding
  | .markCapacityRestoredProbePending id =>
    ⟨after,Function.update s.since id ((markCapacityRestoredProbePending s.world.gates id).2::s.since id),s.cleared⟩
  | .applyRateLimitCooldown account info _ reprobe _ =>
    if armsBurst account info reprobe then
      ⟨after,Function.update s.since account.id (after.gates.reservation account.id).toList,s.cleared⟩
    else ⟨after,s.since,s.cleared⟩
  | .completeRateLimitProbe account outcome lease =>
    if clearsMarker s.world.gates account outcome lease then
      ⟨after,Function.update s.since account.id [],Function.update s.cleared account.id (some s.world.gates.capacityGenerationCounter)⟩
    else ⟨after,s.since,s.cleared⟩
  | _ => ⟨after,s.since,s.cleared⟩

def reservationMachine : Machine Outstanding Call where
  init s := gateMachine.init s.world ∧ s.since = (fun _ => []) ∧ s.cleared = fun _ => none
  step s call := (s.world.step call).map (fun after => s.note after call)

variable {s t : Outstanding} {call : Call} {id : String} {rolledBack slot nodes : List CapacityProbeReservation}
  {node reservation : CapacityProbeReservation}

/-! One slot: it holds the newest that was not rolled back, and behind it leaves out none that was not. -/

def live (rolledBack nodes : List CapacityProbeReservation) : List CapacityProbeReservation :=
  nodes.filter (fun node => decide (node ∉ rolledBack))

structure Unwinds (rolledBack slot nodes : List CapacityProbeReservation) : Prop where
  same : live rolledBack slot = live rolledBack nodes
  head : ∀ node, slot.head? = some node → node ∉ rolledBack

theorem Unwinds.newest (unwinds : Unwinds rolledBack slot nodes) : slot.head? = (live rolledBack nodes).head? := by
  rw [← unwinds.same]
  cases slot with
  | nil => rfl
  | cons node rest =>
    have present := unwinds.head node rfl
    simp [live,present]

theorem Unwinds.mark (unwinds : Unwinds rolledBack slot nodes) (fresh : node ∉ rolledBack) :
    Unwinds rolledBack (node::slot) (node::nodes) where
  same := by
    have same := unwinds.same
    unfold live at same ⊢
    rw [List.filter_cons,List.filter_cons,same]
  head other first := by
    cases first
    exact fresh

theorem liveCons : live (reservation::rolledBack) nodes = (live rolledBack nodes).filter (fun node => decide (node ≠ reservation)) := by
  unfold live
  rw [List.filter_filter]
  refine List.filter_congr (fun node _ => ?_)
  simp

theorem liveFirst : live rolledBack (firstLiveReservation rolledBack nodes) = live rolledBack nodes := by
  induction nodes with
  | nil => rfl
  | cons node rest ih =>
    by_cases gone : node ∈ rolledBack
    · rw [live,live,List.filter_cons,if_neg (by simpa using gone)]
      simpa [firstLiveReservation,gone,live] using ih
    · simp [firstLiveReservation,gone]

theorem firstHead (first : (firstLiveReservation rolledBack nodes).head? = some node) : node ∉ rolledBack := by
  induction nodes with
  | nil => cases first
  | cons other rest ih =>
    by_cases gone : other ∈ rolledBack
    · exact ih (by simpa [firstLiveReservation,gone] using first)
    · have same : other = node := by simpa [firstLiveReservation,gone] using first
      exact same ▸ gone

theorem Unwinds.rollOwner (unwinds : Unwinds rolledBack (reservation::slot) nodes) :
    Unwinds (reservation::rolledBack) (firstLiveReservation (reservation::rolledBack) slot) nodes where
  same := by
    have cons : live (reservation::rolledBack) nodes = _ := liveCons
    rw [liveFirst,cons,← unwinds.same,← liveCons,live,live,List.filter_cons,if_neg (by simp)]
  head node first := firstHead first

theorem Unwinds.rollOther (unwinds : Unwinds rolledBack slot nodes) (other : slot.head? ≠ some reservation) :
    Unwinds (reservation::rolledBack) slot nodes where
  same := by rw [liveCons,liveCons,unwinds.same]
  head node first := by
    have kept := unwinds.head node first
    rintro (_ | ⟨_,gone⟩)
    · exact other first
    · exact kept gone

def reservations (id : String) (history : List Happened) : List CapacityProbeReservation :=
  history.filterMap (fun e =>
    match e.answer with
    | .reservation reservation => if reservation.accountId = id then some reservation else none
    | _ => none)

structure Unwound (s : Outstanding) : Prop where
  unwinds : ∀ id, Unwinds s.world.gates.rolledBack (s.world.gates.capacityRestoredPending id) (s.since id)
  own : ∀ id, ∀ node ∈ s.world.gates.capacityRestoredPending id, node.accountId = id
  recent : ∀ id, ∀ node ∈ s.since id, node.generation ≤ s.world.gates.capacityGenerationCounter ∧
    (∀ generation, s.cleared id = some generation → generation < node.generation) ∧
    (Reserved s.world.history node ∨ ∃ e ∈ s.world.history, e.call.Arms id)
  cleared : ∀ id generation, s.cleared id = some generation → generation ≤ s.world.gates.capacityGenerationCounter
  rolled : ∀ reservation ∈ s.world.gates.rolledBack, reservation.generation ≤ s.world.gates.capacityGenerationCounter
  reserved : ∀ reservation, Reserved s.world.history reservation → reservation.generation ≤ s.world.gates.capacityGenerationCounter
  plain : ∀ id, (∀ e ∈ s.world.history, ¬ e.call.Arms id) → s.cleared id = none → s.since id = reservations id s.world.history

theorem Reserved.cons {history : List Happened} {e} :
    Reserved (e::history) reservation ↔ e.answer = .reservation reservation ∨ Reserved history reservation := by
  simp [Reserved]

theorem reservationsCons {history : List Happened} {e} (none_ : ∀ reservation, e.answer ≠ .reservation reservation) :
    reservations id (e::history) = reservations id history := by
  rw [reservations,List.filterMap_cons]
  cases kind : e.answer with
  | reservation reservation => exact absurd kind (none_ reservation)
  | nothing | admission answer => rfl

theorem Unwound.keep (fit : Unwound s) {after : World} {e} (none_ : ∀ reservation, e.answer ≠ .reservation reservation)
    (history : after.history = e::s.world.history) (slots : after.gates.capacityRestoredPending = s.world.gates.capacityRestoredPending)
    (rolled : after.gates.rolledBack = s.world.gates.rolledBack)
    (counter : after.gates.capacityGenerationCounter = s.world.gates.capacityGenerationCounter) : Unwound ⟨after,s.since,s.cleared⟩ := by
  refine ⟨?_,?_,?_,?_,?_,?_,?_⟩
  · rw [slots,rolled]
    exact fit.unwinds
  · dsimp only
    rw [slots]
    exact fit.own
  · intro id node inside
    obtain ⟨counted,later,from_⟩ := fit.recent id node inside
    rw [counter,history]
    exact ⟨counted,later,from_.imp (fun old => Reserved.cons.mpr (.inr old)) (fun ⟨e,there,arms⟩ => ⟨e,.tail _ there,arms⟩)⟩
  · dsimp only
    rw [counter]
    exact fit.cleared
  · dsimp only
    rw [rolled,counter]
    exact fit.rolled
  · intro reservation made
    rw [history,Reserved.cons] at made
    rw [counter]
    exact fit.reserved reservation (made.resolve_left (none_ reservation))
  · intro id quiet uncleared
    rw [history] at quiet ⊢
    rw [reservationsCons none_]
    exact fit.plain id (fun e there => quiet e (.tail _ there)) uncleared

theorem clearsEffect (g : Gates) (account : Account) (outcome : ProbeOutcome) (lease : Option RateLimitProbeLease) :
    (completeRateLimitProbe g account outcome lease).capacityRestoredPending =
      if clearsMarker g account outcome lease then (g.setPending account.id []).capacityRestoredPending else g.capacityRestoredPending := by
  unfold clearsMarker completeRateLimitProbe
  cases lease with
  | none => rfl
  | some lease =>
    by_cases live : get g.probeLeases account.id = some lease
    · simp only [live,if_true,releaseProbeLease,Option.any_some,decide_true,Bool.true_and,decide_eq_true_eq]
      split
      · rename_i clears
        exact (if_pos clears).symm
      · rename_i keeps
        exact (if_neg keeps).symm
    · simp [live]

theorem completeCounter (g : Gates) (account : Account) (outcome : ProbeOutcome) (lease : Option RateLimitProbeLease) :
    (completeRateLimitProbe g account outcome lease).rolledBack = g.rolledBack ∧
    (completeRateLimitProbe g account outcome lease).capacityGenerationCounter = g.capacityGenerationCounter :=
  (completionMarkers account outcome lease).2

theorem cooldownEffect (g : Gates) (account : Account) (info : RateLimitInfo) (now : Int) (reprobe : Bool) (lease : Option RateLimitProbeLease) :
    if armsBurst account info reprobe then
      ∃ until_, (applyRateLimitCooldown g account info now reprobe lease).gates.capacityRestoredPending =
          (g.setPending account.id [⟨account.id,g.capacityGenerationCounter + 1,some until_⟩]).capacityRestoredPending ∧
        (applyRateLimitCooldown g account info now reprobe lease).gates.rolledBack = g.rolledBack ∧
        (applyRateLimitCooldown g account info now reprobe lease).gates.capacityGenerationCounter = g.capacityGenerationCounter + 1
    else
      (applyRateLimitCooldown g account info now reprobe lease).gates.capacityRestoredPending = g.capacityRestoredPending ∧
      (applyRateLimitCooldown g account info now reprobe lease).gates.rolledBack = g.rolledBack ∧
      (applyRateLimitCooldown g account info now reprobe lease).gates.capacityGenerationCounter = g.capacityGenerationCounter := by
  cases reprobe with
  | true =>
    rw [if_neg (by simp [armsBurst]),reprobeGates]
    exact ⟨rfl,rfl,rfl⟩
  | false =>
    obtain ⟨until_,gates⟩ := cooldownMarkers (g := g) account info now lease
    obtain ⟨rolled,counter⟩ := completeCounter g account .cooldown_reapplied lease
    have slots : (completeRateLimitProbe g account .cooldown_reapplied lease).capacityRestoredPending = g.capacityRestoredPending := by
      rw [clearsEffect]
      cases lease <;> simp [clearsMarker]
    have same : armsBurst account info false = true ↔ info.reason = some .model_fallback_429 ∧ isOAuthAnthropicAccount account = true := by
      simp [armsBurst]
    by_cases arms : info.reason = some .model_fallback_429 ∧ isOAuthAnthropicAccount account = true
    · rw [if_pos (same.mpr arms)]
      rw [if_pos arms] at gates
      refine ⟨until_,?_,?_,?_⟩
      · simp only [gates,armBurstRecoveryProbe,Gates.setPending,slots,counter]
      · exact (congrArg _ gates).trans rolled
      · simp only [gates,armBurstRecoveryProbe,counter]
    · rw [if_neg (fun burst => arms (same.mp burst)),gates,if_neg arms]
      exact ⟨slots,rolled,counter⟩

theorem updateSetPending {g : Gates} (after : Gates) {slot} (slots : after.capacityRestoredPending = (g.setPending id slot).capacityRestoredPending) :
    after.capacityRestoredPending = Function.update g.capacityRestoredPending id slot := by
  rw [slots]
  funext other
  by_cases same : other = id
  · rw [same,setPendingSelf,Function.update_self]
  · rw [setPendingOther _ same,Function.update_of_ne same]

theorem ownSet {slots : String → List CapacityProbeReservation} {slot}
    (own : ∀ id, ∀ node ∈ slots id, node.accountId = id) (here : ∀ node ∈ slot, node.accountId = id) (other : String) :
    ∀ node ∈ Function.update slots id slot other, node.accountId = other := by
  by_cases same : other = id
  · rw [same,Function.update_self]
    exact here
  · rw [Function.update_of_ne same]
    exact own other

theorem unwindsSet (id : String) {slots nodes : String → List CapacityProbeReservation} {slot set_}
    (unwinds : ∀ id, Unwinds rolledBack (slots id) (nodes id)) (here : Unwinds rolledBack slot set_) (other : String) :
    Unwinds rolledBack (Function.update slots id slot other) (Function.update nodes id set_ other) := by
  by_cases same : other = id
  · rw [same,Function.update_self,Function.update_self]
    exact here
  · rw [Function.update_of_ne same,Function.update_of_ne same]
    exact unwinds other

theorem Unwound.mark (fit : Unwound s) (id : String) (clock : Int) : Unwound (s.note
    ⟨(s.world.gates.after (.markCapacityRestoredProbePending id)).1,clock,
      ⟨.markCapacityRestoredProbePending id,(s.world.gates.after (.markCapacityRestoredProbePending id)).2⟩::s.world.history⟩
    (.markCapacityRestoredProbePending id)) := by
  have fresh : (⟨id,s.world.gates.capacityGenerationCounter + 1,none⟩ : CapacityProbeReservation) ∉ s.world.gates.rolledBack := by
    intro rolled
    have : s.world.gates.capacityGenerationCounter + 1 ≤ _ := fit.rolled _ rolled
    omega
  have slots := updateSetPending (g := s.world.gates) (s.world.gates.after (.markCapacityRestoredProbePending id)).1 rfl
  refine ⟨fun other => ?_,?_,fun other node inside => ?_,fun other generation at_ => Nat.le_succ_of_le (fit.cleared other generation at_),
    fun reservation rolled => Nat.le_succ_of_le (fit.rolled reservation rolled),fun reservation made => ?_,fun other quiet uncleared => ?_⟩
  · have set := unwindsSet id fit.unwinds ((fit.unwinds id).mark fresh) other
    rw [← slots] at set
    exact set
  · dsimp only [Outstanding.note]
    rw [slots]
    refine ownSet fit.own (fun node inside => ?_)
    rcases List.mem_cons.mp inside with rfl | old
    · rfl
    · exact fit.own id node old
  · by_cases same : other = id
    · subst same
      dsimp only [Outstanding.note] at inside ⊢
      rw [Function.update_self] at inside
      rcases List.mem_cons.mp inside with rfl | old
      · exact ⟨le_rfl,fun generation at_ => Nat.lt_succ_of_le (fit.cleared other generation at_),.inl (Reserved.cons.mpr (.inl rfl))⟩
      · obtain ⟨counted,later,from_⟩ := fit.recent other node old
        exact ⟨Nat.le_succ_of_le counted,later,from_.imp (fun old => Reserved.cons.mpr (.inr old))
          (Exists.imp fun e => And.imp_left (List.mem_cons_of_mem _))⟩
    · dsimp only [Outstanding.note] at inside ⊢
      rw [Function.update_of_ne same] at inside
      obtain ⟨counted,later,from_⟩ := fit.recent other node inside
      exact ⟨Nat.le_succ_of_le counted,later,from_.imp (fun old => Reserved.cons.mpr (.inr old))
          (Exists.imp fun e => And.imp_left (List.mem_cons_of_mem _))⟩
  · rcases Reserved.cons.mp made with new | old
    · cases new
      exact le_rfl
    · exact Nat.le_succ_of_le (fit.reserved reservation old)
  · have plain := fit.plain other (fun e there => quiet e (.tail _ there)) uncleared
    dsimp only [Outstanding.note]
    by_cases same : other = id
    · subst same
      rw [Function.update_self,plain]
      simp [reservations,Gates.after,markCapacityRestoredProbePending]
    · rw [Function.update_of_ne same,plain]
      simp [reservations,Gates.after,markCapacityRestoredProbePending,Ne.symm same]

theorem Unwound.rollback (fit : Unwound s) (clock : Int) (made : Reserved s.world.history reservation) : Unwound
    ⟨⟨(s.world.gates.after (.rollbackCapacityRestoredProbePending reservation)).1,clock,
      ⟨.rollbackCapacityRestoredProbePending reservation,.nothing⟩::s.world.history⟩,s.since,s.cleared⟩ := by
  obtain ⟨counter,rolled⟩ : (s.world.gates.after (.rollbackCapacityRestoredProbePending reservation)).1.capacityGenerationCounter =
      s.world.gates.capacityGenerationCounter ∧ (s.world.gates.after (.rollbackCapacityRestoredProbePending reservation)).1.rolledBack =
      reservation::s.world.gates.rolledBack := rollbackRolled reservation
  have at_ : ∀ id, (s.world.gates.capacityRestoredPending id).head? = some reservation → id = reservation.accountId :=
    fun id first => (fit.own id reservation (List.mem_of_mem_head? first)).symm
  refine ⟨fun id => ?_,fun id node inside => ?_,fun id node inside => ?_,fun id generation at_ => ?_,fun other undone => ?_,fun other its => ?_,
    fun id quiet uncleared => ?_⟩
  · dsimp only
    have unwinds := fit.unwinds id
    simp only [Gates.after,rollbackCapacityRestoredProbePending]
    split
    · rename_i empty
      refine unwinds.rollOther (fun first => ?_)
      rw [at_ id first,empty] at first
      cases first
    · rename_i owner previous slot
      split
      · rename_i same
        subst same
        by_cases own : id = owner.accountId
        · rw [own] at unwinds ⊢
          rw [slot] at unwinds
          rw [setPendingSelf]
          exact unwinds.rollOwner
        · rw [setPendingOther _ own]
          exact unwinds.rollOther (fun first => own (at_ id first))
      · rename_i different
        refine unwinds.rollOther (fun first => different ?_)
        rw [at_ id first,slot] at first
        exact Option.some.inj first
  · have before := fit.own id
    simp only [Gates.after,rollbackCapacityRestoredProbePending] at inside
    split at inside
    · exact before node inside
    · rename_i owner previous slot
      split at inside
      · by_cases own : id = reservation.accountId
        · rw [own,setPendingSelf] at inside
          rw [own,slot] at before
          rw [own]
          exact before node (.tail _ ((liveSuffix _ _).subset inside))
        · rw [setPendingOther _ own] at inside
          exact before node inside
      · exact before node inside
  · dsimp only at inside ⊢
    rw [counter]
    obtain ⟨counted,later,from_⟩ := fit.recent id node inside
    exact ⟨counted,later,from_.imp (fun old => Reserved.cons.mpr (.inr old)) (Exists.imp fun e => And.imp_left (List.mem_cons_of_mem _))⟩
  · dsimp only
    rw [counter]
    exact fit.cleared id generation at_
  · dsimp only at undone ⊢
    rw [rolled] at undone
    rw [counter]
    rcases List.mem_cons.mp undone with rfl | old
    · exact fit.reserved _ made
    · exact fit.rolled other old
  · dsimp only
    rw [counter]
    rcases Reserved.cons.mp its with new | old
    · cases new
    · exact fit.reserved other old
  · dsimp only at quiet uncleared ⊢
    exact fit.plain id (fun e there => quiet e (.tail _ there)) uncleared

theorem Unwound.complete (fit : Unwound s) (account : Account) (outcome : ProbeOutcome) (lease : Option RateLimitProbeLease) (clock : Int) :
    Unwound (s.note ⟨completeRateLimitProbe s.world.gates account outcome lease,clock,
      ⟨.completeRateLimitProbe account outcome lease,.nothing⟩::s.world.history⟩ (.completeRateLimitProbe account outcome lease)) := by
  obtain ⟨rolled,counter⟩ := completeCounter s.world.gates account outcome lease
  have slots := clearsEffect s.world.gates account outcome lease
  by_cases clears : clearsMarker s.world.gates account outcome lease = true
  · rw [if_pos clears] at slots
    have slots := updateSetPending _ slots
    simp only [Outstanding.note,if_pos clears]
    refine ⟨fun id => ?_,?_,fun id node inside => ?_,fun id generation at_ => ?_,?_,fun reservation made => ?_,fun id quiet uncleared => ?_⟩
    · dsimp only
      rw [slots,rolled]
      exact unwindsSet _ fit.unwinds ⟨rfl,fun _ first => by cases first⟩ id
    · dsimp only
      rw [slots]
      exact ownSet fit.own (fun _ inside => absurd inside List.not_mem_nil)
    · dsimp only at inside ⊢
      by_cases same : id = account.id
      · rw [same,Function.update_self] at inside
        cases inside
      · rw [Function.update_of_ne same] at inside ⊢
        rw [counter]
        obtain ⟨counted,later,from_⟩ := fit.recent id node inside
        exact ⟨counted,later,from_.imp (fun old => Reserved.cons.mpr (.inr old)) (Exists.imp fun e => And.imp_left (List.mem_cons_of_mem _))⟩
    · dsimp only at at_ ⊢
      rw [counter]
      by_cases same : id = account.id
      · rw [same,Function.update_self] at at_
        exact Nat.le_of_eq (Option.some.inj at_).symm
      · rw [Function.update_of_ne same] at at_
        exact fit.cleared id generation at_
    · dsimp only
      rw [rolled,counter]
      exact fit.rolled
    · dsimp only
      rw [counter]
      exact fit.reserved reservation ((Reserved.cons.mp made).resolve_left (by simp))
    · dsimp only at quiet uncleared ⊢
      by_cases same : id = account.id
      · rw [same,Function.update_self] at uncleared
        cases uncleared
      · rw [Function.update_of_ne same] at uncleared ⊢
        exact fit.plain id (fun e there => quiet e (.tail _ there)) uncleared
  · rw [if_neg clears] at slots
    simp only [Outstanding.note,if_neg clears]
    exact fit.keep (fun _ => by simp) rfl slots rolled counter

theorem Unwound.cooldown (fit : Unwound s) (account : Account) (info : RateLimitInfo) (now : Int) (reprobe : Bool)
    (lease : Option RateLimitProbeLease) (clock : Int) :
    Unwound (s.note ⟨(applyRateLimitCooldown s.world.gates account info now reprobe lease).gates,clock,
      ⟨.applyRateLimitCooldown account info now reprobe lease,.nothing⟩::s.world.history⟩
      (.applyRateLimitCooldown account info now reprobe lease)) := by
  have effect := cooldownEffect s.world.gates account info now reprobe lease
  by_cases arms : armsBurst account info reprobe = true
  · rw [if_pos arms] at effect
    obtain ⟨until_,slots,rolled,counter⟩ := effect
    have slots := updateSetPending _ slots
    have armed : ((applyRateLimitCooldown s.world.gates account info now reprobe lease).gates.reservation account.id).toList =
        [⟨account.id,s.world.gates.capacityGenerationCounter + 1,some until_⟩] := by
      rw [Gates.reservation,slots,Function.update_self]
      rfl
    have call : (Call.applyRateLimitCooldown account info now reprobe lease).Arms account.id := by
      simp only [armsBurst,Bool.and_eq_true,Bool.not_eq_true',decide_eq_true_eq] at arms
      exact ⟨rfl,arms.1.1,arms.1.2,arms.2⟩
    have fresh : (⟨account.id,s.world.gates.capacityGenerationCounter + 1,some until_⟩ : CapacityProbeReservation) ∉ s.world.gates.rolledBack := by
      intro gone
      have : s.world.gates.capacityGenerationCounter + 1 ≤ _ := fit.rolled _ gone
      omega
    simp only [Outstanding.note,if_pos arms,armed]
    refine ⟨fun id => ?_,?_,fun id node inside => ?_,fun id generation at_ => ?_,fun reservation gone => ?_,fun reservation made => ?_,fun id quiet uncleared => ?_⟩
    · dsimp only
      rw [slots,rolled]
      refine unwindsSet _ fit.unwinds ⟨rfl,fun node first => ?_⟩ id
      cases first
      exact fresh
    · dsimp only
      rw [slots]
      refine ownSet fit.own (fun node inside => ?_)
      rw [List.mem_singleton.mp inside]
    · dsimp only at inside ⊢
      rw [counter]
      by_cases same : id = account.id
      · subst same
        rw [Function.update_self,List.mem_singleton] at inside
        subst inside
        exact ⟨le_rfl,fun generation at_ => Nat.lt_succ_of_le (fit.cleared _ generation at_),.inr ⟨_,.head _,call⟩⟩
      · rw [Function.update_of_ne same] at inside
        obtain ⟨counted,later,from_⟩ := fit.recent id node inside
        exact ⟨Nat.le_succ_of_le counted,later,from_.imp (fun old => Reserved.cons.mpr (.inr old))
          (Exists.imp fun e => And.imp_left (List.mem_cons_of_mem _))⟩
    · dsimp only
      rw [counter]
      exact Nat.le_succ_of_le (fit.cleared id generation at_)
    · dsimp only at gone ⊢
      rw [counter]
      exact Nat.le_succ_of_le (fit.rolled reservation (rolled ▸ gone))
    · dsimp only
      rw [counter]
      exact Nat.le_succ_of_le (fit.reserved reservation ((Reserved.cons.mp made).resolve_left (by simp)))
    · dsimp only at quiet uncleared ⊢
      by_cases same : id = account.id
      · exact absurd (same ▸ call) (quiet _ (.head _))
      · rw [Function.update_of_ne same,reservationsCons (fun _ => by simp)]
        exact fit.plain id (fun e there => quiet e (.tail _ there)) uncleared
  · rw [if_neg arms] at effect
    obtain ⟨slots,rolled,counter⟩ := effect
    simp only [Outstanding.note,if_neg arms]
    exact fit.keep (fun _ => by simp) rfl slots rolled counter

theorem Unwound.step (fit : Unwound s) (step : reservationMachine.step s call = some t) : Unwound t := by
  obtain ⟨after,went,rfl⟩ := Option.map_eq_some_iff.mp step
  obtain ⟨_,presentable,rfl⟩ := stepCases went
  cases call with
  | getRateLimitProbeAdmission account now reprobe =>
    obtain ⟨slots,rolled,counter⟩ := admissionMarkers (g := s.world.gates) account now reprobe
    exact fit.keep (fun _ => by simp [Gates.after]) rfl slots rolled counter
  | completeRateLimitProbe account outcome lease => exact fit.complete account outcome lease _
  | applyRateLimitCooldown account info now reprobe lease => exact fit.cooldown account info now reprobe lease _
  | markCapacityRestoredProbePending id => exact fit.mark id _
  | rollbackCapacityRestoredProbePending reservation => exact fit.rollback _ (presentable.2 reservation rfl)

theorem reachableUnwound (reach : reservationMachine.Reachable s) : Unwound s := by
  refine reach.invariant ?_ (fun s call t fit step => fit.step step)
  rintro ⟨⟨gates,clock,history⟩,since,cleared⟩ ⟨⟨rfl,rfl⟩,rfl,rfl⟩
  refine ⟨fun _ => ⟨rfl,fun _ first => ?_⟩,fun _ _ inside => ?_,fun _ _ inside => ?_,fun _ _ none_ => ?_,fun _ inside => ?_,fun _ made => ?_,fun _ _ _ => rfl⟩
  · cases first
  · cases inside
  · cases inside
  · cases none_
  · cases inside
  · obtain ⟨_,none_,_⟩ := made
    cases none_

/-- The slot of an account holds the newest of what was reserved or armed since its last cut that was not rolled back; without
a cut these are all of its reservations; and a marker is of a reservation that was not rolled back or of an arming, newer
than the last clear. -/
theorem restoresUnwind (reach : reservationMachine.Reachable s) (id : String) :
    s.world.gates.reservation id = (live s.world.gates.rolledBack (s.since id)).head? ∧
    ((∀ e ∈ s.world.history, ¬ e.call.Arms id) → s.cleared id = none → s.since id = reservations id s.world.history) ∧
    ∀ marker, s.world.gates.reservation id = some marker → marker ∉ s.world.gates.rolledBack ∧
      (∀ generation, s.cleared id = some generation → generation < marker.generation) ∧
      (Reserved s.world.history marker ∨ ∃ e ∈ s.world.history, e.call.Arms id) := by
  have fit := reachableUnwound reach
  refine ⟨(fit.unwinds id).newest,fit.plain id,fun marker holds => ?_⟩
  have inside : marker ∈ live s.world.gates.rolledBack (s.since id) := List.mem_of_mem_head? ((fit.unwinds id).newest ▸ holds)
  obtain ⟨there,kept⟩ := List.mem_filter.mp inside
  exact ⟨by simpa using kept,(fit.recent id marker there).2⟩

def overlapped : List Call := [.markCapacityRestoredProbePending "a",.markCapacityRestoredProbePending "a",
  .rollbackCapacityRestoredProbePending ⟨"a",1,none⟩,.rollbackCapacityRestoredProbePending ⟨"a",2,none⟩]

theorem overlappedUnwinds : ∃ s, reservationMachine.run ⟨idle,fun _ => [],fun _ => none⟩ overlapped = some s ∧
    s.since "a" = reservations "a" s.world.history ∧ s.world.gates.reservation "a" = none := by
  obtain ⟨s,ran⟩ : ∃ s, reservationMachine.run ⟨idle,fun _ => [],fun _ => none⟩ overlapped = some s :=
    Option.isSome_iff_exists.mp (by decide +kernel)
  have reach := Machine.runReachable overlapped (show reservationMachine.init ⟨idle,fun _ => [],fun _ => none⟩ from ⟨⟨rfl,rfl⟩,rfl,rfl⟩) ran
  obtain ⟨newest,all,_⟩ := restoresUnwind reach "a"
  have seen : (reservationMachine.run ⟨idle,fun _ => [],fun _ => none⟩ overlapped).map (fun s => (s.world.history.map (·.call),s.cleared "a",
      live s.world.gates.rolledBack (s.since "a"))) = some (overlapped.reverse,none,[]) := by decide +kernel
  rw [ran,Option.map_some,Option.some.injEq,Prod.mk.injEq,Prod.mk.injEq] at seen
  refine ⟨s,ran,all (fun e inside arms => ?_) seen.2.1,by rw [newest,seen.2.2]; rfl⟩
  have called : e.call ∈ overlapped.reverse := seen.1 ▸ List.mem_map_of_mem inside
  simp only [overlapped,List.reverse_cons,List.reverse_nil,List.nil_append,List.cons_append,List.mem_cons,List.not_mem_nil,or_false] at called
  rcases called with called | called | called | called
  all_goals rw [called] at arms; exact arms

end Clankermux.RateLimitCooldown
