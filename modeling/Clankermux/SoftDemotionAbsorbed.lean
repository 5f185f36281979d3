import Clankermux.FefoOrder
import Clankermux.SoftDemotion
import Clankermux.StableSplit

/-! The soft demotions only reorder, and leave a peer in front that can take the traffic. -/
namespace Clankermux.SoftDemotion
open LoadBalancer StableSplit

section
variable (pool : Readings) (candidates : List Account) (now : Int)

def demotes (account : Account) : Bool := familyDemote pool now account || livenessDemote pool candidates now account

def reasonFor (account : Account) : Option Reason :=
  reasonOf (familyDemote pool now account) (livenessDemote pool candidates now account)

def heldFor (account : Account) : Bool :=
  livenessDemote pool candidates now account && (livenessThreshold pool account = LIVENESS_RESERVE_PROTECTED_HEADROOM_PCT ||
    livenessDemotes pool candidates now account LIVENESS_RESERVE_PROTECTED_HEADROOM_PCT)

def Absorbs (threshold : ℚ) (peer : Account) : Prop :=
  ∃ capacity minHeadroom, pool.capacity peer = some capacity ∧ isFinite capacity.minHeadroom = some minHeadroom ∧ threshold ≤ minHeadroom ∧
    familyDemote pool now peer = false ∧ pool.capacityRestoredProbePending peer = false

end

def Reason.forLiveness : Reason → Bool
  | .familyReservation => false
  | _ => true

variable {pool : Readings} {candidates rest : List Account} {now : Int} {account peer : Account} {r : Reorder} {threshold : ℚ}

theorem reasonIsSome : (reasonFor pool candidates now account).isSome = demotes pool candidates now account := by
  unfold reasonFor demotes reasonOf
  cases familyDemote pool now account <;> cases livenessDemote pool candidates now account <;> rfl

theorem reorderOneIs : reorderOne pool candidates now r account =
    { kept := if demotes pool candidates now account then r.kept else r.kept ++ [account]
      demoted := if demotes pool candidates now account then r.demoted ++ [account] else r.demoted
      reasons := r.reasons ++ ((reasonFor pool candidates now account).map (account.id,·)).toList
      heldAtEveryTier := if heldFor pool candidates now account then r.heldAtEveryTier ++ [account.id] else r.heldAtEveryTier } := by
  rw [← reasonIsSome]
  cases reason : reasonFor pool candidates now account with
  | none =>
    have asked : reasonOf (familyDemote pool now account)
        (livenessDemotes pool candidates now account (livenessThreshold pool account)) = none := reason
    simp [reorderOne,asked,heldFor,livenessDemote]
  | some demoted =>
    have asked : reasonOf (familyDemote pool now account)
        (livenessDemotes pool candidates now account (livenessThreshold pool account)) = some demoted := reason
    simp [reorderOne,asked,heldFor,livenessDemote]

theorem reorderLoop : rest.foldl (reorderOne pool candidates now) r =
    { kept := r.kept ++ rest.filter (!demotes pool candidates now ·)
      demoted := r.demoted ++ rest.filter (demotes pool candidates now)
      reasons := r.reasons ++ rest.filterMap (fun account => (reasonFor pool candidates now account).map (account.id,·))
      heldAtEveryTier := r.heldAtEveryTier ++ (rest.filter (heldFor pool candidates now)).map (·.id) } := by
  induction rest generalizing r with
  | nil => simp
  | cons account rest ih =>
    rw [List.foldl_cons,ih,reorderOneIs]
    congr 1
    · cases held : demotes pool candidates now account <;> simp [held]
    · cases held : demotes pool candidates now account <;> simp [held]
    · rw [List.filterMap_cons]
      cases reasonFor pool candidates now account <;> simp
    · cases held : heldFor pool candidates now account <;> simp [held]

theorem reorderIs : applySoftDemotionReorder pool candidates now =
    { kept := candidates.filter (!demotes pool candidates now ·)
      demoted := candidates.filter (demotes pool candidates now)
      reasons := candidates.filterMap (fun account => (reasonFor pool candidates now account).map (account.id,·))
      heldAtEveryTier := (candidates.filter (heldFor pool candidates now)).map (·.id) } := by
  rw [applySoftDemotionReorder,reorderLoop]
  simp

theorem orderIs : (applySoftDemotionReorder pool candidates now).order = sendBack (demotes pool candidates now) candidates := by
  rw [reorderIs]
  rfl

theorem memoIs (memos : FailureMemos) (model : Account → String) (synthetic : Bool) (later : Int) (order : List Account) :
    applyFailureMemoDemotion memos model synthetic later order = sendBack (memoDemotes memos model synthetic later) order := by
  have loop : order.foldl (memoOne memos model synthetic later) ([],[]) =
      (order.filter (!memoDemotes memos model synthetic later ·),order.filter (memoDemotes memos model synthetic later)) :=
    sendBackLoop (memoDemotes memos model synthetic later) order [] []
  rw [applyFailureMemoDemotion,loop]
  dsimp only
  split
  · rfl
  · rename_i none_
    exact (sendBackNone (List.eq_nil_of_length_eq_zero (by omega))).symm

theorem absorbableIs : absorbable pool now threshold peer = true ↔ Absorbs pool now threshold peer := by
  unfold absorbable isAbsorbablePeer Absorbs
  cases fresh : pool.capacity peer with
  | none => simp
  | some capacity =>
    cases finite : isFinite capacity.minHeadroom with
    | none => simp [finite]
    | some minHeadroom =>
      by_cases below : minHeadroom < threshold
      · simp [finite]
      · simp [finite,not_lt.mp below]

theorem demotesRests (demoted : livenessDemotes pool candidates now account threshold = true) :
    (∃ capacity weeklyHeadroom, pool.capacity account = some capacity ∧ isFinite capacity.weeklyHeadroom = some weeklyHeadroom ∧
      weeklyHeadroom < threshold) ∧ ∃ peer ∈ candidates, Absorbs pool now threshold peer := by
  unfold livenessDemotes resolvePoolLivenessDemotion at demoted
  split at demoted
  · cases demoted
  rename_i capacity fresh
  split at demoted
  · cases demoted
  rename_i weeklyHeadroom weekly
  split at demoted
  · cases demoted
  rename_i low
  split at demoted
  · cases demoted
  rename_i counted
  refine ⟨⟨capacity,weeklyHeadroom,fresh,weekly,not_le.mp low⟩,?_⟩
  have some_ : 0 < countAbsorbablePeers pool candidates now account threshold := Nat.pos_of_ne_zero (fun zero => counted (by omega))
  obtain ⟨peer,inside,absorbs⟩ := List.countP_pos_iff.mp some_
  exact ⟨peer,(List.mem_filter.mp inside).1,absorbableIs.mp absorbs⟩

theorem finiteIs {figure value} (finite : isFinite figure = some value) : figure = Figure.of value := by
  unfold isFinite at finite
  split at finite
  · cases finite
    rfl
  · cases finite

theorem figureOfLe {p q} : Figure.of p ≤ .of q ↔ p ≤ q := by
  rw [Figure.of,Figure.of,WithBot.coe_le_coe,WithTop.coe_le_coe]

def freshFigure (pool : Readings) (figure : CapacitySignal → Figure) (account : Account) : Figure :=
  ((pool.capacity account).map figure).getD ⊥

theorem absorbsLevel (absorbs : Absorbs pool now threshold peer) : Figure.of threshold ≤ freshFigure pool (·.minHeadroom) peer := by
  obtain ⟨capacity,minHeadroom,fresh,finite,at_,-⟩ := absorbs
  rw [freshFigure,fresh,Option.map_some,Option.getD_some,finiteIs finite]
  exact figureOfLe.mpr at_

theorem absorbsAt {other} (absorbs : Absorbs pool now other peer) (at_ : Figure.of threshold ≤ freshFigure pool (·.minHeadroom) peer) :
    Absorbs pool now threshold peer := by
  obtain ⟨capacity,minHeadroom,fresh,finite,-,others⟩ := absorbs
  refine ⟨capacity,minHeadroom,fresh,finite,?_,others⟩
  rw [freshFigure,fresh,Option.map_some,Option.getD_some,finiteIs finite] at at_
  exact figureOfLe.mp at_

theorem peerKept (within : ∀ a ∈ candidates, ∀ capacity ∈ pool.capacity a, capacity.minHeadroom ≤ capacity.weeklyHeadroom)
    (inside : account ∈ candidates) (demoted : livenessDemote pool candidates now account = true) :
    ∃ peer ∈ candidates, Absorbs pool now (livenessThreshold pool account) peer ∧ demotes pool candidates now peer = false := by
  have another : ∀ a ∈ candidates, livenessDemote pool candidates now a = true →
      ∃ b ∈ candidates, (∃ t, Absorbs pool now t b) ∧ Figure.of (livenessThreshold pool a) ≤ freshFigure pool (·.minHeadroom) b := by
    intro a _ gives
    obtain ⟨-,b,there,absorbs⟩ := demotesRests gives
    exact ⟨b,there,⟨_,absorbs⟩,absorbsLevel absorbs⟩
  have low : ∀ a ∈ candidates, livenessDemote pool candidates now a = true →
      freshFigure pool (·.weeklyHeadroom) a < Figure.of (livenessThreshold pool a) := by
    intro a _ gives
    obtain ⟨⟨capacity,weeklyHeadroom,fresh,finite,below⟩,-⟩ := demotesRests gives
    rw [freshFigure,fresh,Option.map_some,Option.getD_some,finiteIs finite]
    exact figureOfLt.mpr below
  have ordered : ∀ a ∈ candidates, (∃ t, Absorbs pool now t a) →
      freshFigure pool (·.minHeadroom) a ≤ freshFigure pool (·.weeklyHeadroom) a := by
    rintro a there ⟨t,capacity,minHeadroom,fresh,-⟩
    rw [freshFigure,freshFigure,fresh]
    exact within a there capacity fresh
  obtain ⟨peer,there,⟨t,able⟩,at_,stays⟩ := someoneStays another low ordered account inside demoted
  refine ⟨peer,there,absorbsAt able at_,?_⟩
  obtain ⟨-,-,-,-,-,unreserved,-⟩ := able
  rw [demotes,unreserved,Bool.false_or]
  exact Bool.not_eq_true _ ▸ stays

theorem reasonsTell {reason} (distinct : (candidates.map (·.id)).Nodup) (inside : account ∈ candidates)
    (told : (account.id,reason) ∈ (applySoftDemotionReorder pool candidates now).reasons) :
    reasonFor pool candidates now account = some reason := by
  rw [reorderIs] at told
  obtain ⟨other,there,same⟩ := List.mem_filterMap.mp told
  obtain ⟨its,found,pair⟩ := Option.map_eq_some_iff.mp same
  obtain ⟨sameId,rfl⟩ := Prod.mk.inj pair
  rw [← List.inj_on_of_nodup_map distinct there inside sameId]
  exact found

theorem reasonLiveness {reason} (found : reasonFor pool candidates now account = some reason) (liveness : reason.forLiveness = true) :
    livenessDemote pool candidates now account = true := by
  unfold reasonFor reasonOf at found
  split at found
  · assumption
  · cases found
    cases liveness
  · assumption
  · cases found

/-- The demotions reorder the candidates within their groups, and whoever is demoted for liveness has a peer ahead that can take the traffic. -/
theorem demotionsOnlyReorder (pool : Readings) (memos : FailureMemos) (isSyntheticProbeRequest : Bool) (now later : Int)
    (candidates : List Account) (distinct : (candidates.map (·.id)).Nodup)
    (within : ∀ a ∈ candidates, ∀ capacity ∈ pool.capacity a, capacity.minHeadroom ≤ capacity.weeklyHeadroom) :
    let soft := applySoftDemotionReorder pool candidates now
    let memo := memoDemotes memos pool.modelForAccount isSyntheticProbeRequest later
    let last := applyFailureMemoDemotion memos pool.modelForAccount isSyntheticProbeRequest later soft.order
    (soft.order.Perm candidates ∧ soft.order = soft.kept ++ soft.demoted ∧ soft.kept.Sublist candidates ∧ soft.demoted.Sublist candidates) ∧
    (last.Perm candidates ∧ last = soft.order.filter (!memo ·) ++ soft.order.filter memo) ∧
    (∀ softly memoed : Bool, last.filter (fun a => demotes pool candidates now a == softly && memo a == memoed) =
      candidates.filter (fun a => demotes pool candidates now a == softly && memo a == memoed)) ∧
    ∀ account ∈ candidates, ∀ reason, (account.id,reason) ∈ soft.reasons → reason.forLiveness = true →
      ∃ before after, soft.order = before ++ account::after ∧ ∃ peer ∈ before, peer ∈ soft.kept ∧
        Absorbs pool now (livenessThreshold pool account) peer := by
  intro soft memo last
  have lastIs : last = sendBack memo soft.order := memoIs memos pool.modelForAccount isSyntheticProbeRequest later soft.order
  have softIs : soft.order = sendBack (demotes pool candidates now) candidates := orderIs
  have permuted : soft.order.Perm candidates := softIs ▸ sendBackPerm _ _
  refine ⟨⟨permuted,rfl,?_,?_⟩,⟨lastIs ▸ (sendBackPerm _ _).trans permuted,lastIs⟩,fun softly memoed => ?_,fun account inside reason told liveness => ?_⟩
  · rw [show soft = _ from reorderIs]
    exact List.filter_sublist
  · rw [show soft = _ from reorderIs]
    exact List.filter_sublist
  · rw [lastIs,softIs]
    have group : ∀ a, (demotes pool candidates now a == softly && memo a == memoed) = true → demotes pool candidates now a = softly ∧ memo a = memoed :=
      fun a held => ⟨beq_iff_eq.mp (Bool.and_eq_true_iff.mp held).1,beq_iff_eq.mp (Bool.and_eq_true_iff.mp held).2⟩
    rw [sendBackGroup (fun a held => (group a held).2),sendBackGroup (fun a held => (group a held).1)]
  · have demoted := reasonLiveness (reasonsTell distinct inside told) liveness
    obtain ⟨peer,there,absorbs,kept⟩ := peerKept within inside demoted
    have behind : account ∈ candidates.filter (demotes pool candidates now) := by
      refine List.mem_filter.mpr ⟨inside,?_⟩
      rw [demotes,demoted,Bool.or_true]
    obtain ⟨front,after,split⟩ := List.append_of_mem behind
    have ahead : peer ∈ candidates.filter (!demotes pool candidates now ·) := List.mem_filter.mpr ⟨there,by rw [kept]; rfl⟩
    refine ⟨candidates.filter (!demotes pool candidates now ·) ++ front,after,?_,peer,List.mem_append_left _ ahead,?_,absorbs⟩
    · rw [softIs,sendBack,split,List.append_assoc]
    · rw [show soft = _ from reorderIs]
      exact ahead

def sampleAccount (id : String) : Account := ⟨id,"codex",0,false,false,none,false,none,none,none,none,0,none,none⟩

def sampleCapacity (headroom : ℚ) : CapacitySignal :=
  ⟨.of headroom,.of 100,.of (100 - headroom),none,some (.of 900000000),.of headroom,none,none⟩

def samplePool : Readings where
  modelForAccount account := if account.id = "a" then "claude-opus-4" else "claude-fable-5"
  capacity account := some (sampleCapacity (if account.id = "a" then 15 else if account.id = "b" then 5 else 60))
  exhaustedFamilies _ := []
  lastProtectedFamilyDemand _ := none
  weeklyBurnSlope _ := none
  capacityRestoredProbePending _ := false

def sampleCandidates : List Account := [sampleAccount "a",sampleAccount "b",sampleAccount "c"]

theorem lastOneStays : (applySoftDemotionReorder samplePool sampleCandidates 0).order.map (·.id) = ["c","a","b"] ∧
    ∃ before after, (applySoftDemotionReorder samplePool sampleCandidates 0).order = before ++ sampleAccount "a"::after ∧
      ∃ peer ∈ before, peer ∈ (applySoftDemotionReorder samplePool sampleCandidates 0).kept ∧
        Absorbs samplePool 0 (livenessThreshold samplePool (sampleAccount "a")) peer := by
  refine ⟨by decide +kernel,?_⟩
  have sound := demotionsOnlyReorder samplePool ⟨fun _ => none,fun _ _ => none⟩ false 0 0 sampleCandidates (by decide +kernel)
    (fun a _ capacity fresh => by cases Option.some.inj fresh; exact le_refl _)
  exact sound.2.2.2 (sampleAccount "a") List.mem_cons_self .poolLiveness (by decide +kernel) rfl

end Clankermux.SoftDemotion
