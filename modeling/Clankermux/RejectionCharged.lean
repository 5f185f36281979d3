import Mathlib.Data.Nat.Cast.Order.Ring
import Clankermux.RejectionLadder

/-! A refusal is charged to the scope its own evidence names. -/
namespace Clankermux.RejectionLadder
open UnifiedClaims

section
variable {a b c : Number}

theorem latestBounds : a.above (a.latest b) = false ∧ b.above (a.latest b) = false := by
  unfold Number.latest
  split
  · rename_i higher
    cases a <;> cases b <;> simp_all [Number.above,le_of_lt]
  · rename_i lower
    exact ⟨by cases a <;> simp [Number.above],by simpa using lower⟩

theorem latestEither : a.latest b = a ∨ a.latest b = b := by
  unfold Number.latest
  split
  · exact .inr rfl
  · exact .inl rfl

theorem notAboveTrans (first : b.above a = false) (second : c.above b = false) : c.above a = false := by
  cases a <;> cases b <;> cases c <;> simp_all [Number.above]
  exact second.trans first

theorem latestOfAbove (higher : b.above a = true) : a.latest b = b := if_pos higher

end

section
variable {resets : List Number} {r : Number}

theorem latestFold (resets : List Number) (held : Number) : ∃ r, resets.foldl (fun latest reset => some ((latest.getD (.finite 0)).latest reset)) (some held) = some r ∧
    (r = held ∨ r ∈ resets) ∧ held.above r = false ∧ ∀ x ∈ resets, x.above r = false := by
  induction resets generalizing held with
  | nil => exact ⟨held,rfl,.inl rfl,by cases held <;> simp [Number.above],by simp⟩
  | cons reset rest ih =>
    obtain ⟨r,last,origin,bound,all⟩ := ih (held.latest reset)
    have bounds := latestBounds (a := held) (b := reset)
    refine ⟨r,last,?_,notAboveTrans bound bounds.1,?_⟩
    · obtain same | later := origin
      · obtain first | second := latestEither (a := held) (b := reset)
        · exact .inl (same.trans first)
        · exact .inr (by rw [same,second]; exact .head _)
      · exact .inr (.tail _ later)
    · intro x inside
      obtain rfl | later := List.mem_cons.mp inside
      · exact notAboveTrans bound bounds.2
      · exact all x later

theorem latestResetSome (positive : ∀ x ∈ resets, x.above (.finite 0) = true) (found : latestReset resets = some r) :
    r ∈ resets ∧ ∀ x ∈ resets, x.above r = false := by
  cases resets with
  | nil => cases found
  | cons reset rest =>
    have first : (Number.finite 0).latest reset = reset := latestOfAbove (positive reset (.head _))
    rw [latestReset,List.foldl_cons,Option.getD_none,first] at found
    obtain ⟨last,same,origin,bound,all⟩ := latestFold rest reset
    cases Option.some.inj (same.symm.trans found)
    refine ⟨?_,?_⟩
    · obtain rfl | later := origin
      · exact .head _
      · exact .tail _ later
    · intro x inside
      obtain rfl | later := List.mem_cons.mp inside
      · exact bound
      · exact all x later

theorem latestResetNone (none : latestReset resets = none) : resets = [] := by
  cases resets with
  | nil => rfl
  | cons reset rest =>
    obtain ⟨last,same,_⟩ := latestFold rest ((Number.finite 0).latest reset)
    cases same.symm.trans none

end

def Effect.charges : Effect → Bool
  | .enqueue (.markAccountRateLimited _ _) => true
  | .enqueue (.markAccountRateLimitedDeadlineOnly _ _) => true
  | .noteAccountWideCooldown => true
  | .armBurstRecoveryProbe _ => true
  | _ => false

def charges (effects : List Effect) : List Effect := effects.filter Effect.charges

structure Uncharged (before after : State) : Prop where
  account : after.account = before.account
  burst : after.burst = before.burst
  effects : ∃ added, after.effects = before.effects ++ added ∧ charges added = []

namespace Uncharged
variable {s t u : State}

theorem refl : Uncharged s s := ⟨rfl,rfl,[],(List.append_nil _).symm,rfl⟩

theorem trans (first : Uncharged s t) (second : Uncharged t u) : Uncharged s u := by
  obtain ⟨early,before,none⟩ := first.effects
  obtain ⟨late,after,neither⟩ := second.effects
  refine ⟨second.account.trans first.account,second.burst.trans first.burst,early ++ late,?_,?_⟩
  · rw [after,before,List.append_assoc]
  · rw [charges,List.filter_append]
    exact List.append_eq_nil_iff.mpr ⟨none,neither⟩

theorem emit {effect : Effect} (harmless : effect.charges = false) : Uncharged s (s.emit effect) :=
  ⟨rfl,rfl,[effect],rfl,by rw [charges,List.filter_cons_of_neg (by simp [harmless]),List.filter_nil]⟩

end Uncharged

section
variable {w : World} {attempt : Attempt} {s : State}

theorem persistUncharged : Uncharged s (persistRateLimitStatusMeta w attempt s) := by
  unfold persistRateLimitStatusMeta
  split
  · exact .refl
  · dsimp only
    split
    · exact .refl
    · exact .emit rfl

theorem persistMemo : (persistRateLimitStatusMeta w attempt s).memo = s.memo ∧
    (persistRateLimitStatusMeta w attempt s).refreshes = s.refreshes := by
  unfold persistRateLimitStatusMeta
  split
  · exact ⟨rfl,rfl⟩
  · dsimp only
    split <;> exact ⟨rfl,rfl⟩

theorem completeUncharged {outcome : ProbeOutcome} : Uncharged s (completeRateLimitProbe w outcome s) := by
  unfold completeRateLimitProbe
  split
  · exact .emit rfl
  · exact .refl

theorem completeMemo {outcome : ProbeOutcome} : (completeRateLimitProbe w outcome s).memo = s.memo ∧
    (completeRateLimitProbe w outcome s).refreshes = s.refreshes := by
  unfold completeRateLimitProbe
  split <;> exact ⟨rfl,rfl⟩

theorem refreshUncharged : Uncharged s s.refresh :=
  ⟨rfl,rfl,[.refreshNow],rfl,rfl⟩

variable (w attempt s) in
theorem sharedRefreshEither : sharedRefresh w attempt s = (s.refresh,true) ∨ sharedRefresh w attempt s = (s,false) :=
  ite_eq_or_eq _ _ _

theorem sharedRefreshUncharged : Uncharged s (sharedRefresh w attempt s).1 := by
  obtain taken | spared := sharedRefreshEither w attempt s
  · rw [taken]; exact refreshUncharged
  · rw [spared]; exact .refl

theorem sharedRefreshMemo : (sharedRefresh w attempt s).1.memo = s.memo := by
  obtain taken | spared := sharedRefreshEither w attempt s
  · rw [taken]; rfl
  · rw [spared]

theorem recordUncharged {id family resetAt} :
    Uncharged s (recordFamilyWeeklyExhausted w id family resetAt s).1 := by
  unfold recordFamilyWeeklyExhausted
  split
  · exact .refl
  · split
    · exact .refl
    · split
      · exact .refl
      · dsimp only
        split <;> exact ⟨rfl,rfl,[],(List.append_nil _).symm,rfl⟩

def MemoRoom (now : Nat) (memo : InsertionMap (String × ModelFamily) MemoEntry) (key : String × ModelFamily) : Prop :=
  let live := memo.filter (fun entry => decide ((now : ℚ) < entry.2.resetAt))
  live.length < maxMemoEntries ∨ (InsertionMap.get live key).isSome = true

theorem recordHolds {id family reset} (ahead : (w.now : ℚ) < reset)
    (near : reset ≤ w.now+maxMemoHorizonMs) (room : MemoRoom w.now s.memo (id,family)) :
    (recordFamilyWeeklyExhausted w id family (.finite reset) s).1.memo.get (id,family) = some ⟨reset,w.now⟩ := by
  unfold recordFamilyWeeklyExhausted
  dsimp only
  rw [if_neg (not_le.mpr ahead),if_neg (not_lt.mpr near)]
  have fits : ¬(maxMemoEntries ≤ (pruneExpired w s.memo).length ∧
      !((pruneExpired w s.memo).get (id,family)).isSome) := by
    intro ⟨full,unknown⟩
    obtain space | known := room
    · exact absurd full (not_le.mpr space)
    · exact absurd unknown (by simp only [pruneExpired,known]; decide)
  rw [if_neg fits]
  exact InsertionMap.getSetSelf

theorem rejectedWindowsMem {win reading} :
    (win,reading) ∈ rejectedWindows w attempt ↔ reading.claim = win.token ∧ rejectingStatuses.contains reading.status = true ∧
      attempt.headers.get (claimHeader win.token "status") = some reading.status ∧
      reading.resetMs = claimReset w.runtime attempt.headers win.token := by
  rw [rejectedWindows,List.mem_filterMap]
  constructor
  · intro ⟨found,inside,made⟩
    split at made
    · cases made
    · rename_i rejecting
      have rejecting : rejectingStatuses.contains found.status = true := by simpa using rejecting
      have claimed : found.claim = win.token ∧ found = reading := by
        split at made
        · rename_i claim
          cases made
          exact ⟨claim,rfl⟩
        · split at made
          · rename_i claim
            cases Option.some.inj made
            exact ⟨claim,rfl⟩
          · cases made
      obtain ⟨claim,rfl⟩ := claimed
      exact ⟨claim,rejecting,(readingMem claim).mp inside⟩
  · intro ⟨claim,rejecting,held⟩
    refine ⟨reading,(readingMem claim).mpr held,?_⟩
    rw [if_neg (by simpa using rejecting)]
    cases win with
    | fiveHour => exact if_pos claim
    | sevenDay =>
      have other : ¬reading.claim = "5h" := by rw [claim]; decide
      rw [if_neg other]
      exact if_pos claim

theorem rejectsReading {win : Window} (rejected : rejects attempt.headers win = true) :
    ∃ reading, (win,reading) ∈ rejectedWindows w attempt := by
  unfold rejects at rejected
  split at rejected
  · cases rejected
  · rename_i status held
    exact ⟨⟨win.token,status,claimReset w.runtime attempt.headers win.token⟩,
      rejectedWindowsMem.mpr ⟨rfl,rejected,held,rfl⟩⟩

theorem readingRejects {win reading} (inside : (win,reading) ∈ rejectedWindows w attempt) :
    rejects attempt.headers win = true := by
  obtain ⟨_,rejecting,held,_⟩ := rejectedWindowsMem.mp inside
  rw [rejects,held]
  exact rejecting

theorem noQuota {account : Account} (spared : hasAccountWideUnifiedRejection attempt.headers = false) :
    resolveLiveAccountQuota429 w attempt account = none := by
  have none : rejectedWindows w attempt = [] := by
    refine List.eq_nil_iff_forall_not_mem.mpr ?_
    intro (win,reading) inside
    have rejected := readingRejects inside
    rw [hasAccountWideUnifiedRejection,Bool.or_eq_false_iff] at spared
    cases win with
    | fiveHour => exact absurd rejected (by simp [spared.1])
    | sevenDay => exact absurd rejected (by simp [spared.2])
  rw [resolveLiveAccountQuota429,none]
  split <;> rfl

end

section
variable {rt : Runtime} {headers : Headers} {now r : ℚ}

theorem soonestFold (resets : List Number) (held : Number) :
    resets.foldl Number.soonest held = held ∨ resets.foldl Number.soonest held ∈ resets := by
  induction resets generalizing held with
  | nil => exact .inl rfl
  | cons reset rest ih =>
    rw [List.foldl_cons]
    obtain same | later := ih (held.soonest reset)
    · rw [same]
      obtain other | own : held.soonest reset = reset ∨ held.soonest reset = held := ite_eq_or_eq _ _ _
      · exact .inr (by rw [other]; exact .head _)
      · exact .inl own
    · exact .inr (.tail _ later)

theorem scopedResetAhead {rejection : ScopedClaimRejection} (found : getScopedClaimRejection rt headers now = some rejection)
    (known : rejection.soonestResetMs = some r) : now < r := by
  unfold getScopedClaimRejection at found
  split at found
  · cases found
  · cases found
    obtain infinite | inside := soonestFold ((rejectedScopes headers).filterMap (futureReset rt headers now)) .infinity
    · rw [infinite] at known
      cases known
    · obtain ⟨token,_,ahead⟩ := List.mem_filterMap.mp inside
      generalize ((rejectedScopes headers).filterMap (futureReset rt headers now)).foldl Number.soonest .infinity = soonest at known ahead
      unfold futureReset at ahead
      split at ahead
      · cases ahead
      · split at ahead
        · rename_i higher
          rw [Option.some.inj ahead] at higher
          cases soonest with
          | finite value =>
            cases Option.some.inj known
            simpa [Number.above] using higher
          | infinity => cases known
        · cases ahead

end

def knownReset (w : World) (attempt : Attempt) (usage : Usage) (family : ModelFamily) : Option ℚ :=
  match (getScopedClaimRejection w.runtime attempt.headers w.now).bind ScopedClaimRejection.soonestResetMs with
  | some reset => some reset
  | none => match usage.familyReset family with
    | some (.finite reset) => if w.now < reset then some reset else none
    | _ => none

structure ScopedCharge (w : World) (attempt : Attempt) (before after : State) (outcome : ProxyAttemptOutcome) : Prop where
  uncharged : Uncharged before after
  outcome : outcome = if attempt.isTrustedProbe .keepalive then .other else .modelQuotaExhausted
  memo : attempt.isTrustedProbe .any = false → ∀ family reset, requestedFamily attempt = some family →
    knownReset w attempt (w.usage after.refreshes) family = some reset → reset ≤ w.now+maxMemoHorizonMs →
    MemoRoom w.now before.memo (before.account.id,family) →
    after.memo.get (before.account.id,family) = some ⟨reset,w.now⟩

section
variable {w : World} {attempt : Attempt} {s : State}
variable {family : ModelFamily} {resetAt : Number}

theorem requestedFilled (requested : requestedFamily attempt = some family) :
    filled attempt.requestedModel = true := by
  unfold requestedFamily at requested
  split at requested
  · cases requested
  · rename_i model held
    split at requested
    · cases requested
    · rename_i named
      rw [held]
      simpa [filled] using named

theorem knownAhead {usage reset}
    (known : knownReset w attempt usage family = some reset) : (w.now : ℚ) < reset := by
  unfold knownReset at known
  split at known
  · rename_i own found
    cases known
    obtain ⟨rejection,made,soonest⟩ := Option.bind_eq_some_iff.mp found
    exact scopedResetAhead made soonest
  · split at known
    · split at known
      · rename_i ahead
        cases Option.some.inj known
        exact ahead
      · cases known
    · cases known

theorem knownExclusion {usage reset rejection}
    (requested : requestedFamily attempt = some family)
    (found : getScopedClaimRejection w.runtime attempt.headers w.now = some rejection)
    (known : knownReset w attempt usage family = some reset) :
    exclusionReset w rejection.soonestResetMs family (resolveFamilyWeeklyExclusion attempt usage) = .finite reset := by
  rw [knownReset,found,Option.bind_some] at known
  rw [resolveFamilyWeeklyExclusion,requested]
  cases own : rejection.soonestResetMs with
  | some held =>
    rw [own] at known
    cases known
    rfl
  | none =>
    rw [own] at known
    dsimp only at known ⊢
    split at known
    · rename_i held cached
      split at known
      · rename_i ahead
        cases Option.some.inj known
        rw [cached]
        exact if_pos ⟨rfl,ahead⟩
      · cases known
    · cases known

def remember (w : World) (family : ModelFamily) (resetAt : Number) (s : State) : State :=
  let recorded := recordFamilyWeeklyExhausted w s.account.id family resetAt s
  if recorded.2 && s.account.provider == "anthropic" then recorded.1.emit .markDue else recorded.1

theorem rememberUncharged : Uncharged s (remember w family resetAt s) := by
  unfold remember
  dsimp only
  split
  · exact recordUncharged.trans (.emit rfl)
  · exact recordUncharged

theorem rememberMemo :
    (remember w family resetAt s).memo = (recordFamilyWeeklyExhausted w s.account.id family resetAt s).1.memo := by
  unfold remember
  dsimp only
  split <;> rfl

theorem rememberRefreshes : (remember w family resetAt s).refreshes = s.refreshes := by
  have kept : (recordFamilyWeeklyExhausted w s.account.id family resetAt s).1.refreshes = s.refreshes := by
    unfold recordFamilyWeeklyExhausted
    split
    · rfl
    · split
      · rfl
      · split
        · rfl
        · dsimp only
          split <;> rfl
  unfold remember
  dsimp only
  split <;> exact kept

theorem familyRungSome {exclusion decided}
    (taken : familyRung w attempt exclusion s = some decided) : attempt.isTrustedProbe .any = false ∧
    ∃ family resetAt, decided = (persistRateLimitStatusMeta w attempt
      (completeRateLimitProbe w .abandoned (remember w family resetAt s)),.modelQuotaExhausted) := by
  unfold familyRung at taken
  split at taken
  · rename_i guard
    simp only [Bool.and_eq_true,Bool.not_eq_true'] at guard
    refine ⟨guard.1.1.2,?_⟩
    cases exclusion with
    | some pair => exact ⟨pair.1,_,(Option.some.inj taken).symm⟩
    | none =>
      dsimp only at taken
      split at taken
      · cases taken
      · rename_i family resetAt _
        exact ⟨family,resetAt,(Option.some.inj taken).symm⟩
  · cases taken

theorem familyRungUncharged {exclusion decided}
    (taken : familyRung w attempt exclusion s = some decided) :
    Uncharged s decided.1 ∧ decided.2 = .modelQuotaExhausted ∧ attempt.isTrustedProbe .any = false := by
  obtain ⟨client,family,resetAt,rfl⟩ := familyRungSome taken
  exact ⟨(rememberUncharged.trans completeUncharged).trans persistUncharged,rfl,client⟩

variable (only : ScopedOnly w.runtime attempt.headers)
include only

theorem familyRungTaken (official : s.account.official = true)
    (client : attempt.isTrustedProbe .any = false) (requested : requestedFamily attempt = some family) :
    ∃ rejection, getScopedClaimRejection w.runtime attempt.headers w.now = some rejection ∧
      familyRung w attempt (resolveFamilyWeeklyExclusionFromHeaders w attempt s.account) s =
        some (persistRateLimitStatusMeta w attempt (completeRateLimitProbe w .abandoned (remember w family
          (exclusionReset w rejection.soonestResetMs family (resolveFamilyWeeklyExclusion attempt (w.usage s.refreshes))) s)),
          .modelQuotaExhausted) := by
  obtain ⟨rejection,found⟩ := Option.isSome_iff_exists.mp (scopedRejectionSome.mpr only.narrow)
  refine ⟨rejection,found,?_⟩
  have exclusion : resolveFamilyWeeklyExclusionFromHeaders w attempt s.account = some (family,rejection.soonestResetMs) := by
    rw [resolveFamilyWeeklyExclusionFromHeaders,official,requested]
    dsimp only
    rw [if_neg (by decide),if_neg (not_not.mpr only.summary),if_neg (Option.isSome_iff_ne_none.mp only.headroom),found]
  rw [exclusion,familyRung,requestedFilled requested,client,only.notHard,only.noAccountRejection]
  simp only [Option.isSome_some,Bool.or_true]
  rfl

theorem burstRungPasses (tried : Bool) :
    ∃ t, burstRung w attempt tried s = (t,none) ∧ Uncharged s t := by
  unfold burstRung
  split
  · exact ⟨s,rfl,.refl⟩
  · dsimp only
    generalize (w.usage s.refreshes).routingCapacity burstRetryMaxUsageAgeMs = capacity
    have passed : ∀ (t : State) (known : Option ℚ), t.account = s.account →
        ∃ reason, classify429Transient w attempt t.account known = .final reason := by
      intro t known same
      unfold classify429Transient
      split
      · exact ⟨_,rfl⟩
      · rw [if_neg (by simp [only.notHard]),if_neg (by simp [only.noAccountRejection]),if_pos (scopedOnly.mpr only)]
        exact ⟨_,rfl⟩
    obtain same | same : (if capacity.isNone && !tried then s.refresh else s) = s.refresh ∨
        (if capacity.isNone && !tried then s.refresh else s) = s := ite_eq_or_eq _ _ _
    · rw [same]
      split
      · exact ⟨_,rfl,refreshUncharged⟩
      · rename_i burst
        obtain ⟨reason,final⟩ := passed s.refresh _ rfl
        cases final.symm.trans burst
    · rw [same]
      split
      · exact ⟨_,rfl,.refl⟩
      · rename_i burst
        obtain ⟨reason,final⟩ := passed s _ rfl
        cases final.symm.trans burst

theorem residualPasses (official : s.account.official = true) :
    Uncharged s (residualRung w attempt s).1 ∧
      (residualRung w attempt s).2 = if attempt.isTrustedProbe .keepalive then .other else .modelQuotaExhausted := by
  unfold residualRung
  split
  · exact ⟨.refl,rfl⟩
  · have spared : capResidualRung429Cooldown w attempt s.account (extractCooldownUntil w attempt (w.usage s.refreshes)).1 = none := by
      rw [capResidualRung429Cooldown,official,scopedOnly.mpr only]
      rfl
    dsimp only
    rw [spared]
    exact ⟨completeUncharged.trans persistUncharged,rfl⟩

theorem scopedCharge (official : s.account.official = true) (solvent : isAnthropicOutOfCredits attempt.headers = false) :
    ScopedCharge w attempt s (classify w attempt s).1 (classify w attempt s).2 := by
  have start : Uncharged s (sharedRefresh w attempt s).1 := sharedRefreshUncharged
  have memo : (sharedRefresh w attempt s).1.memo = s.memo := sharedRefreshMemo
  have narrow := scopedOnly.mpr only
  unfold classify
  simp only [noQuota only.noAccountRejection,ite_self,official,narrow,solvent,Bool.and_true,Bool.not_true,
    Bool.and_false,Bool.false_and,if_false,Bool.false_eq_true]
  generalize sharedRefresh w attempt s = refreshed at start memo ⊢
  obtain ⟨t,tried⟩ := refreshed
  have same : t.account.official = true := by rw [start.account,official]
  have noExhaustion : exhaustionRung w attempt t = none := by
    rw [exhaustionRung,same,narrow]
    simp
  rw [noExhaustion]
  cases rung : familyRung w attempt
      (if attempt.isTrustedProbe .any = true then none else resolveFamilyWeeklyExclusionFromHeaders w attempt s.account) t with
  | some decided =>
    obtain ⟨step,outcome,client⟩ := familyRungUncharged rung
    have awake : attempt.isTrustedProbe .keepalive = false := by
      revert client
      unfold Attempt.isTrustedProbe
      cases attempt.internal <;> cases attempt.keepalive <;> simp
    refine ⟨start.trans step,by rw [outcome,awake]; rfl,?_⟩
    intro _ family reset requested known near room
    rw [client,if_neg (by decide),← start.account] at rung
    obtain ⟨rejection,found,made⟩ := familyRungTaken only same client requested
    cases rung.symm.trans made
    have refreshes : ∀ u : State, (persistRateLimitStatusMeta w attempt (completeRateLimitProbe w .abandoned u)).memo = u.memo ∧
        (persistRateLimitStatusMeta w attempt (completeRateLimitProbe w .abandoned u)).refreshes = u.refreshes := fun u =>
      ⟨persistMemo.1.trans completeMemo.1,persistMemo.2.trans completeMemo.2⟩
    rw [(refreshes _).2,rememberRefreshes] at known
    rw [(refreshes _).1,rememberMemo,knownExclusion requested found known,start.account]
    exact recordHolds (knownAhead known) near (by rw [memo]; exact room)
  | none =>
    obtain ⟨u,passed,quiet⟩ := burstRungPasses (s := t) only tried
    rw [passed]
    have last := residualPasses only (by rw [quiet.account]; exact same)
    refine ⟨(start.trans quiet).trans last.1,last.2,?_⟩
    intro client family reset requested
    rw [client,if_neg (by decide),← start.account] at rung
    obtain ⟨_,_,made⟩ := familyRungTaken only same client requested
    cases rung.symm.trans made

omit only

end

structure UsableReset (w : World) (attempt : Attempt) (win : Window) (reset : Number) : Prop where
  rejects : rejects attempt.headers win = true
  claimed : claimReset w.runtime attempt.headers win.token = some reset
  ahead : reset.above w.instant = true
  near : reset.above (w.after (horizonMs win+resetToleranceMs)) = false

inductive QuotaDeadline (w : World) (attempt : Attempt) (reason : RateLimitReason) (before after : Account)
    (written : List Effect) : Prop where
  | directed (reset : Number) (usable : ∃ win, UsableReset w attempt win reset)
      (latest : ∀ win other, UsableReset w attempt win other → other.above reset = false)
      (deadline : after.rateLimitedUntil = some reset)
      (streak : after.consecutiveRateLimits = before.consecutiveRateLimits)
      (written : written = [.noteAccountWideCooldown,.enqueue (.markAccountRateLimitedDeadlineOnly reset reason)])
  | backoff (unusable : ∀ win reset, ¬UsableReset w attempt win reset)
      (deadline : after.rateLimitedUntil = some (w.after (computeRateLimitBackoffMs (before.consecutiveRateLimits+1))))
      (streak : after.consecutiveRateLimits = before.consecutiveRateLimits+1)
      (written : written = [.noteAccountWideCooldown,.enqueue (.markAccountRateLimited
        (w.after (computeRateLimitBackoffMs (before.consecutiveRateLimits+1))) reason)])

def exhaustedReason (attempt : Attempt) : RateLimitReason :=
  if rejects attempt.headers .sevenDay then .weeklyExhausted429 else .sessionExhausted429

structure QuotaCharge (w : World) (attempt : Attempt) (before after : State) (outcome : ProxyAttemptOutcome) : Prop where
  reason : after.account.rateLimitedReason = some (exhaustedReason attempt)
  since : after.account.rateLimitedAt = some w.now
  outcome : outcome = .hard429 after.account.rateLimitedUntil
  burst : after.burst = before.burst
  memo : after.memo = before.memo
  deadline : ∃ added, after.effects = before.effects ++ added ∧
    QuotaDeadline w attempt (exhaustedReason attempt) before.account after.account (charges added)

section
variable {w : World} {attempt : Attempt} {s : State}
variable {reason : RateLimitReason} {reset : Number}

theorem usableResetMem :
    reset ∈ (rejectedWindows w attempt).filterMap (usableReset w) ↔ ∃ win, UsableReset w attempt win reset := by
  rw [List.mem_filterMap]
  constructor
  · intro ⟨claim,inside,made⟩
    obtain ⟨win,reading⟩ := claim
    obtain ⟨_,_,_,resets⟩ := rejectedWindowsMem.mp inside
    unfold usableReset at made
    split at made
    · cases made
    · rename_i held own
      split at made
      · rename_i within
        cases Option.some.inj made
        rw [Bool.and_eq_true,Bool.not_eq_true'] at within
        exact ⟨win,readingRejects inside,resets.symm.trans own,within.1,within.2⟩
      · cases made
  · intro ⟨win,usable⟩
    obtain ⟨reading,inside⟩ := rejectsReading (w := w) usable.rejects
    obtain ⟨_,_,_,resets⟩ := rejectedWindowsMem.mp inside
    refine ⟨_,inside,?_⟩
    rw [usableReset,resets,usable.claimed]
    dsimp only
    rw [usable.ahead,usable.near]
    rfl

theorem weeklyRejected : (rejectedWindows w attempt).any (fun claim => claim.1 = .sevenDay) = rejects attempt.headers .sevenDay := by
  rw [Bool.eq_iff_iff,List.any_eq_true]
  constructor
  · intro ⟨claim,inside,weekly⟩
    obtain ⟨win,reading⟩ := claim
    cases of_decide_eq_true weekly
    exact readingRejects inside
  · intro rejected
    obtain ⟨reading,inside⟩ := rejectsReading (w := w) rejected
    exact ⟨_,inside,rfl⟩

theorem liveQuota {account : Account} (official : account.official = true)
    (solvent : isAnthropicOutOfCredits attempt.headers = false)
    (rejected : hasAccountWideUnifiedRejection attempt.headers = true) : resolveLiveAccountQuota429 w attempt account =
      some ⟨rejects attempt.headers .sevenDay,latestReset ((rejectedWindows w attempt).filterMap (usableReset w))⟩ := by
  have some : ∃ claim, claim ∈ rejectedWindows w attempt := by
    obtain session | weekly := Bool.or_eq_true_iff.mp rejected
    · exact ⟨_,(rejectsReading session).choose_spec⟩
    · exact ⟨_,(rejectsReading weekly).choose_spec⟩
  rw [resolveLiveAccountQuota429,official,solvent,← weeklyRejected (w := w)]
  obtain ⟨claim,inside⟩ := some
  cases claims : rejectedWindows w attempt with
  | nil => rw [claims] at inside; cases inside
  | cons first rest => rfl

theorem aboveInstantTruthy (ahead : reset.above w.instant = true) :
    truthy (some reset) = some reset ∧ reset.above (.finite 0) = true := by
  cases reset with
  | finite value =>
    have later : (w.now : ℚ) < value := by simpa [Number.above,World.instant] using ahead
    have positive : (0 : ℚ) < value := lt_of_le_of_lt (Nat.cast_nonneg _) later
    refine ⟨if_neg (fun zero => ?_),by simpa [Number.above] using positive⟩
    cases zero
    exact absurd positive (lt_irrefl _)
  | infinity => exact ⟨rfl,rfl⟩

theorem quotaNotBurst {quota : AccountQuota429} : quota.reason ≠ .modelFallback429 ∧
    isQuotaDerivedRateLimitReason quota.reason = true := by
  unfold AccountQuota429.reason
  split <;> exact ⟨by decide,rfl⟩

theorem armSpared {deadline : Number} (other : reason ≠ .modelFallback429) :
    armIfBurst reason deadline s = s := if_neg (fun both => other both.1)

def noted (w : World) (s : State) : State := completeRateLimitProbe w .cooldownReapplied (s.emit .noteAccountWideCooldown)

theorem notedEffects : (noted w s).account = s.account ∧ (noted w s).burst = s.burst ∧ (noted w s).memo = s.memo ∧
    ∃ added, (noted w s).effects = s.effects ++ .noteAccountWideCooldown::added ∧ charges added = [] := by
  unfold noted completeRateLimitProbe
  split
  · exact ⟨rfl,rfl,rfl,[.completeRateLimitProbe .cooldownReapplied],by simp [State.emit],rfl⟩
  · exact ⟨rfl,rfl,rfl,[],rfl,rfl⟩

theorem quotaBackoff (official : s.account.official = true)
    (derived : isQuotaDerivedRateLimitReason reason = true) :
    applyRateLimitCooldown w ⟨none,none,reason⟩ s = applyBackoff w ⟨none,none,reason⟩ (noted w s) := by
  rw [applyRateLimitCooldown]
  simp only [official,derived]
  rfl

theorem quotaDirected (official : s.account.official = true)
    (derived : isQuotaDerivedRateLimitReason reason = true) (ahead : reset.above w.instant = true) :
    applyRateLimitCooldown w ⟨some reset,none,reason⟩ s = applyServerDirected w reset reason (noted w s) := by
  rw [applyRateLimitCooldown]
  simp only [official,derived,(aboveInstantTruthy ahead).1]
  exact if_pos ahead

theorem directedCharge (other : reason ≠ .modelFallback429) :
    applyServerDirected w reset reason s = State.emit { s with account := { s.account with
      rateLimitedUntil := some reset
      rateLimitedAt := some w.now
      rateLimitedReason := some reason } } (.enqueue (.markAccountRateLimitedDeadlineOnly reset reason)) := by
  rw [applyServerDirected,armSpared other]

theorem backoffCharge (other : reason ≠ .modelFallback429) :
    applyBackoff w ⟨none,none,reason⟩ s = State.emit { s with account := { s.account with
      rateLimitedUntil := some (w.after (computeRateLimitBackoffMs (s.account.consecutiveRateLimits+1)))
      rateLimitedReason := some reason
      rateLimitedAt := some w.now
      consecutiveRateLimits := s.account.consecutiveRateLimits+1 } }
      (.enqueue (.markAccountRateLimited (w.after (computeRateLimitBackoffMs (s.account.consecutiveRateLimits+1))) reason)) := by
  rw [applyBackoff]
  dsimp only [truthy]
  rw [armSpared other]

theorem QuotaCharge.persist {t outcome} (charge : QuotaCharge w attempt s t outcome) :
    QuotaCharge w attempt s (persistRateLimitStatusMeta w attempt t) outcome := by
  have persisted : Uncharged t (persistRateLimitStatusMeta w attempt t) := persistUncharged
  obtain ⟨metas,extended,meek⟩ := persisted.effects
  obtain ⟨added,before,deadline⟩ := charge.deadline
  refine ⟨?_,?_,?_,persisted.burst.trans charge.burst,persistMemo.1.trans charge.memo,added ++ metas,?_,?_⟩
  · rw [persisted.account]; exact charge.reason
  · rw [persisted.account]; exact charge.since
  · rw [persisted.account]; exact charge.outcome
  · rw [extended,before,List.append_assoc]
  · rw [persisted.account,charges,List.filter_append]
    rw [charges] at meek
    rw [meek,List.append_nil]
    exact deadline

theorem chargedAppend {noting write} (harmless : charges noting = [])
    (charging : (Effect.enqueue write).charges = true) :
    charges (.noteAccountWideCooldown::noting ++ [.enqueue write]) = [.noteAccountWideCooldown,.enqueue write] := by
  rw [charges,List.cons_append,List.filter_cons_of_pos rfl,List.filter_append,List.filter_cons_of_pos charging]
  rw [charges] at harmless
  rw [harmless]
  rfl

theorem directedQuota (other : reason ≠ .modelFallback429)
    (names : reason = exhaustedReason attempt) (usable : ∃ win, UsableReset w attempt win reset)
    (latest : ∀ win other, UsableReset w attempt win other → other.above reset = false) :
    QuotaCharge w attempt s (applyServerDirected w reset reason (noted w s))
      (.hard429 (applyServerDirected w reset reason (noted w s)).account.rateLimitedUntil) := by
  obtain ⟨account,burst,memo,noting,before,harmless⟩ := notedEffects (w := w) (s := s)
  rw [directedCharge other,names]
  refine ⟨rfl,rfl,rfl,burst,memo,.noteAccountWideCooldown::noting ++
    [.enqueue (.markAccountRateLimitedDeadlineOnly reset (exhaustedReason attempt))],?_,?_⟩
  · rw [State.emit]
    rw [before,List.append_assoc]
  · have streak : (noted w s).account.consecutiveRateLimits = s.account.consecutiveRateLimits := by rw [account]
    exact .directed reset usable latest rfl streak (chargedAppend harmless rfl)

theorem backoffQuota (other : reason ≠ .modelFallback429)
    (names : reason = exhaustedReason attempt) (unusable : ∀ win reset, ¬UsableReset w attempt win reset) :
    QuotaCharge w attempt s (applyBackoff w ⟨none,none,reason⟩ (noted w s))
      (.hard429 (applyBackoff w ⟨none,none,reason⟩ (noted w s)).account.rateLimitedUntil) := by
  obtain ⟨account,burst,memo,noting,before,harmless⟩ := notedEffects (w := w) (s := s)
  rw [backoffCharge other,names,account]
  refine ⟨rfl,rfl,rfl,burst,memo,.noteAccountWideCooldown::noting ++ [.enqueue (.markAccountRateLimited
    (w.after (computeRateLimitBackoffMs (s.account.consecutiveRateLimits+1))) (exhaustedReason attempt))],?_,?_⟩
  · rw [State.emit]
    rw [before,List.append_assoc]
  · exact .backoff unusable rfl rfl (chargedAppend harmless rfl)

theorem quotaCharge (official : s.account.official = true) (solvent : isAnthropicOutOfCredits attempt.headers = false)
    (awake : attempt.isTrustedProbe .keepalive = false)
    (rejected : hasAccountWideUnifiedRejection attempt.headers = true) :
    QuotaCharge w attempt s (classify w attempt s).1 (classify w attempt s).2 := by
  have ladder : classify w attempt s = finishQuotaRejection w attempt
      ⟨rejects attempt.headers .sevenDay,latestReset ((rejectedWindows w attempt).filterMap (usableReset w))⟩ s := by
    unfold classify
    simp only [awake,liveQuota official solvent rejected,solvent,Bool.false_eq_true,if_false,Option.isNone_some,
      Bool.and_false,Bool.false_and]
  have positive : ∀ x ∈ (rejectedWindows w attempt).filterMap (usableReset w), x.above (.finite 0) = true := by
    intro x inside
    obtain ⟨win,usable⟩ := usableResetMem.mp inside
    exact (aboveInstantTruthy usable.ahead).2
  rw [ladder]
  generalize quotas : AccountQuota429.mk (rejects attempt.headers .sevenDay)
    (latestReset ((rejectedWindows w attempt).filterMap (usableReset w))) = quota
  have resets : quota.resetTime = latestReset ((rejectedWindows w attempt).filterMap (usableReset w)) := by rw [← quotas]
  have names : quota.reason = exhaustedReason attempt := by rw [← quotas,AccountQuota429.reason,exhaustedReason]
  have other : quota.reason ≠ .modelFallback429 := quotaNotBurst.1
  have kept : ∀ t : State, (persistRateLimitStatusMeta w attempt t).account = t.account := fun t => persistUncharged.account
  unfold finishQuotaRejection
  dsimp only
  rw [kept]
  cases held : quota.resetTime with
  | none =>
    have unusable : ∀ win reset, ¬UsableReset w attempt win reset := by
      intro win reset usable
      have inside := usableResetMem.mpr ⟨win,usable⟩
      rw [latestResetNone (resets.symm.trans held)] at inside
      cases inside
    rw [quotaBackoff official quotaNotBurst.2]
    exact (backoffQuota other names unusable).persist
  | some reset =>
    obtain ⟨inside,latest⟩ := latestResetSome positive (resets.symm.trans held)
    obtain ⟨win,usable⟩ := usableResetMem.mp inside
    rw [quotaDirected official quotaNotBurst.2 usable.ahead]
    refine (directedQuota other names ⟨win,usable⟩ ?_).persist
    intro otherWin later claim
    exact latest later (usableResetMem.mpr ⟨otherWin,claim⟩)

/-- For every refusal of the official upstream that is not about credits: a scoped-only
rejection leaves the account's limits alone, a rejecting account window is what is charged. -/
theorem refusalCharged (official : s.account.official = true) (solvent : isAnthropicOutOfCredits attempt.headers = false) :
    (isScopedOnlyUnifiedRejection w.runtime attempt.headers = true →
      ScopedCharge w attempt s (classify w attempt s).1 (classify w attempt s).2) ∧
    (attempt.isTrustedProbe .keepalive = false → rejects attempt.headers .fiveHour = true ∨ rejects attempt.headers .sevenDay = true →
      QuotaCharge w attempt s (classify w attempt s).1 (classify w attempt s).2) := by
  refine ⟨fun narrow => scopedCharge (scopedOnly.mp narrow) official solvent,fun awake rejected => ?_⟩
  exact quotaCharge official solvent awake (Bool.or_eq_true_iff.mpr rejected)

end

def digitsValue (digits : List Char) : Nat := digits.foldl (fun value ch => 10*value+(ch.toNat-48)) 0

def decimalValue (text : String) : ℚ :=
  let fraction := (text.toList.dropWhile Char.isDigit).drop 1
  (digitsValue (text.toList.takeWhile Char.isDigit) : ℚ)+(digitsValue fraction : ℚ)/((Nat.pow 10 fraction.length : Nat) : ℚ)

def plainRuntime : Runtime where
  parseFloat text := .finite (decimalValue text)
  toNumber text := if strictDecimal text then some (.finite (decimalValue text)) else none
  dateTime _ := none
  rounded value := .finite value

def idleUsage : Usage where
  routingCapacity _ := some (1/2)
  pollCapacity _ := some (1/2)
  namesFamily _ := false
  exhaustion := ⟨false,false,none⟩
  familyReset _ := none
  rateLimitedUntil := none

def exampleWorld : World where
  runtime := plainRuntime
  now := 1800000000000
  usage _ := idleUsage
  refreshed := true
  probeLease := false

def exampleState : State where
  account := ⟨"account","anthropic",none,some "token",none,none,none,0⟩
  burst := none
  memo := []
  refreshes := 0
  effects := []

def familyHeaders (reset : String) : Headers where
  lines := [("anthropic-ratelimit-unified-5h-status","allowed"),("anthropic-ratelimit-unified-5h-utilization","0.3"),
    ("anthropic-ratelimit-unified-7d-status","allowed"),("anthropic-ratelimit-unified-7d-utilization","0.94"),
    ("anthropic-ratelimit-unified-7d_oi-reset",reset),("anthropic-ratelimit-unified-7d_oi-status","rejected"),
    ("anthropic-ratelimit-unified-status","rejected")]
  distinct := (by decide : ["anthropic-ratelimit-unified-5h-status","anthropic-ratelimit-unified-5h-utilization",
    "anthropic-ratelimit-unified-7d-status","anthropic-ratelimit-unified-7d-utilization",
    "anthropic-ratelimit-unified-7d_oi-reset","anthropic-ratelimit-unified-7d_oi-status",
    "anthropic-ratelimit-unified-status"].Nodup)

def exampleAttempt (reset : String) : Attempt where
  headers := familyHeaders reset
  requestedModel := some "claude-fable-5"
  reprobe := false
  internal := false
  keepalive := false
  autoRefresh := false

theorem refusalChargedWeekly : ScopedCharge exampleWorld (exampleAttempt "1800086400") exampleState
    (classify exampleWorld (exampleAttempt "1800086400") exampleState).1
    (classify exampleWorld (exampleAttempt "1800086400") exampleState).2 :=
  (refusalCharged (by decide +kernel) (by decide +kernel)).1 (by decide +kernel)

/-- A reset fifteen days ahead is known, and not recorded. -/
theorem distantResetForgotten :
    isScopedOnlyUnifiedRejection exampleWorld.runtime (exampleAttempt "1801296000").headers = true ∧
    (exampleAttempt "1801296000").isTrustedProbe .any = false ∧
    requestedFamily (exampleAttempt "1801296000") = some .fable ∧
    knownReset exampleWorld (exampleAttempt "1801296000") idleUsage .fable = some 1801296000000 ∧
    (classify exampleWorld (exampleAttempt "1801296000") exampleState).1.memo.get ("account",.fable) = none := by
  decide +kernel

end Clankermux.RejectionLadder
