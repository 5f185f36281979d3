import Clankermux.CodexResetTick

/-! Which account's attempt takes the weekly slot of a tick: what the ledger keeps of pending
weekly-limit attempts, and what each part of the tick dispatches. -/
namespace Clankermux.CodexReset
open Fallible

def Ledger.WeeklyOldest (id : String) (ledger : Ledger) : Prop :=
  ∀ row ∈ ledger, row.unresolvedFor id = true → row.cause = some .weeklyLimit →
    ∀ other ∈ ledger, other.unresolvedFor id = true → other = row ∨ row.createdAt < other.createdAt

inductive LedgerEvent where
  | claim (input : ClaimInput) (attemptSeq : Nat)
  | withdraw (id : String)
  | change (change : Change)

def ledgers : Machine Ledger LedgerEvent where
  init ledger := ledger = []
  step ledger
    | .claim input attemptSeq => some (ledger.insertAttempt input attemptSeq).2
    | .withdraw id => some (ledger.withdrawPendingAttempt id).2
    | .change change => some (ledger.change change)

def StampedLater (ledger : Ledger) : LedgerEvent → Prop
  | .claim input _ => ∀ row ∈ ledger, row.accountId = input.accountId → row.createdAt < input.now
  | _ => True

namespace Ledger
variable {ledger : Ledger} {id : String}

theorem WeeklyOldest.subset {other} (oldest : ledger.WeeklyOldest id)
    (inside : ∀ row ∈ other, row.unresolvedFor id = true → row ∈ ledger) : WeeklyOldest id other :=
  fun row here pending cause next there waiting =>
    oldest row (inside row here pending) pending cause next (inside next there waiting) waiting
variable {row : CodexResetCreditEventRow}

theorem unresolvedResolve {rowId status now}
    (here : row ∈ ledger.resolveAttempt rowId status now) (pending : row.unresolvedFor id = true) : row ∈ ledger := by
  obtain ⟨original,there,rfl⟩ := List.mem_map.mp here
  by_cases hit : (original.id == rowId && original.status == .pending) = true
  · simp [hit,CodexResetCreditEventRow.unresolvedFor] at pending
  · simpa [hit] using there

theorem unresolvedManual {rowId accountId key creditId status now} (here : row ∈ ledger.recordManual rowId accountId creditId key status now)
    (pending : row.unresolvedFor id = true) : row ∈ ledger := by
  rcases List.mem_append.mp here with there | last
  · exact there
  · simp only [List.mem_singleton] at last
    simp [last,CodexResetCreditEventRow.unresolvedFor] at pending

theorem WeeklyOldest.change (oldest : ledger.WeeklyOldest id) (change : Change) : (ledger.change change).WeeklyOldest id := by
  cases change with
  | resolve rowId status now => exact oldest.subset fun row here pending => unresolvedResolve here pending
  | manual rowId accountId creditId key status now =>
    exact oldest.subset fun row here pending => unresolvedManual here pending

theorem WeeklyOldest.changed (oldest : ledger.WeeklyOldest id) (changes : List Change) :
    (ledger.changed changes).WeeklyOldest id := by
  induction changes generalizing ledger with
  | nil => exact oldest
  | cons change rest ih => exact ih (oldest.change change)

theorem WeeklyOldest.withdraw (oldest : ledger.WeeklyOldest id) (rowId : String) :
    (ledger.withdrawPendingAttempt rowId).2.WeeklyOldest id :=
  oldest.subset fun _ here _ => (List.mem_filter.mp here).1

theorem insertCases (input : ClaimInput) (attemptSeq : Nat) :
    (ledger.insertAttempt input attemptSeq).2 = ledger ∨
      ((ledger.insertAttempt input attemptSeq).2 = ledger ++ [attemptRow input attemptSeq] ∧
        (input.cause = .weeklyLimit → ∀ row ∈ ledger, row.unresolvedFor input.accountId = false)) := by
  simp only [insertAttempt]
  split
  · next free =>
    refine .inr ⟨rfl,fun weekly row here => ?_⟩
    simp only [weekly,Bool.and_eq_true,Bool.or_eq_true] at free
    rcases free.1 with impossible | none_
    · simp at impossible
    · simp only [Bool.not_eq_true',List.any_eq_false] at none_
      simpa using none_ row here
  · exact .inl rfl

theorem WeeklyOldest.insertOther (oldest : ledger.WeeklyOldest id) (input : ClaimInput) (attemptSeq : Nat)
    (other : input.accountId ≠ id) : (ledger.insertAttempt input attemptSeq).2.WeeklyOldest id := by
  rcases ledger.insertCases input attemptSeq with same | ⟨added,-⟩
  · rwa [same]
  · rw [added]
    refine oldest.subset fun row here pending => ?_
    rcases List.mem_append.mp here with there | last
    · exact there
    · simp only [List.mem_singleton] at last
      simp [last,attemptRow,CodexResetCreditEventRow.unresolvedFor,other] at pending

theorem WeeklyOldest.insertOwn (oldest : ledger.WeeklyOldest id) (input : ClaimInput) (attemptSeq : Nat)
    (own : input.accountId = id) (later : ∀ row ∈ ledger, row.accountId = id → row.createdAt < input.now) :
    (ledger.insertAttempt input attemptSeq).2.WeeklyOldest id := by
  rcases ledger.insertCases input attemptSeq with same | ⟨added,alone⟩
  · rwa [same]
  · rw [added]
    intro row here pending cause other there waiting
    have owns : ∀ {row : CodexResetCreditEventRow}, row.unresolvedFor id = true → row.accountId = id := fun mine => by
      simp only [CodexResetCreditEventRow.unresolvedFor,Bool.and_eq_true,beq_iff_eq] at mine
      exact mine.1.1
    rcases List.mem_append.mp here with old | new
    · rcases List.mem_append.mp there with past | last
      · exact oldest row old pending cause other past waiting
      · rw [List.mem_singleton.mp last]
        exact .inr (later row old (owns pending))
    · obtain rfl := List.mem_singleton.mp new
      have weekly : input.cause = .weeklyLimit := by simpa [attemptRow] using cause
      rcases List.mem_append.mp there with past | last
      · exact absurd waiting (by simpa [own] using alone weekly other past)
      · exact .inl (List.mem_singleton.mp last)

theorem weeklyOldest (reach : ledgers.ReachableUnder StampedLater ledger) (id : String) : ledger.WeeklyOldest id := by
  refine reach.invariant (P := WeeklyOldest id) (fun s start => ?_) (fun s e t oldest meets step => ?_)
  · obtain rfl : s = [] := start
    exact fun row here => nomatch here
  · cases e with
    | claim input attemptSeq =>
      cases step
      by_cases own : input.accountId = id
      · exact oldest.insertOwn input attemptSeq own fun row here same => meets row here (same.trans own.symm)
      · exact oldest.insertOther input attemptSeq own
    | withdraw rowId =>
      obtain rfl := Option.some.inj step
      exact oldest.withdraw rowId
    | change change =>
      cases step
      exact oldest.change change

theorem findWeekly (oldest : ledger.WeeklyOldest id) (here : row ∈ ledger)
    (pending : row.unresolvedFor id = true) (cause : row.cause = some .weeklyLimit) :
    ledger.findPendingForAccount id = some row := by
  unfold findPendingForAccount
  cases found : (ledger.filter (·.unresolvedFor id)).argmin (fun row => toLex (row.createdAt,row.id)) with
  | none =>
    rw [List.argmin_eq_none] at found
    have inside : row ∈ ledger.filter (·.unresolvedFor id) := List.mem_filter.mpr ⟨here,pending⟩
    rw [found] at inside
    cases inside
  | some least =>
    obtain ⟨there,waiting⟩ := List.mem_filter.mp (List.argmin_mem found)
    rcases oldest row here pending cause least there waiting with same | later
    · rw [same]
    · have least := List.le_of_mem_argmin (List.mem_filter.mpr ⟨here,pending⟩) found
      rw [Prod.Lex.toLex_le_toLex] at least
      rcases least with before | ⟨same,-⟩
      · exact absurd before (lt_asymm later)
      · exact absurd same (ne_of_gt later)

theorem findMember (found : ledger.findPendingForAccount id = some row) :
    row ∈ ledger ∧ row.unresolvedFor id = true := List.mem_filter.mp (List.argmin_mem found)

end Ledger
variable {inputs : DecisionInputs} {expiresAt : Option Int} {creditId : String}

theorem weeklyTriggerCause {available cause} (fires : inputs.weeklyTrigger available = .consume creditId expiresAt cause) :
    inputs.weeklyResetsAt.isSome := by
  unfold DecisionInputs.weeklyTrigger at fires
  split at fires
  · cases fires
  · split at fires
    · cases fires
    · split at fires
      · cases fires
      · next known => simp [known]

theorem expiryTriggerCause {available cause} (fires : inputs.expiryTrigger available = .consume creditId expiresAt cause) :
    cause = .expiry := by
  unfold DecisionInputs.expiryTrigger at fires
  dsimp only at fires
  split at fires
  · cases fires
  · split at fires
    · cases fires
      rfl
    · cases fires

theorem weeklyKnowsReset
    (decided : decideResetCreditAction inputs = .consume creditId expiresAt .weeklyLimit) : inputs.weeklyResetsAt.isSome := by
  unfold decideResetCreditAction at decided
  dsimp only at decided
  iterate 5
    split at decided
    · cases decided
  split at decided
  · next fires =>
    cases decided
    split at fires
    · cases expiryTriggerCause (Option.some.inj fires)
    · cases fires
  · next quiet =>
    split at decided
    · next fires =>
      cases decided
      split at fires
      · exact weeklyTriggerCause (Option.some.inj fires)
      · cases fires
    · next still expiry weekly =>
      split at decided
      · exact (quiet _ _ _ (expiry.trans (congrArg some decided))).elim
      · exact (still _ _ _ decided).elim
    · next expiry _ =>
      exact (quiet _ _ _ (expiry.trans (congrArg some decided))).elim
    · next still _ _ => exact (still _ _ _ decided).elim
    · cases decided

namespace Env
variable {env : Env} {log : List Dispatched}

theorem callEnsures {α : Type} (site : Site) (id : String) (c : Call) (effect : Ledger → α × Ledger) :
    Ensures (fun w => w.dispatched = log) (env.call site id c effect) (fun _ w => w.dispatched = log)
      (fun e w => e = .thrown ∧ w.dispatched = log) := by
  intro w here
  unfold call
  by_cases throws : (env.answers site id).throws c = true
  · simpa [throws] using here
  · simpa [throws] using here

theorem readEnsures {α : Type} (site : Site) (id : String) (c : Call) (answer : Answers → α) :
    Ensures (fun w => w.dispatched = log) (env.read site id c answer)
      (fun a w => a = answer (env.answers site id) ∧ w.dispatched = log) (fun e w => e = .thrown ∧ w.dispatched = log) := by
  intro w here
  unfold read call
  by_cases throws : (env.answers site id).throws c = true
  · simpa [throws] using here
  · simpa [throws] using here

theorem nowEnsures (site : Site) (moment : Moment) (id : String) :
    Ensures (fun w => w.dispatched = log) (env.deps.now site moment id)
      (fun a w => a = (env.answers site id).now moment ∧ w.dispatched = log) (fun e w => e = .thrown ∧ w.dispatched = log) :=
  fun _ here => ⟨rfl,here⟩

theorem evaluateEnsures (site : Site) (id : String) (replayedCreditId : Option String) :
    Ensures (fun w => w.dispatched = log) (evaluate env.deps site id replayedCreditId)
      (fun result w => w.dispatched = log ∧ ∀ creditId expiresAt cause resetsAt,
        result = some ⟨.consume creditId expiresAt cause,resetsAt⟩ →
          (replayedCreditId = none → env.decided site id = some (.consume creditId expiresAt cause)) ∧
            (cause = .weeklyLimit → replayedCreditId = none ∧ resetsAt.isSome))
      (fun e w => e = .thrown ∧ w.dispatched = log) := by
  refine (readEnsures site id .getAccount (·.account)).bind fun account => ensuresGiven fun owner => ?_
  cases account with
  | none =>
    refine ensuresPure fun w here => ⟨here,?_⟩
    rintro _ _ _ _ ⟨⟩
  | some account =>
    refine (readEnsures site id .getCachedCredits (·.credits)).bind fun cached => ensuresGiven fun credits => ?_
    refine (readEnsures site id .getTerminallyResolvedCreditIds (·.terminallyResolvedCreditIds)).bind
      fun resolved => ensuresGiven fun terminal => ?_
    refine (readEnsures site id .getWeeklyWindow (·.weeklyWindow)).bind fun window => ensuresGiven fun weekly => ?_
    refine (readEnsures site id .getAutoApplyCooldownAnchorAt (·.cooldownAnchorAt)).bind
      fun cooldownAnchorAt => ensuresGiven fun anchor => ?_
    refine (nowEnsures site .deciding id).bind fun now => ensuresGiven fun clock => ?_
    have same : replayedCreditId = none → env.decided site id = some (decideResetCreditAction
        { account := account
          credits := cached.map (·.filter (fun credit => some credit.id != replayedCreditId))
          terminallyResolvedCreditIds := resolved
          weeklyUsedPercent := window.usedPercent
          weeklyResetsAt := window.resetsAt
          autoApplyCooldownAnchorAt := cooldownAnchorAt
          now := now }) := by
      rintro rfl
      subst credits terminal weekly anchor clock
      have all : (fun credit : CodexRateLimitResetCredit => some credit.id != none) = fun _ => true := rfl
      simp [decided,← owner,all]
    dsimp only
    generalize its : decideResetCreditAction _ = decision at same
    split
    · next creditId expiresAt =>
      split
      · refine ensuresPure fun w here => ⟨here,?_⟩
        rintro _ _ _ _ ⟨⟩
      · next unreplayed =>
        refine (readEnsures site id .hasOtherAvailableCodexAccount (·.otherAvailable)).bind fun other => ensuresGiven fun _ => ?_
        cases other with
        | true =>
          refine ensuresPure fun w here => ⟨here,?_⟩
          rintro _ _ _ _ ⟨⟩
        | false =>
          refine ensuresPure fun w here => ⟨here,?_⟩
          rintro _ _ _ _ ⟨⟩
          have fresh : replayedCreditId = none := by simpa using unreplayed
          exact ⟨same,fun _ => ⟨fresh,weeklyKnowsReset its⟩⟩
    · next other =>
      refine ensuresPure fun w here => ⟨here,?_⟩
      intro creditId expiresAt cause resetsAt result
      obtain ⟨decided,-⟩ := Evaluated.mk.inj (Option.some.inj result)
      refine ⟨fun none_ => (same none_).trans (congrArg some decided),fun weekly => ?_⟩
      subst weekly
      exact (other _ _ decided).elim

theorem claimEnsures (site : Site) (input : ClaimInput) :
    Ensures (fun w => w.dispatched = log) (env.deps.claimAutoAttempt site input) (fun _ w => w.dispatched = log)
      (fun e w => e = .thrown ∧ w.dispatched = log) := by
  have mint : ∀ attemptSeq, Ensures (fun w => w.dispatched = log)
      (claimAutoAttempt.mint (fun statement => env.call site input.accountId statement.call) input attemptSeq)
      (fun _ w => w.dispatched = log) (fun e w => e = .thrown ∧ w.dispatched = log) := by
    intro attemptSeq
    refine (callEnsures site input.accountId .insert _).bind fun inserted => ?_
    cases inserted with
    | true => exact ensuresPure fun _ here => here
    | false =>
      refine (callEnsures site input.accountId .winner _).bind fun winner => ?_
      cases winner with
      | none => exact ensuresPure fun _ here => here
      | some row =>
        dsimp only
        split <;> exact ensuresPure fun _ here => here
  refine (callEnsures site input.accountId .latest _).bind fun latest => ?_
  cases latest with
  | none => exact mint 1
  | some row =>
    dsimp only
    split
    · exact ensuresPure fun _ here => here
    · split
      · exact ensuresPure fun _ here => here
      · exact mint _

theorem dispatchEnsures (site : Site) (id creditId : String) (cause : ResetCreditApplyCause) (claim : CodexResetCreditAutoClaim) :
    Ensures (fun w => w.dispatched = log) (dispatchAttempt env.deps site id creditId cause claim)
      (fun _ w => w.dispatched = log ++ [⟨site,id,⟨claim.idempotencyKey,creditId,claim.id,cause,claim.reused⟩⟩])
      (fun _ _ => False) := by
  generalize sent : log ++ [(⟨site,id,⟨claim.idempotencyKey,creditId,claim.id,cause,claim.reused⟩⟩ : Dispatched)] = after
  have recorded : Ensures (fun w => w.dispatched = log)
      (record ⟨site,id,⟨claim.idempotencyKey,creditId,claim.id,cause,claim.reused⟩⟩) (fun _ w => w.dispatched = after)
      (fun e w => e = .thrown ∧ w.dispatched = after) := fun w here => by
    change w.dispatched ++ _ = after
    rw [here,sent]
  have consumed := recorded.bind fun _ => (@readEnsures env after _ site id .dispatchConsume (·.outcome)).post
    fun _ _ post => post.2
  refine Ensures.bind (R := fun _ w => w.dispatched = after)
    ((consumed.bind fun outcome => ensuresPure fun _ here => here).caught (ensuresPure fun _ here => here)) fun outcome => ?_
  split
  · split
    · exact ensuresPure fun _ here => here
    · have withdrawn : Ensures (fun w => w.dispatched = after) (withdrawUnsentClaim env.deps site id claim)
          (fun _ w => w.dispatched = after) (fun _ _ => False) :=
        Ensures.caught (callEnsures site id .withdrawPendingAttempt (·.withdrawPendingAttempt claim.id)) (ensuresPure fun _ here => here)
      exact withdrawn.bind fun _ => ensuresPure fun _ here => here
  · exact ensuresPure fun _ here => here

theorem confirmEnsures (site : Site) (candidate : Candidate) (pending : Option CodexResetCreditEventRow)
    (replayedCreditId : Option String) :
    Ensures (fun w => w.dispatched = log) (confirmAndDispatch env.deps site candidate pending replayedCreditId)
      (fun dispatched w => if dispatched
        then pending = none ∧ replayedCreditId = none ∧
          (∃ creditId expiresAt, env.decided site candidate.id = some (.consume creditId expiresAt .weeklyLimit)) ∧
          ∃ request, request.cause = .weeklyLimit ∧ w.dispatched = log ++ [⟨site,candidate.id,request⟩]
        else w.dispatched = log ∨ ∃ request, request.cause = .expiry ∧ w.dispatched = log ++ [⟨site,candidate.id,request⟩])
      (fun e w => e = .thrown ∧ w.dispatched = log) := by
  refine (readEnsures site candidate.id .refreshCredits (·.refreshed)).bind fun refreshed => ensuresGiven fun _ => ?_
  cases refreshed with
  | false => exact ensuresPure fun _ here => .inl here
  | true =>
    refine (evaluateEnsures site candidate.id replayedCreditId).bind fun confirmed => ?_
    split
    · next creditId expiresAt cause resetsAt =>
      refine Ensures.pre (P := fun w => ((replayedCreditId = none →
        env.decided site candidate.id = some (.consume creditId expiresAt cause)) ∧
          (cause = .weeklyLimit → replayedCreditId = none ∧ resetsAt.isSome)) ∧ w.dispatched = log) ?_
        (fun w here => ⟨here.2 _ _ _ _ rfl,here.1⟩)
      refine ensuresGiven fun fires => ?_
      split
      · exact ensuresPure fun _ here => .inl here
      · next free =>
        refine (nowEnsures site .claiming candidate.id).bind fun now => ensuresGiven fun _ => ?_
        refine (claimEnsures site _).bind fun claim => ?_
        cases claim with
        | none => exact ensuresPure fun _ here => .inl here
        | some claim =>
          refine ((dispatchEnsures site candidate.id creditId cause claim).weaken (fun _ here => here) (fun _ _ here => here)
            (fun _ _ never => never.elim)).bind fun _ => ensuresPure fun w here => ?_
          cases cause with
          | expiry => exact .inr ⟨_,rfl,here⟩
          | weeklyLimit =>
            have none_ : pending = none := by simpa using free
            have unreplayed := (fires.2 rfl).1
            exact ⟨none_,unreplayed,⟨_,_,fires.1 unreplayed⟩,_,rfl,here⟩
    · exact ensuresPure fun _ here => .inl here.1

theorem discoverEnsures (candidate : Candidate) (pending : Option CodexResetCreditEventRow) (replayedCreditId : Option String)
    (weeklyHeld : Bool) (kept : weeklyHeld = true → replayedCreditId ≠ none)
    (steady : pending = none → ¬ env.TurnsWeekly candidate.id) :
    Ensures (fun w => w.dispatched = log) (discover env.deps candidate pending replayedCreditId weeklyHeld)
      (fun pass w => w.freshWeekly = log.filter (·.freshWeekly) ∧ (pass = some .weeklyHeld ↔ weeklyHeld = true))
      (fun _ _ => False) := by
  have hold : ((if weeklyHeld = true then some Pass.weeklyHeld else none) = some .weeklyHeld ↔ weeklyHeld = true) := by
    cases weeklyHeld <;> simp
  have quiet : ∀ w : World, w.dispatched = log → w.freshWeekly = log.filter (·.freshWeekly) := fun w here => by
    rw [World.freshWeekly,here]
  have only : ∀ {α} {prog : Fallible World α} {Q : α → World → Prop},
      Ensures (fun w => w.dispatched = log) prog Q (fun e w => e = .thrown ∧ w.dispatched = log) →
      Ensures (fun w => w.dispatched = log) prog Q (fun e w => e = .thrown ∧ w.freshWeekly = log.filter (·.freshWeekly)) :=
    fun first => first.weaken (fun _ here => here) (fun _ _ here => here) fun _ w here => ⟨here.1,quiet w here.2⟩
  refine Ensures.caught (H := fun w => w.freshWeekly = log.filter (·.freshWeekly)) ?_ (ensuresPure fun w here => ⟨here,hold⟩)
  refine (only (readEnsures .discovery candidate.id .refreshCredits (·.refreshed))).bind fun _ => ensuresGiven fun _ => ?_
  refine (only (evaluateEnsures .discovery candidate.id replayedCreditId)).bind fun evaluated => ?_
  split
  · next creditId expiresAt cause resetsAt =>
    refine Ensures.pre (P := fun w => ((replayedCreditId = none →
      env.decided .discovery candidate.id = some (.consume creditId expiresAt cause)) ∧
        (cause = .weeklyLimit → replayedCreditId = none ∧ resetsAt.isSome)) ∧ w.dispatched = log) ?_
      (fun w here => ⟨here.2 _ _ _ _ rfl,here.1⟩)
    refine ensuresGiven fun fires => ?_
    split
    · next resets =>
      refine ensuresPure fun w here => ⟨quiet w here,?_⟩
      have unheld : weeklyHeld ≠ true := fun held => kept held (fires.2 rfl).1
      simp [unheld]
    · next proposes =>
      have expiry : cause = .expiry := by
        cases cause with
        | expiry => rfl
        | weeklyLimit =>
          obtain ⟨at_,known⟩ := Option.isSome_iff_exists.mp (fires.2 rfl).2
          exact (proposes at_ rfl known).elim
      subst expiry
      refine (only (confirmEnsures .confirmation candidate pending replayedCreditId)).bind fun dispatched =>
        ensuresPure fun w here => ⟨?_,hold⟩
      cases dispatched with
      | true =>
        obtain ⟨none_,unreplayed,confirmed,-⟩ := here
        exact (steady none_ ⟨⟨_,_,fires.1 unreplayed⟩,confirmed⟩).elim
      | false =>
        rcases here with same | ⟨request,cause,sent⟩
        · exact quiet w same
        · simp [World.freshWeekly,sent,Dispatched.freshWeekly,cause]
  · exact ensuresPure fun w here => ⟨quiet w here.1,hold⟩

end Env
end Clankermux.CodexReset
