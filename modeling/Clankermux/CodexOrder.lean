import Clankermux.CodexCoordinator
import Clankermux.History

/-! Observations are applied in the order in which they were issued. `Effect` says what
one step can do to the two sequence maps and to the trace; the order follows. -/
namespace Clankermux.CodexSpendCoordinator
open InsertionMap History

def Happened.bystander : Happened → Bool
  | .joined _ _ | .finished _ _ => true
  | _ => false

def Quiet (added : List Happened) : Prop := ∀ h ∈ added, h.bystander = true

theorem quietNil : Quiet [] := by
  intro h member
  cases member

theorem quietOne {h} (its : h.bystander = true) : Quiet [h] := by
  intro other member
  rw [List.mem_singleton.mp member]
  exact its

inductive Effect (c after : Coordinator) : Prop where
  | quiet (added : List Happened) (bystanders : Quiet added) (trace : after.trace = added ++ c.trace)
      (counters : after.applicationSeqCounter = c.applicationSeqCounter)
      (last : after.lastAppliedSeq = c.lastAppliedSeq)
  | issued (accountId : String)
      (trace : after.trace = .issued accountId (sequenceCounter c accountId + 1)::c.trace)
      (counters : after.applicationSeqCounter =
        set c.applicationSeqCounter accountId (sequenceCounter c accountId + 1))
      (last : after.lastAppliedSeq = c.lastAppliedSeq)
  | claimed (accountId : String) (seq : Nat) (newest : lastApplied c accountId < seq)
      (trace : after.trace = .claimed accountId seq::c.trace)
      (counters : after.applicationSeqCounter = c.applicationSeqCounter)
      (last : after.lastAppliedSeq = set c.lastAppliedSeq accountId seq)
  | claimedAndApplied (added : List Happened) (bystanders : Quiet added) (accountId : String) (seq : Nat)
      (newest : lastApplied c accountId < seq)
      (trace : after.trace = added ++ .applied accountId seq::.claimed accountId seq::c.trace)
      (counters : after.applicationSeqCounter = c.applicationSeqCounter)
      (last : after.lastAppliedSeq = set c.lastAppliedSeq accountId seq)
  | applied (accountId : String) (seq : Nat) (newest : lastApplied c accountId = seq)
      (trace : after.trace = .applied accountId seq::c.trace)
      (counters : after.applicationSeqCounter = c.applicationSeqCounter)
      (last : after.lastAppliedSeq = c.lastAppliedSeq)
  | redeemed (accountId : String) (claims : List Happened)
      (trace : after.trace = .redeemed accountId (sequenceCounter c accountId + 1)::(claims ++ c.trace))
      (counters : after.applicationSeqCounter =
        set c.applicationSeqCounter accountId (sequenceCounter c accountId + 1))
      (last : claims = [] ∧ after.lastAppliedSeq = c.lastAppliedSeq ∧
          sequenceCounter c accountId + 1 ≤ lastApplied c accountId ∨
        claims = [.claimed accountId (sequenceCounter c accountId + 1)] ∧
          lastApplied c accountId < sequenceCounter c accountId + 1 ∧
          after.lastAppliedSeq = set c.lastAppliedSeq accountId (sequenceCounter c accountId + 1))

section Blocks
variable {c : Coordinator} {now : Int} {task : TaskId} {accountId : String} {account : Account}

theorem Effect.await (frame : Frame) : Effect c (c.await task frame) := .quiet [] quietNil rfl rfl rfl

theorem Effect.finish (result : Result) : Effect c (c.finish task result) := .quiet [_] (quietOne rfl) rfl rfl rfl

theorem Effect.settleSpend (result : SpendResult) : Effect c (c.settleSpend task accountId result) :=
  .quiet [_] (quietOne rfl) rfl rfl rfl

theorem Effect.settleRead (result : ReadResult) : Effect c (c.settleRead task accountId result) :=
  .quiet [_] (quietOne rfl) rfl rfl rfl

theorem Effect.awaitIssued (frame : Nat → Frame) :
    Effect c (((reserveApplicationSeq c accountId).1.record
      (.issued accountId (reserveApplicationSeq c accountId).2)).await task
        (frame (reserveApplicationSeq c accountId).2)) :=
  .issued accountId rfl rfl rfl

theorem claimCases (c : Coordinator) (accountId : String) (seq : Nat) : (claimApplication c accountId seq = none ∧ seq ≤ lastApplied c accountId) ∨
    (claimApplication c accountId seq = some { c with
      lastAppliedSeq := set c.lastAppliedSeq accountId seq,trace := .claimed accountId seq::c.trace } ∧
      lastApplied c accountId < seq) := by
  by_cases stale : seq ≤ lastApplied c accountId
  · exact .inl ⟨if_pos stale,stale⟩
  · exact .inr ⟨if_neg stale,Nat.lt_of_not_le stale⟩

theorem writeUsageTrace (usage : Option Usage) : (writeUsage c now accountId usage).trace = c.trace := by
  cases usage <;> rfl

theorem writeUsageCounters (usage : Option Usage) :
    (writeUsage c now accountId usage).applicationSeqCounter = c.applicationSeqCounter := by
  cases usage <;> rfl

theorem writeUsageLast (usage : Option Usage) :
    (writeUsage c now accountId usage).lastAppliedSeq = c.lastAppliedSeq := by
  cases usage <;> rfl

theorem concludeReadEffect (read : UsageRead) (status : UsageStatus) :
    Effect c (concludeRead c task accountId read status) := by
  unfold concludeRead
  split
  · exact .settleRead _
  · split
    · exact .settleRead _
    · rcases claimCases c accountId read.applicationSeq with ⟨refused,_⟩ | ⟨claimed,newest⟩
      · rw [refused]
        exact .settleRead _
      · rw [claimed]
        exact .claimed accountId read.applicationSeq newest rfl rfl rfl

theorem restoreWindowsEffect (frame : Frame) : Effect c ((restoreWindows c accountId).await task frame) := by
  unfold restoreWindows
  rcases claimCases (reserveApplicationSeq c accountId).1 accountId (reserveApplicationSeq c accountId).2 with
    ⟨refused,stale⟩ | ⟨claimed,newest⟩
  · simp only [refused]
    exact .redeemed accountId [] rfl rfl (.inl ⟨rfl,rfl,stale⟩)
  · simp only [claimed]
    exact .redeemed accountId [_] rfl rfl (.inr ⟨rfl,newest,rfl⟩)

end Blocks

section Resumptions
variable {c : Coordinator} {now : Int} {task : TaskId} {accountId : String} {account : Account}

theorem resumeObserveRowEffect (cause : CodexSpendCause) (row : Option Account) :
    Effect c (resumeObserveRow c task accountId cause row) := by
  unfold resumeObserveRow
  split
  · exact .finish _
  · repeat' split
    all_goals first
      | exact .finish _
      | exact .quiet [.joined _ _] (quietOne rfl) rfl rfl rfl

theorem resumeSpendTokenEffect (result : Except String String) :
    Effect c (resumeSpendToken c now task accountId account result) := by
  unfold resumeSpendToken
  split
  · exact .settleSpend _
  · split
    · exact .awaitIssued (fun seq => .spendPing accountId account seq now)
    · exact .await _

theorem resumeSpendGateEffect (fresh : Option Account) :
    Effect c (resumeSpendGate c now task accountId account fresh) := by
  unfold resumeSpendGate
  split
  · exact .settleSpend _
  · exact .awaitIssued (fun seq => .spendPing accountId account seq now)

theorem resumeSpendPingEffect (seq : Nat) (result : Except String PingResponse) :
    Effect c (resumeSpendPing c now task accountId account seq result) := by
  unfold resumeSpendPing
  split
  · exact .settleSpend _
  · rename_i response
    split
    · exact .settleSpend _
    · rcases claimCases c accountId seq with ⟨refused,_⟩ | ⟨claimed,newest⟩
      · rw [refused]
        exact .settleSpend _
      · rw [claimed]
        let finished : Happened := .finished task (.spend (.completed response.ok response.status account.name
          ⟨response.usage,response.isRateLimited,response.status⟩))
        refine .claimedAndApplied [finished] (quietOne rfl) accountId seq newest ?_ ?_ ?_
        · exact congrArg (fun trace => finished::.applied accountId seq::trace) (writeUsageTrace response.usage)
        · exact writeUsageCounters response.usage
        · exact writeUsageLast response.usage

theorem resumeSpendSettledEffect : Effect c (resumeSpendSettled c task accountId) := by
  unfold resumeSpendSettled
  repeat' split
  all_goals exact .quiet [] quietNil rfl rfl rfl

theorem resumeReadRowEffect (row : Option Account) : Effect c (resumeReadRow c task accountId row) := by
  unfold resumeReadRow
  repeat' split
  all_goals first
    | exact .settleRead _
    | exact .await _

theorem resumeReadTokenEffect (result : Except String String) :
    Effect c (resumeReadToken c now task accountId account result) := by
  unfold resumeReadToken
  split
  · exact .settleRead _
  · exact .issued accountId rfl rfl rfl

theorem resumeReadStatusEffect (read : UsageRead) (status : UsageStatus) :
    Effect c (resumeReadStatus c task accountId read status) := by
  unfold resumeReadStatus
  split
  · exact .await _
  · exact concludeReadEffect read status

theorem resumeReadRotationEffect (read : UsageRead) (rejected : UsageStatus) (result : Except String String) :
    Effect c (resumeReadRotation c task accountId read rejected result) := by
  unfold resumeReadRotation
  split
  · exact concludeReadEffect _ rejected
  · split
    · exact .await _
    · exact concludeReadEffect read rejected

theorem resumeReadRecheckEffect (read : UsageRead) (status : UsageStatus) (current : Option Account) :
    Effect c (resumeReadRecheck c now task accountId read status current) := by
  unfold resumeReadRecheck
  split
  · exact .settleRead _
  · split
    · exact .settleRead _
    · rename_i still
      have newest : lastApplied c accountId = read.applicationSeq := by
        simp [lastApplied,Decidable.not_not.mp still]
      refine .applied accountId read.applicationSeq newest ?_ ?_ ?_
      · exact congrArg (.applied accountId read.applicationSeq::·) (writeUsageTrace status.usage)
      · exact writeUsageCounters status.usage
      · exact writeUsageLast status.usage

theorem resumeReadSettledEffect : Effect c (resumeReadSettled c task accountId) := by
  unfold resumeReadSettled
  split
  all_goals exact .quiet [] quietNil rfl rfl rfl

theorem resumeConsumeRowEffect (row : Option Account) : Effect c (resumeConsumeRow c task accountId row) := by
  unfold resumeConsumeRow failResetCreditConsume
  repeat' split
  all_goals exact .await _

theorem resumeConsumeTokenEffect (result : Except String String) :
    Effect c (resumeConsumeToken c task accountId account result) := by
  unfold resumeConsumeToken failResetCreditConsume
  repeat' split
  all_goals exact .await _

theorem resumeConsumeCallEffect (result : Except String ConsumeOutcome) :
    Effect c (resumeConsumeCall c task accountId account result) := by
  unfold resumeConsumeCall failResetCreditConsume
  split
  · exact .await _
  · simp only
    split
    · exact restoreWindowsEffect _
    · exact .await _

theorem resumeEffect {frame answer after}
    (done : resume c now task frame answer = some after) : Effect c after := by
  unfold resume at done
  split at done
  all_goals first
    | cases done
    | skip
  · exact resumeObserveRowEffect _ _
  · exact resumeSpendTokenEffect _
  · exact resumeSpendGateEffect _
  · exact resumeSpendPingEffect _ _
  · exact resumeSpendSettledEffect
  · exact resumeReadRowEffect _
  · exact resumeReadTokenEffect _
  · exact resumeReadStatusEffect _ _
  · exact resumeReadRotationEffect _ _ _
  · exact concludeReadEffect _ _
  · exact resumeReadRecheckEffect _ _ _
  · exact .settleRead _
  · exact resumeReadSettledEffect
  · exact resumeConsumeRowEffect _
  · exact resumeConsumeTokenEffect _
  · split at done
    · cases done
    · cases done
      exact .await _
  · exact resumeConsumeCallEffect _
  · exact .await _
  · exact .finish _

end Resumptions
variable {c after : Coordinator} {accountId : String} {seq : Nat} {added trace : List Happened}

theorem stepEffect {e} (done : step c e = some after) : Effect c after := by
  unfold step at done
  split at done
  · cases done; exact .quiet [] quietNil rfl rfl rfl
  · cases done
    unfold readUsageStatus
    split
    · exact .quiet [_] (quietOne rfl) rfl rfl rfl
    · exact .quiet [] quietNil rfl rfl rfl
  · cases done; exact .quiet [] quietNil rfl rfl rfl
  · split at done
    · cases done
    · cases done; exact .quiet [] quietNil rfl rfl rfl
  · cases done; exact .quiet [] quietNil rfl rfl rfl
  · cases done; exact .quiet [] quietNil rfl rfl rfl
  · cases done; exact .quiet [] quietNil rfl rfl rfl
  · obtain ⟨frame,_,resumed⟩ := Option.bind_eq_some_iff.mp done
    exact resumeEffect resumed

def Taken (trace : List Happened) (accountId : String) (seq : Nat) : Prop :=
  .applied accountId seq ∈ trace ∨ .claimed accountId seq ∈ trace ∨ .redeemed accountId seq ∈ trace

def AppliedInOrder (trace : List Happened) : Prop :=
  ∀ newer older accountId seq, trace = newer ++ .applied accountId seq::older →
    ∀ taken, Taken older accountId taken → taken ≤ seq

def IssuedBelowRedemption (trace : List Happened) : Prop :=
  ∀ newer older accountId redemption, trace = newer ++ .redeemed accountId redemption::older →
    ∀ seq, .issued accountId seq ∈ older → seq < redemption

def RedemptionFences (trace : List Happened) : Prop :=
  ∀ newer between older accountId seq redemption,
    trace = newer ++ .applied accountId seq::(between ++ .redeemed accountId redemption::older) →
      .issued accountId seq ∉ older

structure Ordered (c : Coordinator) : Prop where
  issued : ∀ accountId seq, .issued accountId seq ∈ c.trace → seq ≤ sequenceCounter c accountId
  taken : ∀ accountId seq, Taken c.trace accountId seq → seq ≤ lastApplied c accountId
  applied : AppliedInOrder c.trace
  redeemed : IssuedBelowRedemption c.trace

theorem orderedStart (codexRegistered : Bool) : Ordered (.start codexRegistered) where
  issued _ _ member := by cases member
  taken _ _ taken := by rcases taken with member | member | member <;> cases member
  applied newer _ _ _ split := by cases newer <;> cases split
  redeemed newer _ _ _ split := by cases newer <;> cases split

theorem takenAppend (h : Taken (added ++ trace) accountId seq) : Taken added accountId seq ∨ Taken trace accountId seq := by
  rcases h with member | member | member
  · exact (List.mem_append.mp member).imp .inl .inl
  · exact (List.mem_append.mp member).imp (fun m => .inr (.inl m)) (fun m => .inr (.inl m))
  · exact (List.mem_append.mp member).imp (fun m => .inr (.inr m)) (fun m => .inr (.inr m))

theorem quietTaken {added} (quiet : Quiet added) :
    ¬ Taken added accountId seq := by
  rintro (member | member | member) <;> exact absurd (quiet _ member) (by simp [Happened.bystander])

theorem quietIssued {added} (quiet : Quiet added) :
    .issued accountId seq ∉ added := by
  intro member
  exact absurd (quiet _ member) (by simp [Happened.bystander])

theorem AppliedInOrder.grow (h : AppliedInOrder trace)
    (none : ∀ accountId seq, .applied accountId seq ∉ added) : AppliedInOrder (added ++ trace) := by
  intro newer older accountId seq split
  obtain ⟨rest,_,split⟩ := splitAdded (none accountId seq) split
  exact h rest older accountId seq split

theorem AppliedInOrder.apply {trace} (h : AppliedInOrder trace)
    (newest : ∀ taken, Taken trace accountId taken → taken ≤ seq) :
    AppliedInOrder (.applied accountId seq::trace) := by
  intro newer older other otherSeq split
  rcases splitCons.mp split with ⟨_,same,rfl⟩ | ⟨rest,_,split⟩
  · cases same
    exact newest
  · exact h rest older other otherSeq split

theorem IssuedBelowRedemption.grow (h : IssuedBelowRedemption trace)
    (none : ∀ accountId seq, .redeemed accountId seq ∉ added) : IssuedBelowRedemption (added ++ trace) := by
  intro newer older accountId redemption split
  obtain ⟨rest,_,split⟩ := splitAdded (none accountId redemption) split
  exact h rest older accountId redemption split

theorem lastAppliedSet {accountId other}
    (last : after.lastAppliedSeq = set c.lastAppliedSeq accountId seq) :
    lastApplied after other = if other = accountId then seq else lastApplied c other := by
  unfold lastApplied
  rw [last,getSet]
  split <;> rfl

theorem counterSet {accountId other next}
    (counters : after.applicationSeqCounter = set c.applicationSeqCounter accountId next) :
    sequenceCounter after other = if other = accountId then next else sequenceCounter c other := by
  unfold sequenceCounter
  rw [counters,getSet]
  split <;> rfl

theorem Ordered.known {c} (h : Ordered c)
    (newest : lastApplied c accountId ≤ seq) : ∀ taken, Taken c.trace accountId taken → taken ≤ seq :=
  fun taken its => Nat.le_trans (h.taken accountId taken its) newest

theorem Ordered.quiet {added} (h : Ordered c) (bystanders : Quiet added)
    (trace : after.trace = added ++ c.trace) (counters : after.applicationSeqCounter = c.applicationSeqCounter)
    (last : after.lastAppliedSeq = c.lastAppliedSeq) : Ordered after where
  issued accountId seq member := by
    rw [trace] at member
    have old := h.issued accountId seq ((List.mem_append.mp member).resolve_left (quietIssued bystanders))
    simpa only [sequenceCounter,counters] using old
  taken accountId seq its := by
    rw [trace] at its
    have old := h.taken accountId seq ((takenAppend its).resolve_left (quietTaken bystanders))
    simpa only [lastApplied,last] using old
  applied := trace ▸ h.applied.grow (fun _ _ member => quietTaken bystanders (.inl member))
  redeemed := trace ▸ h.redeemed.grow (fun _ _ member => quietTaken bystanders (.inr (.inr member)))

theorem Ordered.claim (h : Ordered c)
    (newest : lastApplied c accountId < seq) (trace : after.trace = .claimed accountId seq::c.trace)
    (counters : after.applicationSeqCounter = c.applicationSeqCounter)
    (last : after.lastAppliedSeq = set c.lastAppliedSeq accountId seq) : Ordered after where
  issued other its member := by
    rw [trace] at member
    have old := h.issued other its (by simpa using member)
    simpa only [sequenceCounter,counters] using old
  taken other its taken := by
    rw [trace,← List.singleton_append] at taken
    rw [lastAppliedSet last]
    rcases takenAppend taken with new | old
    · have same : other = accountId ∧ its = seq := by simpa [Taken] using new
      exact Nat.le_of_eq (by rw [if_pos same.1,same.2])
    · have := h.taken other its old
      split
      · rename_i same; subst same; omega
      · exact this
  applied := by
    rw [trace,← List.singleton_append]
    exact h.applied.grow (by simp)
  redeemed := by
    rw [trace,← List.singleton_append]
    exact h.redeemed.grow (by simp)

theorem Ordered.apply (h : Ordered c)
    (newest : lastApplied c accountId = seq) (trace : after.trace = .applied accountId seq::c.trace)
    (counters : after.applicationSeqCounter = c.applicationSeqCounter)
    (last : after.lastAppliedSeq = c.lastAppliedSeq) : Ordered after where
  issued other its member := by
    rw [trace] at member
    have old := h.issued other its (by simpa using member)
    simpa only [sequenceCounter,counters] using old
  taken other its taken := by
    rw [trace,← List.singleton_append] at taken
    rw [show lastApplied after other = lastApplied c other by simp only [lastApplied,last]]
    rcases takenAppend taken with new | old
    · have same : other = accountId ∧ its = seq := by simpa [Taken] using new
      exact Nat.le_of_eq (by rw [same.1,same.2,newest])
    · exact h.taken other its old
  applied := by
    rw [trace]
    exact h.applied.apply (h.known (Nat.le_of_eq newest))
  redeemed := by
    rw [trace,← List.singleton_append]
    exact h.redeemed.grow (by simp)

theorem Ordered.issue (h : Ordered c)
    (trace : after.trace = .issued accountId (sequenceCounter c accountId + 1)::c.trace)
    (counters : after.applicationSeqCounter = set c.applicationSeqCounter accountId (sequenceCounter c accountId + 1))
    (last : after.lastAppliedSeq = c.lastAppliedSeq) : Ordered after where
  issued other its member := by
    rw [trace] at member
    rw [counterSet counters]
    rcases List.mem_cons.mp member with new | old
    · cases new; simp
    · have := h.issued other its old
      split
      · rename_i same; subst same; omega
      · exact this
  taken other its taken := by
    rw [trace,← List.singleton_append] at taken
    have old := h.taken other its ((takenAppend taken).resolve_left (by simp [Taken]))
    simpa only [lastApplied,last] using old
  applied := by
    rw [trace,← List.singleton_append]
    exact h.applied.grow (by simp)
  redeemed := by
    rw [trace,← List.singleton_append]
    exact h.redeemed.grow (by simp)

theorem Ordered.redeem (h : Ordered c)
    (known : sequenceCounter c accountId + 1 ≤ lastApplied after accountId)
    (grown : ∀ other, lastApplied c other ≤ lastApplied after other)
    (claims : List Happened) (only : ∀ entry ∈ claims, entry = .claimed accountId (sequenceCounter c accountId + 1))
    (trace : after.trace = .redeemed accountId (sequenceCounter c accountId + 1)::(claims ++ c.trace))
    (counters : after.applicationSeqCounter = set c.applicationSeqCounter accountId (sequenceCounter c accountId + 1)) :
    Ordered after := by
  have absent : ∀ entry ∈ claims, (∀ a s, entry ≠ .issued a s) ∧ (∀ a s, entry ≠ .applied a s) ∧
      ∀ a s, entry ≠ .redeemed a s := by
    intro entry member
    rw [only entry member]
    simp
  constructor
  · intro other its member
    rw [trace] at member
    have old : .issued other its ∈ c.trace := by
      rcases List.mem_append.mp (List.mem_of_ne_of_mem (by simp) member) with recent | old
      · exact absurd rfl ((absent _ recent).1 other its)
      · exact old
    have := h.issued other its old
    rw [counterSet counters]
    split
    · rename_i same; subst same; omega
    · exact this
  · intro other its taken
    rw [trace,← List.singleton_append] at taken
    rcases takenAppend taken with new | rest
    · have same : other = accountId ∧ its = sequenceCounter c accountId + 1 := by simpa [Taken] using new
      rw [same.1,same.2]
      exact known
    · rcases takenAppend rest with claimed | old
      · have same : other = accountId ∧ its = sequenceCounter c accountId + 1 := by
          rcases claimed with member | member | member
          · exact absurd rfl ((absent _ member).2.1 other its)
          · simpa using only _ member
          · exact absurd rfl ((absent _ member).2.2 other its)
        rw [same.1,same.2]
        exact known
      · exact Nat.le_trans (h.taken other its old) (grown other)
  · rw [trace,← List.singleton_append]
    refine AppliedInOrder.grow (h.applied.grow ?_) (by simp)
    exact fun a s member => absurd rfl ((absent _ member).2.1 a s)
  · have older : IssuedBelowRedemption (claims ++ c.trace) :=
      h.redeemed.grow (fun a s member => absurd rfl ((absent _ member).2.2 a s))
    intro newer rest other redemption split
    rw [trace] at split
    rcases splitCons.mp split with ⟨_,same,rfl⟩ | ⟨deep,_,split⟩
    · cases same
      intro seq member
      rcases List.mem_append.mp member with recent | old
      · exact absurd rfl ((absent _ recent).1 _ _)
      · exact Nat.lt_succ_of_le (h.issued _ seq old)
    · exact older deep rest other redemption split

theorem orderedStep {e} (h : Ordered c) (done : step c e = some after) :
    Ordered after := by
  cases stepEffect done with
  | quiet added bystanders trace counters last => exact h.quiet bystanders trace counters last
  | issued accountId trace counters last => exact h.issue trace counters last
  | claimed accountId seq newest trace counters last => exact h.claim newest trace counters last
  | claimedAndApplied added bystanders accountId seq newest trace counters last =>
    let claimed : Coordinator := { c with
      lastAppliedSeq := set c.lastAppliedSeq accountId seq,trace := .claimed accountId seq::c.trace }
    let applied : Coordinator := { claimed with trace := .applied accountId seq::claimed.trace }
    have first : Ordered claimed := h.claim newest rfl rfl rfl
    have second : Ordered applied := first.apply (by simp [claimed,lastApplied]) rfl rfl rfl
    exact second.quiet bystanders trace counters last
  | applied accountId seq newest trace counters last => exact h.apply newest trace counters last
  | redeemed accountId claims trace counters last =>
    rcases last with ⟨rfl,last,known⟩ | ⟨rfl,newest,last⟩
    · have same : ∀ other, lastApplied after other = lastApplied c other := by
        intro other; simp only [lastApplied,last]
      exact h.redeem (by rwa [same]) (fun other => Nat.le_of_eq (same other).symm) [] (by simp) trace counters
    · have known : sequenceCounter c accountId + 1 ≤ lastApplied after accountId := by simp [lastAppliedSet last]
      refine h.redeem known ?_ [_] (by simp) trace counters
      intro other
      rw [lastAppliedSet last]
      split
      · rename_i same; subst same; omega
      · exact le_rfl

theorem orderedReachable {c} (reach : machine.Reachable c) : Ordered c := by
  refine reach.invariant ?_ (fun _ _ _ => orderedStep)
  rintro _ ⟨codexRegistered,rfl⟩
  exact orderedStart codexRegistered

/-- Observations are applied in issue order, and a redemption fences off everything
that was issued before its outcome became known. -/
theorem observationsApplyInIssueOrder {c : Coordinator} (reach : machine.Reachable c) :
    AppliedInOrder c.trace ∧ RedemptionFences c.trace := by
  have ordered := orderedReachable reach
  refine ⟨ordered.applied,?_⟩
  intro newer between older accountId seq redemption split issued
  have above : redemption ≤ seq :=
    ordered.applied newer _ accountId seq split redemption (.inr (.inr (List.mem_append_right _ List.mem_cons_self)))
  have below : seq < redemption :=
    ordered.redeemed (newer ++ .applied accountId seq::between) older accountId redemption (by simp [split]) seq issued
  omega

def account : Account := ⟨"a","codex",false,some "x",some "r",true,false,none⟩
def reading : UsageStatus := ⟨true,some 200,some ⟨"100","100"⟩,some true,some false⟩

def redeemedMeanwhile : List Event :=
  [⟨0,.readUsageStatus "a"⟩,⟨0,.resume 0 (.row (some account))⟩,⟨0,.resume 0 (.token (.ok "x"))⟩,
    ⟨1,.resume 0 (.status reading)⟩,⟨2,.resume 0 (.row (some account))⟩,⟨3,.resume 0 .done⟩,⟨3,.resume 0 .done⟩,
    ⟨4,.consumeResetCredit "a"⟩,⟨4,.resume 1 (.row (some account))⟩,⟨4,.resume 1 (.token (.ok "x"))⟩,
    ⟨5,.readUsageStatus "a"⟩,⟨5,.resume 2 (.row (some account))⟩,⟨5,.resume 2 (.token (.ok "x"))⟩,
    ⟨6,.resume 2 (.status reading)⟩,⟨7,.resume 1 (.consumed (.ok .reset))⟩,⟨8,.resume 2 (.row (some account))⟩]

theorem observationsApplyInIssueOrderRedeemed : ∃ c, machine.run (.start true) redeemedMeanwhile = some c ∧
    .applied "a" 1 ∈ c.trace ∧ .redeemed "a" 3 ∈ c.trace ∧ .applied "a" 2 ∉ c.trace ∧
    AppliedInOrder c.trace ∧ RedemptionFences c.trace :=
  ⟨_,rfl,by decide,by decide,by decide,observationsApplyInIssueOrder
    (Machine.runReachable (s := .start true) redeemedMeanwhile ⟨true,rfl⟩ rfl)⟩

end Clankermux.CodexSpendCoordinator
