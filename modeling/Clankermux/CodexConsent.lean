import Clankermux.CodexOrder

/-! A manual refresh is consent to the spend it joins. `Spending` says what one step does to
the spends under way; that each account has no more than one, and which joined consent is
kept, follow from it. -/
namespace Clankermux.CodexSpendCoordinator
open InsertionMap

def Frame.spend : Frame → Option String
  | .spendToken accountId _ => some accountId
  | .spendGate accountId _ _ => some accountId
  | .spendPing accountId _ _ _ => some accountId
  | .spendSettled accountId => some accountId
  | _ => none

def manualJoin (c : Coordinator) (e : Event) : Option TaskId :=
  match e.action with
  | .resume caller (.row (some account)) =>
    match get c.tasks caller with
    | some (.observeRow accountId .manualRefresh) =>
      if account.disabled ∨ account.provider ≠ "codex" ∨ hasTokens account = false then none
      else (get c.inflight accountId).map (·.promise)
    | _ => none
  | _ => none

def calledOff (fresh : Option Account) : Bool := fresh.any (·.disabled) || !fresh.any (·.autoRefreshEnabled)

def skips (p : TaskId) : Happened → Bool
  | .finished task (.spend (.skipped _)) => task == p
  | _ => false

def skipped (c : Coordinator) (p : TaskId) : Bool := c.trace.any (skips p)

structure Consents where
  coordinator : Coordinator
  joined : List TaskId

def Consents.step (s : Consents) (e : Event) : Option Consents :=
  (CodexSpendCoordinator.step s.coordinator e).map (fun after => ⟨after,(manualJoin s.coordinator e).toList ++ s.joined⟩)

def consentMachine : Machine Consents Event where
  init s := machine.init s.coordinator ∧ s.joined = []
  step := Consents.step

def inTime (s : Consents) (e : Event) : Bool :=
  (manualJoin s.coordinator e).all (fun p => !skipped s.coordinator p) &&
  match e.action with
  | .resume task (.row fresh) =>
    match get s.coordinator.tasks task with
    | some (.spendGate accountId _ _) =>
      !(calledOff fresh && decide (.manualRefresh ∈ sharedCauses s.coordinator task accountId))
    | _ => true
  | _ => true

def Honoured (s : Consents) : Prop := ∀ p ∈ s.joined, skipped s.coordinator p = false

def OnePing (c : Coordinator) : Prop :=
  ∀ task other accountId account account' seq seq' issuedAtMs issuedAtMs',
    get c.tasks task = some (.spendPing accountId account seq issuedAtMs) →
    get c.tasks other = some (.spendPing accountId account' seq' issuedAtMs') → task = other

def put (tasks : InsertionMap TaskId Frame) (task : TaskId) : Option Frame → InsertionMap TaskId Frame
  | some frame => set tasks task frame
  | none => delete tasks task

theorem getPut {tasks task other next} :
    get (put tasks task next) other = if other = task then next else get tasks other := by
  cases next with
  | none => exact getDelete
  | some frame => exact getSet

structure Aside (c : Coordinator) (task : TaskId) (after : Coordinator) : Prop where
  tasks : ∃ next, after.tasks = put c.tasks task next ∧ ∀ frame ∈ next, frame.spend = none
  inflight : after.inflight = c.inflight
  nextTask : c.nextTask ≤ after.nextTask
  trace : ∀ p, skipped after p = true → skipped c p = true ∨ p = task

structure Along (c : Coordinator) (task : TaskId) (accountId : String) (frame : Frame) (after : Coordinator) : Prop where
  mine : frame.spend = some accountId
  tasks : after.tasks = set c.tasks task frame
  inflight : after.inflight = c.inflight
  nextTask : after.nextTask = c.nextTask

inductive Spending (c : Coordinator) (e : Event) (after : Coordinator) : Prop where
  | elsewhere (tasks : after.tasks = c.tasks) (inflight : after.inflight = c.inflight) (nextTask : c.nextTask ≤ after.nextTask)
      (trace : ∀ p, skipped after p = skipped c p) (joins : manualJoin c e = none)
  | aside (task : TaskId) (step : Aside c task after) (joins : manualJoin c e = none)
      (old : (∃ frame, get c.tasks task = some frame ∧ frame.spend = none) ∨ task = c.nextTask ∧ after.nextTask = c.nextTask + 1)
  | joined (caller : TaskId) (accountId : String) (cause : CodexSpendCause) (entry : InflightSpend)
      (causes : List CodexSpendCause) (called : get c.tasks caller = some (.observeRow accountId cause))
      (inflight : get c.inflight accountId = some entry) (added : ∀ its, its ∈ causes ↔ its ∈ entry.causes ∨ its = cause)
      (tasks : after.tasks = delete c.tasks caller) (entries : after.inflight = set c.inflight accountId { entry with causes })
      (nextTask : after.nextTask = c.nextTask) (trace : ∀ p, skipped after p = skipped c p)
      (joins : manualJoin c e = if cause = .manualRefresh then some entry.promise else none)
  | established (caller : TaskId) (accountId : String) (cause : CodexSpendCause) (account : Account)
      (called : get c.tasks caller = some (.observeRow accountId cause)) (none_ : get c.inflight accountId = none)
      (tasks : after.tasks = set (delete c.tasks caller) c.nextTask (.spendToken accountId account))
      (entries : after.inflight = set c.inflight accountId ⟨[cause],c.nextTask⟩) (nextTask : after.nextTask = c.nextTask + 1)
      (trace : ∀ p, skipped after p = skipped c p) (joins : manualJoin c e = none)
  | gated (task : TaskId) (accountId : String) (account : Account) (accessToken : String)
      (at_ : get c.tasks task = some (.spendToken accountId account))
      (alone : .manualRefresh ∉ sharedCauses c task accountId)
      (along : Along c task accountId (.spendGate accountId account accessToken) after)
      (trace : ∀ p, skipped after p = skipped c p) (joins : manualJoin c e = none)
  | calledOff (task : TaskId) (accountId : String) (account : Account) (accessToken : String) (fresh : Option Account)
      (action : e.action = .resume task (.row fresh)) (at_ : get c.tasks task = some (.spendGate accountId account accessToken))
      (off : CodexSpendCoordinator.calledOff fresh = true) (along : Along c task accountId (.spendSettled accountId) after)
      (trace : ∀ p, skipped after p = true ↔ skipped c p = true ∨ p = task) (joins : manualJoin c e = none)
  | moved (task : TaskId) (accountId : String) (before frame : Frame) (at_ : get c.tasks task = some before)
      (its : before.spend = some accountId) (along : Along c task accountId frame after)
      (past : (∃ account seq issuedAtMs, frame = .spendPing accountId account seq issuedAtMs) ∨ frame = .spendSettled accountId)
      (trace : ∀ p, skipped after p = skipped c p) (joins : manualJoin c e = none)
  | left (task : TaskId) (accountId : String) (at_ : get c.tasks task = some (.spendSettled accountId))
      (tasks : after.tasks = delete c.tasks task)
      (entries : ∀ entry, get c.inflight accountId = some entry → entry.promise = task → after.inflight = delete c.inflight accountId)
      (nextTask : after.nextTask = c.nextTask) (trace : ∀ p, skipped after p = skipped c p) (joins : manualJoin c e = none)

section Blocks
variable {c : Coordinator} {e : Event} {now : Int} {task : TaskId} {accountId : String} {account : Account}

structure Untouched (c mid : Coordinator) : Prop where
  tasks : mid.tasks = c.tasks
  inflight : mid.inflight = c.inflight
  nextTask : mid.nextTask = c.nextTask
  trace : ∀ p, skipped mid p = skipped c p

theorem Untouched.refl : Untouched c c := ⟨rfl,rfl,rfl,fun _ => rfl⟩

theorem Untouched.trans {mid after} (first : Untouched c mid) (second : Untouched mid after) : Untouched c after :=
  ⟨second.tasks.trans first.tasks,second.inflight.trans first.inflight,second.nextTask.trans first.nextTask,
    fun p => (second.trace p).trans (first.trace p)⟩

theorem recordUntouched {h} (silent : ∀ p, skips p h = false) : Untouched c (c.record h) := by
  refine ⟨rfl,rfl,rfl,fun p => ?_⟩
  rw [skipped,Coordinator.record,List.any_cons,silent p,Bool.false_or]
  rfl

theorem writeUsageUntouched (usage : Option Usage) : Untouched c (writeUsage c now accountId usage) := by
  cases usage <;> exact ⟨rfl,rfl,rfl,fun _ => rfl⟩

theorem reserveUntouched : Untouched c (reserveApplicationSeq c accountId).1 := ⟨rfl,rfl,rfl,fun _ => rfl⟩

theorem claimUntouched {claimed seq} (done : claimApplication c accountId seq = some claimed) :
    Untouched c claimed := by
  rcases claimCases c accountId seq with ⟨refused,_⟩ | ⟨its,_⟩
  · rw [refused] at done
    cases done
  · cases its.symm.trans done
    exact ⟨rfl,rfl,rfl,fun p => by simp [skipped,skips]⟩

theorem restoreUntouched : Untouched c (restoreWindows c accountId) := by
  unfold restoreWindows
  rcases claimCases (reserveApplicationSeq c accountId).1 accountId (reserveApplicationSeq c accountId).2 with
    ⟨refused,_⟩ | ⟨claimed,_⟩
  · simp only [refused]
    exact ⟨rfl,rfl,rfl,fun p => by simp [skipped,skips,Coordinator.record,reserveApplicationSeq]⟩
  · simp only [claimed]
    exact ⟨rfl,rfl,rfl,fun p => by simp [skipped,skips,Coordinator.record,reserveApplicationSeq]⟩
variable {frame : Frame} {mid : Coordinator} {after : Coordinator} {answer : Answer}

theorem Untouched.await (kept : Untouched c mid) (other : frame.spend = none) :
    Aside c task (mid.await task frame) :=
  ⟨⟨some frame,by rw [Coordinator.await,kept.tasks]; rfl,by simpa using other⟩,kept.inflight,kept.nextTask.ge,
    fun p its => .inl ((kept.trace p).symm.trans its)⟩

theorem Aside.finish (result : Result) : Aside c task (c.finish task result) := by
  refine ⟨⟨none,rfl,by simp⟩,rfl,le_rfl,fun p its => ?_⟩
  rw [skipped,Coordinator.finish,Coordinator.record,List.any_cons,Bool.or_eq_true] at its
  rcases its with here | there
  · unfold skips at here
    split at here
    · rename_i same
      cases same
      exact .inr (of_decide_eq_true here).symm
    · cases here
  · exact .inl there

theorem Untouched.settleRead (kept : Untouched c mid) (result : ReadResult) :
    Aside c task (mid.settleRead task accountId result) := by
  have settled : Aside c task (mid.await task (.readSettled accountId)) := kept.await rfl
  refine { settled with trace := fun p its => settled.trace p ?_ }
  rwa [Coordinator.settleRead,(recordUntouched (fun _ => rfl)).trace p] at its

theorem concludeReadAside (read : UsageRead) (status : UsageStatus) : Aside c task (concludeRead c task accountId read status) := by
  unfold concludeRead
  split
  · exact Untouched.refl.settleRead _
  · split
    · exact Untouched.refl.settleRead _
    · split
      · exact Untouched.refl.settleRead _
      · rename_i claim
        exact (claimUntouched claim).await rfl

theorem resumeAside (other : frame.spend = none)
    (calls : ∀ accountId cause, frame ≠ .observeRow accountId cause) (done : resume c now task frame answer = some after) :
    Aside c task after := by
  unfold resume at done
  split at done
  all_goals first
    | cases done
    | skip
  · exact absurd rfl (calls _ _)
  · cases other
  · cases other
  · cases other
  · cases other
  · unfold resumeReadRow
    repeat' split
    all_goals first
      | exact Untouched.refl.settleRead _
      | exact Untouched.refl.await rfl
  · unfold resumeReadToken
    split
    · exact Untouched.refl.settleRead _
    · exact (reserveUntouched.trans (recordUntouched (fun _ => rfl))).await rfl
  · unfold resumeReadStatus
    split
    · exact Untouched.refl.await rfl
    · exact concludeReadAside _ _
  · unfold resumeReadRotation
    split
    · exact concludeReadAside _ _
    · split
      · exact Untouched.refl.await rfl
      · exact concludeReadAside _ _
  · exact concludeReadAside _ _
  · unfold resumeReadRecheck
    split
    · exact Untouched.refl.settleRead _
    · split
      · exact Untouched.refl.settleRead _
      · exact ((writeUsageUntouched _).trans (recordUntouched (fun _ => rfl))).await rfl
  · exact Untouched.refl.settleRead _
  · unfold resumeReadSettled
    split
    all_goals exact ⟨⟨none,rfl,by simp⟩,rfl,le_rfl,fun p its => .inl its⟩
  · unfold resumeConsumeRow failResetCreditConsume
    repeat' split
    all_goals exact Untouched.refl.await rfl
  · unfold resumeConsumeToken failResetCreditConsume
    repeat' split
    all_goals exact Untouched.refl.await rfl
  · split at done
    · cases done
    · cases done
      exact Untouched.refl.await rfl
  · unfold resumeConsumeCall failResetCreditConsume
    split
    · exact Untouched.refl.await rfl
    · simp only
      split
      · exact restoreUntouched.await rfl
      · exact Untouched.refl.await rfl
  · exact Untouched.refl.await rfl
  · exact .finish _

theorem joinElsewhere (action : e.action = .resume task answer)
    (at_ : get c.tasks task = some frame) (other : ∀ accountId, frame ≠ .observeRow accountId .manualRefresh) :
    manualJoin c e = none := by
  unfold manualJoin
  split
  · rename_i its
    cases its.symm.trans action
    split
    · rename_i its
      cases at_.symm.trans its
      exact absurd rfl (other _)
    · rfl
  · rfl

theorem observeRowSpending {cause row} (action : e.action = .resume task (.row row))
    (at_ : get c.tasks task = some (.observeRow accountId cause)) :
    Spending c e (resumeObserveRow c task accountId cause row) := by
  have away : ∀ result, manualJoin c e = none → Spending c e (c.finish task result) := fun result joins =>
    .aside task (.finish result) joins (.inl ⟨_,at_,rfl⟩)
  unfold resumeObserveRow
  split
  · exact away _ (by simp [manualJoin,action])
  · rename_i account
    split_ifs with disabled provider tokens scheduled
    · exact away _ (by cases cause <;> simp [manualJoin,action,at_,disabled])
    · exact away _ (by cases cause <;> simp [manualJoin,action,at_,provider])
    · exact away _ (by cases cause <;> simp_all [manualJoin])
    · exact away _ (by simp [manualJoin,action,at_,scheduled.1])
    · have open_ : ¬ (account.disabled = true ∨ account.provider ≠ "codex" ∨ hasTokens account = false) := by
        simp_all
      have joins : manualJoin c e = if cause = .manualRefresh then (get c.inflight accountId).map (·.promise) else none := by
        cases cause
        · exact joinElsewhere action at_ (by simp)
        · simp only [manualJoin,action,at_,if_neg open_]
          rfl
      cases entry : get c.inflight accountId with
      | some existing =>
        refine .joined task accountId cause existing _ at_ entry ?_ rfl rfl rfl (fun p => rfl) (by rw [joins,entry]; rfl)
        intro its
        split_ifs with inside
        · exact ⟨.inl,fun found => found.elim id (fun same => same ▸ inside)⟩
        · simp
      | none =>
        refine .established task accountId cause account at_ entry rfl rfl rfl (fun p => rfl) ?_
        rw [joins,entry]
        simp

theorem Untouched.along (kept : Untouched c mid) (mine : frame.spend = some accountId) :
    Along c task accountId frame (mid.await task frame) :=
  ⟨mine,by rw [Coordinator.await,kept.tasks],kept.inflight,kept.nextTask⟩

theorem Untouched.settleSpend (kept : Untouched c mid) {before result}
    (at_ : get c.tasks task = some before) (its : before.spend = some accountId) (joins : manualJoin c e = none)
    (open_ : ∀ reason, result ≠ .skipped reason) : Spending c e (mid.settleSpend task accountId result) := by
  refine .moved task accountId before (.spendSettled accountId) at_ its ?_ (.inr rfl) (fun p => ?_) joins
  · exact ⟨rfl,congrArg (set · task _) kept.tasks,kept.inflight,kept.nextTask⟩
  · have silent : ∀ q, skips q (.finished task (.spend result)) = false := by
      cases result with
      | skipped reason => exact absurd rfl (open_ reason)
      | completed responseOk responseStatus accountName observation => exact fun _ => rfl
      | failed message => exact fun _ => rfl
    exact ((recordUntouched (c := mid.await task (.spendSettled accountId)) silent).trace p).trans (kept.trace p)

theorem issuePingSpending {before} (at_ : get c.tasks task = some before) (its : before.spend = some accountId)
    (joins : manualJoin c e = none) : Spending c e (issuePing c now task accountId account) := by
  have kept : Untouched c ((reserveApplicationSeq c accountId).1.record (.issued accountId (reserveApplicationSeq c accountId).2)) :=
    reserveUntouched.trans (recordUntouched (fun _ => rfl))
  exact .moved task accountId before _ at_ its (kept.along rfl) (.inl ⟨account,_,now,rfl⟩) kept.trace joins

theorem resumeSpending (action : e.action = .resume task answer)
    (at_ : get c.tasks task = some frame) (done : resume c now task frame answer = some after) : Spending c e after := by
  cases frame with
  | observeRow accountId cause =>
    cases answer with
    | row row =>
      cases done
      exact observeRowSpending action at_
    | _ => cases done
  | spendToken accountId account =>
    have joins : manualJoin c e = none := joinElsewhere action at_ (by simp)
    cases answer with
    | token result =>
      cases done
      unfold resumeSpendToken
      split
      · exact Untouched.refl.settleSpend at_ rfl joins (by simp)
      · split
        · exact issuePingSpending at_ rfl joins
        · rename_i accessToken alone
          exact .gated task accountId account accessToken at_ alone (Untouched.refl.along rfl) (fun p => rfl) joins
    | _ => cases done
  | spendGate accountId account accessToken =>
    have joins : manualJoin c e = none := joinElsewhere action at_ (by simp)
    cases answer with
    | row fresh =>
      cases done
      unfold resumeSpendGate
      split
      · rename_i off
        refine .calledOff task accountId account accessToken fresh action at_ off ⟨rfl,rfl,rfl,rfl⟩ (fun p => ?_) joins
        change (skips p (.finished task (.spend (.skipped _))) || skipped c p) = true ↔ _
        rw [Bool.or_eq_true,or_comm,skips,beq_iff_eq,eq_comm (a := task)]
      · exact issuePingSpending at_ rfl joins
    | _ => cases done
  | spendPing accountId account seq issuedAtMs =>
    have joins : manualJoin c e = none := joinElsewhere action at_ (by simp)
    cases answer with
    | pinged result =>
      cases done
      unfold resumeSpendPing
      split
      · exact Untouched.refl.settleSpend at_ rfl joins (by simp)
      · split
        · exact Untouched.refl.settleSpend at_ rfl joins (by simp)
        · split
          · exact Untouched.refl.settleSpend at_ rfl joins (by simp)
          · rename_i claim
            refine (((claimUntouched claim).trans (writeUsageUntouched _)).trans (recordUntouched (fun _ => rfl))).settleSpend at_ rfl
              joins (by simp)
    | _ => cases done
  | spendSettled accountId =>
    have joins : manualJoin c e = none := joinElsewhere action at_ (by simp)
    cases answer with
    | done =>
      cases done
      unfold resumeSpendSettled
      split
      · rename_i entry found
        split
        · exact .left task accountId at_ rfl (fun _ _ _ => rfl) rfl (fun p => rfl) joins
        · rename_i other
          refine .left task accountId at_ rfl (fun its same mine => ?_) rfl (fun p => rfl) joins
          cases found.symm.trans same
          exact absurd mine other
      · rename_i none_
        exact .left task accountId at_ rfl (fun its same _ => nomatch none_.symm.trans same) rfl (fun p => rfl) joins
    | _ => cases done
  | _ => exact .aside task (resumeAside rfl (by simp) done) (joinElsewhere action at_ (by simp)) (.inl ⟨_,at_,rfl⟩)

theorem startAside (other : frame.spend = none) (joins : manualJoin c e = none) :
    Spending c e ({ c with nextTask := c.nextTask + 1 }.await c.nextTask frame) :=
  .aside c.nextTask ⟨⟨some frame,rfl,by simpa using other⟩,rfl,Nat.le_succ _,fun p its => .inl its⟩ joins (.inr ⟨rfl,rfl⟩)

theorem spending (done : step c e = some after) : Spending c e after := by
  obtain ⟨now,action⟩ := e
  cases action with
  | observe accountId cause =>
    cases done
    exact startAside rfl rfl
  | readUsageStatus accountId =>
    cases done
    unfold readUsageStatus
    split
    · exact .elsewhere rfl rfl (Nat.le_succ _) (fun p => rfl) rfl
    · exact .aside c.nextTask ⟨⟨some (.readRow accountId),rfl,by simp [Frame.spend]⟩,rfl,Nat.le_succ _,fun p its => .inl its⟩ rfl
        (.inr ⟨rfl,rfl⟩)
  | consumeResetCredit accountId =>
    cases done
    exact startAside rfl rfl
  | creditsRead accountId read =>
    simp only [step] at done
    split at done
    · cases done
    · cases done
      exact .elsewhere rfl rfl le_rfl (fun p => rfl) rfl
  | creditsReadSettled accountId =>
    cases done
    exact .elsewhere rfl rfl le_rfl (fun p => rfl) rfl
  | trafficObserved accountId =>
    cases done
    exact .elsewhere rfl rfl le_rfl (fun p => rfl) rfl
  | usageDropped accountId =>
    cases done
    exact .elsewhere rfl rfl le_rfl (fun p => rfl) rfl
  | resume task answer =>
    obtain ⟨frame,at_,resumed⟩ := Option.bind_eq_some_iff.mp done
    exact resumeSpending rfl at_ resumed

end Blocks

structure Sound (c : Coordinator) (joined : List TaskId) : Prop where
  numbered : ∀ task frame, get c.tasks task = some frame → task < c.nextTask
  entered : ∀ task frame accountId, get c.tasks task = some frame → frame.spend = some accountId →
    ∃ entry, get c.inflight accountId = some entry ∧ entry.promise = task
  running : ∀ accountId entry, get c.inflight accountId = some entry →
    ∃ frame, get c.tasks entry.promise = some frame ∧ frame.spend = some accountId
  consents : ∀ p ∈ joined, p < c.nextTask ∧ ∀ frame, get c.tasks p = some frame → frame.spend ≠ none
  known : ∀ accountId entry, get c.inflight accountId = some entry → entry.promise ∈ joined → .manualRefresh ∈ entry.causes
  gated : ∀ accountId entry account accessToken, get c.inflight accountId = some entry →
    get c.tasks entry.promise = some (.spendGate accountId account accessToken) →
    .manualRefresh ∈ entry.causes → entry.promise ∈ joined

section Sound
variable {c after : Coordinator} {joined : List TaskId} {task : TaskId} {accountId other : String} {entry its : InflightSpend}

section
variable (sound : Sound c joined)
include sound

theorem Sound.apart (idle : (∃ frame, get c.tasks task = some frame ∧ frame.spend = none) ∨ task = c.nextTask)
    (found : get c.inflight accountId = some entry) : entry.promise ≠ task := by
  rintro rfl
  obtain ⟨frame,at_,mine⟩ := sound.running accountId entry found
  rcases idle with ⟨same,here,none_⟩ | fresh
  · cases at_.symm.trans here
    cases mine.symm.trans none_
  · exact absurd fresh (sound.numbered _ _ at_).ne

theorem Sound.stranger (idle : (∃ frame, get c.tasks task = some frame ∧ frame.spend = none) ∨ task = c.nextTask)
    {p} (inside : p ∈ joined) : p ≠ task := by
  rintro rfl
  obtain ⟨below,mine⟩ := sound.consents p inside
  rcases idle with ⟨frame,here,none_⟩ | fresh
  · exact mine frame here none_
  · exact absurd fresh below.ne

theorem Sound.separate (found : get c.inflight accountId = some entry)
    (theirs : get c.inflight other = some its) (same : its.promise = entry.promise) : other = accountId := by
  obtain ⟨frame,at_,mine⟩ := sound.running accountId entry found
  obtain ⟨frame',at_',mine'⟩ := sound.running other its theirs
  rw [same,at_,Option.some.injEq] at at_'
  rw [← at_',mine,Option.some.injEq] at mine'
  exact mine'.symm

theorem Sound.elsewhere (tasks : after.tasks = c.tasks) (inflight : after.inflight = c.inflight)
    (nextTask : c.nextTask ≤ after.nextTask) : Sound after joined where
  numbered task frame at_ := (sound.numbered task frame (tasks ▸ at_)).trans_le nextTask
  entered := by
    rw [tasks,inflight]
    exact sound.entered
  running := by
    rw [tasks,inflight]
    exact sound.running
  consents p inside := by
    rw [tasks]
    exact (sound.consents p inside).imp_left (·.trans_le nextTask)
  known := by
    rw [inflight]
    exact sound.known
  gated := by
    rw [tasks,inflight]
    exact sound.gated

theorem Sound.aside (step : Aside c task after)
    (old : (∃ frame, get c.tasks task = some frame ∧ frame.spend = none) ∨ task = c.nextTask ∧ after.nextTask = c.nextTask + 1) :
    Sound after joined := by
  obtain ⟨next,tasks,none_⟩ := step.tasks
  have idle := old.imp_right And.left
  have at_ : ∀ other, get after.tasks other = if other = task then next else get c.tasks other := by
    intro other
    rw [tasks,getPut]
  constructor
  · intro other frame its
    rw [at_] at its
    split_ifs at its with same
    · rw [same]
      rcases old with ⟨frame,here,-⟩ | ⟨fresh,more⟩
      · exact (sound.numbered _ _ here).trans_le step.nextTask
      · exact fresh ▸ more ▸ Nat.lt_succ_self _
    · exact (sound.numbered _ _ its).trans_le step.nextTask
  · intro other frame accountId its mine
    rw [at_] at its
    split_ifs at its with same
    · cases (none_ frame its).symm.trans mine
    · rw [step.inflight]
      exact sound.entered other frame accountId its mine
  · intro accountId entry found
    rw [step.inflight] at found
    rw [at_,if_neg (sound.apart idle found)]
    exact sound.running accountId entry found
  · intro p inside
    rw [at_,if_neg (sound.stranger idle inside)]
    exact (sound.consents p inside).imp_left (·.trans_le step.nextTask)
  · rw [step.inflight]
    exact sound.known
  · intro accountId entry account accessToken found its
    rw [step.inflight] at found
    rw [at_,if_neg (sound.apart idle found)] at its
    exact sound.gated accountId entry account accessToken found its

theorem Sound.along {before frame} (here : get c.tasks task = some before)
    (its : before.spend = some accountId) (along : Along c task accountId frame after)
    (gate : ∀ account accessToken, frame = .spendGate accountId account accessToken → .manualRefresh ∉ sharedCauses c task accountId) :
    Sound after joined := by
  obtain ⟨entry,found,promise⟩ := sound.entered task before accountId here its
  have at_ : ∀ other, get after.tasks other = if other = task then some frame else get c.tasks other := by
    intro other
    rw [along.tasks,getSet]
  constructor
  · intro other frame found
    rw [at_] at found
    rw [along.nextTask]
    split_ifs at found with same
    · exact same ▸ sound.numbered _ _ here
    · exact sound.numbered _ _ found
  · intro other frame others found mine
    rw [at_] at found
    rw [along.inflight]
    split_ifs at found with same
    · cases found
      cases along.mine.symm.trans mine
      exact ⟨entry,‹_›,promise.trans same.symm⟩
    · exact sound.entered other frame others found mine
  · intro other theirs others
    rw [along.inflight] at others
    rw [at_]
    split_ifs with same
    · cases sound.separate found others (same.trans promise.symm)
      exact ⟨frame,rfl,along.mine⟩
    · exact sound.running other theirs others
  · intro p inside
    obtain ⟨below,mine⟩ := sound.consents p inside
    refine ⟨along.nextTask ▸ below,fun frame found => ?_⟩
    rw [at_] at found
    split_ifs at found
    · cases found
      rw [along.mine]
      exact Option.some_ne_none _
    · exact mine frame found
  · rw [along.inflight]
    exact sound.known
  · intro other theirs account accessToken others found manual
    rw [along.inflight] at others
    rw [at_] at found
    split_ifs at found with same
    · cases sound.separate ‹get c.inflight accountId = some entry› others (same.trans promise.symm)
      refine absurd ?_ (gate account accessToken (Option.some.inj found))
      rw [sharedCauses,others]
      simpa [same] using manual
    · exact sound.gated other theirs account accessToken others found manual

theorem Sound.join {caller cause causes}
    (called : get c.tasks caller = some (.observeRow accountId cause)) (found : get c.inflight accountId = some entry)
    (added : ∀ its, its ∈ causes ↔ its ∈ entry.causes ∨ its = cause) (tasks : after.tasks = delete c.tasks caller)
    (entries : after.inflight = set c.inflight accountId { entry with causes }) (nextTask : after.nextTask = c.nextTask) :
    Sound after ((if cause = .manualRefresh then some entry.promise else none).toList ++ joined) := by
  have idle : (∃ frame, get c.tasks caller = some frame ∧ frame.spend = none) ∨ caller = c.nextTask := .inl ⟨_,called,rfl⟩
  have at_ : ∀ other, get after.tasks other = if other = caller then none else get c.tasks other := by
    intro other
    rw [tasks,getDelete]
  -- An entry afterwards is one from before, but for the causes of this account's.
  have from_ : ∀ other its, get after.inflight other = some its → ∃ old, get c.inflight other = some old ∧ old.promise = its.promise ∧
      (other = accountId ∧ its.causes = causes ∧ old = entry ∨ other ≠ accountId ∧ its = old) := by
    intro other its theirs
    rw [entries,getSet] at theirs
    split_ifs at theirs with same
    · cases theirs
      exact ⟨entry,same ▸ found,rfl,.inl ⟨same,rfl,rfl⟩⟩
    · exact ⟨its,theirs,rfl,.inr ⟨same,rfl⟩⟩
  have joining : ∀ p, p ∈ (if cause = .manualRefresh then some entry.promise else none).toList ++ joined ↔
      cause = .manualRefresh ∧ p = entry.promise ∨ p ∈ joined := by
    intro p
    split_ifs with manual <;> simp [manual]
  obtain ⟨frame,here,mine⟩ := sound.running accountId entry found
  constructor
  · intro other frame its
    rw [at_] at its
    split_ifs at its
    exact nextTask ▸ sound.numbered other frame its
  · intro other frame others its mine
    rw [at_] at its
    split_ifs at its
    obtain ⟨old,theirs,promise⟩ := sound.entered other frame others its mine
    rw [entries,getSet]
    split_ifs with same
    · subst same
      cases found.symm.trans theirs
      exact ⟨_,rfl,promise⟩
    · exact ⟨old,theirs,promise⟩
  · intro other its theirs
    obtain ⟨old,before,promise,-⟩ := from_ other its theirs
    rw [← promise,at_,if_neg (sound.apart idle before)]
    exact sound.running other old before
  · intro p inside
    rw [nextTask]
    rcases (joining p).mp inside with ⟨-,rfl⟩ | inside
    · rw [at_,if_neg (sound.apart idle found),here]
      refine ⟨sound.numbered _ _ here,fun its same => ?_⟩
      cases same
      rw [mine]
      exact Option.some_ne_none _
    · rw [at_,if_neg (sound.stranger idle inside)]
      exact sound.consents p inside
  · intro other its theirs inside
    obtain ⟨old,before,promise,⟨rfl,same,rfl⟩ | ⟨apart,rfl⟩⟩ := from_ other its theirs
    · rw [same,added]
      rcases (joining _).mp inside with ⟨manual,-⟩ | inside
      · exact .inr manual.symm
      · exact .inl (sound.known other old before (promise ▸ inside))
    · rcases (joining _).mp inside with ⟨-,shared⟩ | inside
      · exact absurd (sound.separate found before shared) apart
      · exact sound.known other its before inside
  · intro other its account accessToken theirs gate manual
    obtain ⟨old,before,promise,cases_⟩ := from_ other its theirs
    rw [← promise,at_,if_neg (sound.apart idle before)] at gate
    rw [joining,← promise]
    rcases cases_ with ⟨rfl,same,rfl⟩ | ⟨apart,rfl⟩
    · rw [same,added] at manual
      rcases manual with manual | manual
      · exact .inr (sound.gated other old account accessToken before gate manual)
      · exact .inl ⟨manual.symm,rfl⟩
    · exact .inr (sound.gated other its account accessToken before gate manual)

theorem Sound.establish {caller cause account}
    (called : get c.tasks caller = some (.observeRow accountId cause)) (none_ : get c.inflight accountId = none)
    (tasks : after.tasks = set (delete c.tasks caller) c.nextTask (.spendToken accountId account))
    (entries : after.inflight = set c.inflight accountId ⟨[cause],c.nextTask⟩) (nextTask : after.nextTask = c.nextTask + 1) :
    Sound after joined := by
  have idle : (∃ frame, get c.tasks caller = some frame ∧ frame.spend = none) ∨ caller = c.nextTask := .inl ⟨_,called,rfl⟩
  have at_ : ∀ other, get after.tasks other =
      if other = c.nextTask then some (.spendToken accountId account) else if other = caller then none else get c.tasks other := by
    intro other
    rw [tasks,getSet,getDelete]
  have foundAt : ∀ other, get after.inflight other = if other = accountId then some ⟨[cause],c.nextTask⟩ else get c.inflight other := by
    intro other
    rw [entries,getSet]
  constructor
  · intro other frame its
    rw [at_] at its
    split_ifs at its with fresh away
    · exact fresh ▸ nextTask ▸ Nat.lt_succ_self _
    · exact (sound.numbered other frame its).trans_le (nextTask ▸ Nat.le_succ _)
  · intro other frame others its mine
    rw [at_] at its
    rw [foundAt]
    split_ifs at its with fresh away
    · cases its
      cases mine
      rw [if_pos rfl]
      exact ⟨_,rfl,fresh.symm⟩
    · obtain ⟨old,theirs,promise⟩ := sound.entered other frame others its mine
      have apart : others ≠ accountId := by
        rintro rfl
        cases none_.symm.trans theirs
      rw [if_neg apart]
      exact ⟨old,theirs,promise⟩
  · intro other its theirs
    rw [foundAt] at theirs
    split_ifs at theirs with same
    · cases theirs
      rw [at_,if_pos rfl,same]
      exact ⟨_,rfl,rfl⟩
    · rw [at_,if_neg (sound.apart (.inr rfl) theirs),if_neg (sound.apart idle theirs)]
      exact sound.running other its theirs
  · intro p inside
    rw [at_,if_neg (sound.stranger (.inr rfl) inside),if_neg (sound.stranger idle inside)]
    exact (sound.consents p inside).imp_left (fun below => nextTask ▸ below.trans (Nat.lt_succ_self _))
  · intro other its theirs inside
    rw [foundAt] at theirs
    split_ifs at theirs
    · cases theirs
      exact absurd (sound.consents _ inside).1 (Nat.lt_irrefl _)
    · exact sound.known other its theirs inside
  · intro other its account accessToken theirs gate manual
    rw [foundAt] at theirs
    split_ifs at theirs
    · cases theirs
      rw [at_,if_pos rfl] at gate
      cases gate
    · rw [at_,if_neg (sound.apart (.inr rfl) theirs),if_neg (sound.apart idle theirs)] at gate
      exact sound.gated other its account accessToken theirs gate manual

theorem Sound.leave (here : get c.tasks task = some (.spendSettled accountId))
    (tasks : after.tasks = delete c.tasks task)
    (entries : ∀ entry, get c.inflight accountId = some entry → entry.promise = task → after.inflight = delete c.inflight accountId)
    (nextTask : after.nextTask = c.nextTask) : Sound after joined := by
  obtain ⟨entry,found,promise⟩ := sound.entered task _ accountId here rfl
  have at_ : ∀ other, get after.tasks other = if other = task then none else get c.tasks other := by
    intro other
    rw [tasks,getDelete]
  have foundAt : ∀ other, get after.inflight other = if other = accountId then none else get c.inflight other := by
    intro other
    rw [entries entry found promise,getDelete]
  have kept : ∀ other its, get after.inflight other = some its → get c.inflight other = some its ∧ its.promise ≠ task := by
    intro other its theirs
    rw [foundAt] at theirs
    split_ifs at theirs with same
    exact ⟨theirs,fun shared => same (sound.separate found theirs (shared.trans promise.symm))⟩
  constructor
  · intro other frame its
    rw [at_] at its
    split_ifs at its
    exact nextTask ▸ sound.numbered other frame its
  · intro other frame others its mine
    rw [at_] at its
    split_ifs at its with same
    obtain ⟨old,theirs,promise'⟩ := sound.entered other frame others its mine
    have apart : others ≠ accountId := by
      rintro rfl
      cases found.symm.trans theirs
      exact same (promise'.symm.trans promise)
    rw [foundAt,if_neg apart]
    exact ⟨old,theirs,promise'⟩
  · intro other its theirs
    obtain ⟨before,apart⟩ := kept other its theirs
    rw [at_,if_neg apart]
    exact sound.running other its before
  · intro p inside
    obtain ⟨below,mine⟩ := sound.consents p inside
    refine ⟨nextTask ▸ below,fun frame its => ?_⟩
    rw [at_] at its
    split_ifs at its
    exact mine frame its
  · intro other its theirs inside
    exact sound.known other its (kept other its theirs).1 inside
  · intro other its account accessToken theirs gate manual
    obtain ⟨before,apart⟩ := kept other its theirs
    rw [at_,if_neg apart] at gate
    exact sound.gated other its account accessToken before gate manual

end

end Sound
variable {s t : Consents}

theorem soundStep {e} (sound : Sound s.coordinator s.joined) (done : s.step e = some t) :
    Sound t.coordinator t.joined := by
  obtain ⟨after,its,rfl⟩ := Option.map_eq_some_iff.mp done
  cases spending its with
  | elsewhere tasks inflight nextTask trace joins =>
    rw [joins]
    exact sound.elsewhere tasks inflight nextTask
  | aside task step joins old =>
    rw [joins]
    exact sound.aside step old
  | joined caller accountId cause entry causes called inflight added tasks entries nextTask trace joins =>
    rw [joins]
    exact sound.join called inflight added tasks entries nextTask
  | established caller accountId cause account called none_ tasks entries nextTask trace joins =>
    rw [joins]
    exact sound.establish called none_ tasks entries nextTask
  | gated task accountId account accessToken at_ alone along trace joins =>
    rw [joins]
    exact sound.along at_ rfl along (fun _ _ _ => alone)
  | calledOff task accountId account accessToken fresh action at_ off along trace joins =>
    rw [joins]
    exact sound.along at_ rfl along (by simp)
  | moved task accountId before frame at_ its along past trace joins =>
    rw [joins]
    refine sound.along at_ its along ?_
    rcases past with ⟨account,seq,issuedAtMs,rfl⟩ | rfl <;> simp
  | left task accountId at_ tasks entries nextTask trace joins =>
    rw [joins]
    exact sound.leave at_ tasks entries nextTask

theorem soundStart {s} (start : consentMachine.init s) : Sound s.coordinator s.joined ∧ Honoured s := by
  obtain ⟨⟨codexRegistered,same⟩,none_⟩ := start
  obtain ⟨c,joined⟩ := s
  cases same
  cases none_
  refine ⟨⟨?_,?_,?_,?_,?_,?_⟩,?_⟩
  all_goals simp [Honoured]

theorem soundReachable {s} (reach : consentMachine.Reachable s) : Sound s.coordinator s.joined :=
  reach.invariant (P := fun s => Sound s.coordinator s.joined) (fun _ start => (soundStart start).1) (fun _ _ _ => soundStep)

theorem Sound.onePing {c joined} (sound : Sound c joined) : OnePing c := by
  intro task other accountId account account' seq seq' issuedAtMs issuedAtMs' here there
  obtain ⟨entry,found,promise⟩ := sound.entered task _ accountId here rfl
  obtain ⟨its,theirs,promise'⟩ := sound.entered other _ accountId there rfl
  cases found.symm.trans theirs
  exact promise.symm.trans promise'

theorem honouredStep {e} (sound : Sound s.coordinator s.joined) (honoured : Honoured s)
    (early : inTime s e = true) (done : s.step e = some t) : Honoured t := by
  obtain ⟨after,its,rfl⟩ := Option.map_eq_some_iff.mp done
  have same : (∀ p, skipped after p = skipped s.coordinator p) → manualJoin s.coordinator e = none →
      Honoured ⟨after,(manualJoin s.coordinator e).toList ++ s.joined⟩ := by
    intro trace joins p inside
    rw [joins] at inside
    exact (trace p).trans (honoured p inside)
  cases spending its with
  | elsewhere tasks inflight nextTask trace joins => exact same trace joins
  | aside task step joins old =>
    intro p inside
    rw [joins] at inside
    refine Bool.eq_false_iff.mpr (fun gone => ?_)
    rcases step.trace p gone with before | mine
    · exact Bool.eq_false_iff.mp (honoured p inside) before
    · exact sound.stranger (old.imp_right And.left) inside mine
  | joined caller accountId cause entry causes called inflight added tasks entries nextTask trace joins =>
    intro p inside
    rw [trace]
    rcases List.mem_append.mp inside with new | old
    · have late := (Bool.and_eq_true_iff.mp early).1
      rw [Option.mem_toList.mp new] at late
      simpa using late
    · exact honoured p old
  | established caller accountId cause account called none_ tasks entries nextTask trace joins => exact same trace joins
  | gated task accountId account accessToken at_ alone along trace joins => exact same trace joins
  | calledOff task accountId account accessToken fresh action at_ off along trace joins =>
    intro p inside
    rw [joins] at inside
    refine Bool.eq_false_iff.mpr (fun gone => ?_)
    rcases (trace p).mp gone with before | rfl
    · exact Bool.eq_false_iff.mp (honoured p inside) before
    · -- The spend is joined, so its causes hold the consent that the gate must not overrule.
      obtain ⟨entry,found,rfl⟩ := sound.entered _ _ accountId at_ rfl
      have manual := sound.known accountId entry found inside
      have late := (Bool.and_eq_true_iff.mp early).2
      simp [action,at_,off,sharedCauses,found,manual] at late
  | moved task accountId before frame at_ its along past trace joins => exact same trace joins
  | left task accountId at_ tasks entries nextTask trace joins => exact same trace joins

theorem lateStep {e} (sound : Sound s.coordinator s.joined) (late : inTime s e = false)
    (done : s.step e = some t) : ¬ Honoured t := by
  obtain ⟨after,its,rfl⟩ := Option.map_eq_some_iff.mp done
  intro honoured
  rcases Bool.and_eq_false_iff.mp late with joins | gate
  · obtain ⟨p,manual,gone⟩ : ∃ p, manualJoin s.coordinator e = some p ∧ skipped s.coordinator p = true := by
      cases manual : manualJoin s.coordinator e with
      | none => simp [manual] at joins
      | some p => exact ⟨p,rfl,by simpa [manual] using joins⟩
    have kept : skipped after p = skipped s.coordinator p := by
      cases spending its with
      | joined caller accountId cause entry causes called inflight added tasks entries nextTask trace joins => exact trace p
      | elsewhere tasks inflight nextTask trace joins => exact trace p
      | established caller accountId cause account called none_ tasks entries nextTask trace joins => exact trace p
      | gated task accountId account accessToken at_ alone along trace joins => exact trace p
      | moved task accountId before frame at_ its along past trace joins => exact trace p
      | left task accountId at_ tasks entries nextTask trace joins => exact trace p
      | aside task step joins old => cases joins.symm.trans manual
      | calledOff task accountId account accessToken fresh action at_ off along trace joins => cases joins.symm.trans manual
    have inside : p ∈ (manualJoin s.coordinator e).toList ++ s.joined := by simp [manual]
    cases (honoured p inside).symm.trans (kept.trans gone)
  · split at gate
    · rename_i task fresh action
      split at gate
      · rename_i accountId account accessToken at_
        obtain ⟨off,manual⟩ : calledOff fresh = true ∧ .manualRefresh ∈ sharedCauses s.coordinator task accountId := by
          simpa using gate
        obtain ⟨entry,found,promise⟩ := sound.entered task _ accountId at_ rfl
        have causes : sharedCauses s.coordinator task accountId = entry.causes := by simp [sharedCauses,found,promise]
        have joined : task ∈ s.joined :=
          promise ▸ sound.gated accountId entry account accessToken found (promise ▸ at_) (causes ▸ manual)
        have gone : after = resumeSpendGate s.coordinator e.now task accountId account fresh := by
          simpa [step,action,at_,resume] using its.symm
        have skips_ : skipped after task = true := by
          unfold calledOff at off
          rw [gone,resumeSpendGate,if_pos off]
          simp [skipped,skips,Coordinator.settleSpend,Coordinator.record]
        cases (honoured task (List.mem_append_right _ joined)).symm.trans skips_
      · cases gate
    · cases gate

/-- One ping at a time for an account; a consent that comes in time is honoured, and one that
does not is not. -/
theorem consentHonoured {s : Consents} (reach : consentMachine.Reachable s) : OnePing s.coordinator ∧
    (consentMachine.ReachableUnder (fun s e => inTime s e = true) s → Honoured s) ∧
    ∀ e t, consentMachine.step s e = some t → inTime s e = false → ¬ Honoured t := by
  have sound := soundReachable reach
  refine ⟨sound.onePing,fun timely => ?_,fun e t done late => lateStep sound late done⟩
  refine (timely.invariant (P := fun s => Sound s.coordinator s.joined ∧ Honoured s) (fun _ => soundStart) ?_).2
  rintro s e t ⟨sound,honoured⟩ early done
  exact ⟨soundStep sound done,honouredStep sound honoured early done⟩

def switchedOff : Account := { account with autoRefreshEnabled := false }

def joinedEarly : List Event :=
  [⟨0,.observe "a" .scheduledPrime⟩,⟨0,.resume 0 (.row (some account))⟩,⟨1,.observe "a" .manualRefresh⟩,
    ⟨1,.resume 2 (.row (some switchedOff))⟩,⟨2,.resume 1 (.token (.ok "x"))⟩]

theorem consentHonouredEarly : ∃ s, consentMachine.run ⟨.start true,[]⟩ joinedEarly = some s ∧ s.joined = [1] ∧
    get s.coordinator.tasks 1 = some (.spendPing "a" account 1 2) ∧ Honoured s ∧ OnePing s.coordinator := by
  have start : consentMachine.init ⟨.start true,[]⟩ := ⟨⟨true,rfl⟩,rfl⟩
  have timely := Machine.runReachableUnder joinedEarly start (rfl : consentMachine.runUnder inTime _ joinedEarly = _)
  have honoured := consentHonoured timely.reachable
  exact ⟨_,rfl,rfl,rfl,honoured.2.1 timely,honoured.1⟩

def joinedLate : List Event :=
  [⟨0,.observe "a" .scheduledPrime⟩,⟨0,.resume 0 (.row (some account))⟩,⟨1,.resume 1 (.token (.ok "x"))⟩,
    ⟨1,.observe "a" .manualRefresh⟩,⟨1,.resume 2 (.row (some account))⟩,⟨2,.resume 1 (.row (some switchedOff))⟩]

theorem consentOverruled : ¬ ∀ s, consentMachine.Reachable s → Honoured s := by
  intro all
  have reach := Machine.runReachable (m := consentMachine) joinedLate (s := ⟨.start true,[]⟩) ⟨⟨true,rfl⟩,rfl⟩ rfl
  have honoured := all _ reach 1 (by decide)
  revert honoured
  decide

end Clankermux.CodexSpendCoordinator
