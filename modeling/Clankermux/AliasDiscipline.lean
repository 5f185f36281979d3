import Clankermux.AliasFallback
import Clankermux.History
import Clankermux.Ledger

/-! Alias fallback is disciplined: what the entries of a call say of one another. -/
namespace Clankermux.AliasFallback

@[grind] def Entry.reachedOf : Entry → Option Nat
  | .reached stage => some stage
  | _ => none

@[grind] def Entry.auditedOf : Entry → Option Nat
  | .audited stage _ => some stage
  | _ => none

@[grind] def Ending.Retryable : Ending → Prop
  | .failed (some outcome) => (aliasFallbackReason outcome).isSome = true
  | _ => False

@[grind] def Entry.Live : Entry → Prop
  | .abortSeen => False
  | .attempted _ _ _ (.failed _) => True
  | .attempted _ _ _ _ => False
  | _ => True

def BurstHeld (env : Env) (moment : Moment) (accountId : String) : Prop :=
  accountId ∈ Progress.oauthAccountIds env ∧ env.burstThrottleActive moment accountId = true

def Excused (env : Env) (moment : Moment) (account : Account) : Prop :=
  Progress.unattemptable env moment account = true ∨ BurstHeld env moment account.id

def Fine (env : Env) (before : List Entry) : Entry → Prop
  | .attempted stage account _ _ =>
    (∀ entry ∈ before, entry.Live) ∧
    (∀ other b told ending, .attempted other b told ending ∈ before → other ≠ stage → ending.Retryable) ∧
    ∀ earlier other b told ending later k, before = earlier ++ .attempted other b told ending::later → told[k]? = some true →
      (other = stage → Excused env (earlier,k) account) ∧ (other ≠ stage → BurstHeld env (earlier,k) account.id)
  | _ => True

structure Trail (env : Env) (visited : List Placed) (trace : List Entry) : Prop where
  reached : trace.filterMap Entry.reachedOf = visited.map (·.2)
  admitted : ∀ stage account told ending, .attempted stage account told ending ∈ trace → ∃ s ∈ visited, s.2 = stage ∧ rejected s = false
  fine : ∀ before entry after, trace = before ++ entry::after → Fine env before entry

structure Closed (env : Env) (ordered : List Placed) (trace : List Entry) (answer : Answer) : Prop where
  trail : ∃ visited rest, ordered = visited ++ rest ∧ Trail env visited trace ∧
    ∃ audited unaudited, rest = audited ++ unaudited ∧
      trace.filterMap Entry.auditedOf = ((visited ++ audited).filter rejected).map (·.2) ∧
      (answer ≠ .clientAbort → answer ≠ .threw → (∀ stage, answer ≠ .served stage true) → unaudited = []) ∧
      ∀ stage, answer = .served stage true → audited = [] ∧ ∃ front, visited = front ++ [stage]
  last : ∀ stage ok, answer = .served stage ok → stage ∈ ordered ∧ rejected stage = false ∧ ∃ before account told after,
    trace = before ++ .attempted stage.2 account told (.response ok)::after

structure Going (env : Env) (visited rest : List Placed) (p : Progress) : Prop where
  trail : Trail env visited p.trace
  live : ∀ entry ∈ p.trace, entry.Live
  retryable : ∀ stage account told ending, .attempted stage account told ending ∈ p.trace → ending.Retryable
  promised : ∀ before stage account told ending after k, p.trace = before ++ .attempted stage account told ending::after →
    told[k]? = some true → ∀ s ∈ rest, rejected s = false → ∀ id ∈ s.1.accountIds, BurstHeld env (before,k) id
  audits : p.trace.filterMap Entry.auditedOf = (visited.filter rejected).map (·.2)
  unaudited : p.unaudited = (rest.filter rejected).map (·.2)

structure Trying (env : Env) (visited : List Placed) (stage : Placed) (rest : List Placed) (accounts : List Account) (p : Progress)
    (mayAdvance : Bool) : Prop where
  trail : Trail env (visited ++ [stage]) p.trace
  live : ∀ entry ∈ p.trace, entry.Live
  others : ∀ other account told ending, .attempted other account told ending ∈ p.trace → other ≠ stage.2 → ending.Retryable
  mine : mayAdvance = true → ∀ other account told ending, .attempted other account told ending ∈ p.trace → ending.Retryable
  promised : ∀ before other account told ending after k, p.trace = before ++ .attempted other account told ending::after →
    told[k]? = some true → (∀ s ∈ rest, rejected s = false → ∀ id ∈ s.1.accountIds, BurstHeld env (before,k) id) ∧
      (other = stage.2 → ∀ b ∈ accounts, Excused env (before,k) b) ∧
      (other ≠ stage.2 → ∀ id ∈ stage.1.accountIds, BurstHeld env (before,k) id)
  audits : p.trace.filterMap Entry.auditedOf = ((visited ++ [stage]).filter rejected).map (·.2)
  unaudited : p.unaudited = (rest.filter rejected).map (·.2)

variable {env : Env} {visited rest ordered : List Placed} {stage : Placed} {p q : Progress}
  {trace before after added : List Entry}
  {entry : Entry} {accounts remaining : List Account} {account : Account} {mayAdvance : Bool}

theorem Trail.snoc (trail : Trail env visited trace) (quiet : entry.reachedOf = none) (fine : Fine env trace entry)
    (admitted : ∀ other account told ending, entry = .attempted other account told ending → ∃ s ∈ visited, s.2 = other ∧ rejected s = false) :
    Trail env visited (trace ++ [entry]) := by
  refine ⟨?_,?_,?_⟩
  · simp [quiet,trail.reached]
  · intro other account told ending mem
    obtain before | now := List.mem_append.mp mem
    · exact trail.admitted _ _ _ _ before
    · exact admitted _ _ _ _ (List.mem_singleton.mp now).symm
  · intro before x after split
    obtain ⟨-,rfl,rfl⟩ | ⟨less,-,same⟩ := History.snocSplit split
    · exact fine
    · exact trail.fine before x less same

theorem Trail.reach (trail : Trail env visited trace) : Trail env (visited ++ [stage]) (trace ++ [.reached stage.2]) := by
  refine ⟨?_,?_,?_⟩
  · simp [Entry.reachedOf,trail.reached]
  · intro other account told ending mem
    obtain before | now := List.mem_append.mp mem
    · obtain ⟨s,here,found⟩ := trail.admitted _ _ _ _ before
      exact ⟨s,List.mem_append_left _ here,found⟩
    · cases List.mem_singleton.mp now
  · intro before x after split
    obtain ⟨-,-,rfl⟩ | ⟨less,-,same⟩ := History.snocSplit split
    · trivial
    · exact trail.fine before x less same

theorem Trail.append (trail : Trail env visited trace)
    (quiet : ∀ entry ∈ added, entry.reachedOf = none ∧ ∀ other account told ending, entry ≠ .attempted other account told ending) :
    Trail env visited (trace ++ added) := by
  induction added using List.reverseRecOn with
  | nil => rwa [List.append_nil]
  | append_singleton front entry ih =>
    obtain ⟨unreached,other⟩ := quiet entry (by simp)
    rw [← List.append_assoc]
    refine (ih fun entry here => quiet entry (List.mem_append_left _ here)).snoc unreached ?_ fun _ _ _ _ same => absurd same (other _ _ _ _)
    cases entry with
    | attempted stage account told ending => exact absurd rfl (other _ _ _ _)
    | _ => trivial

theorem auditSkip (missing : stage.2 ∉ p.unaudited) : p.auditStage env stage = (p,true) := by
  rw [Progress.auditStage,if_pos]
  simp [missing]

def Audits (added : List Entry) : Prop := ∀ entry ∈ added, ∃ stage reason, entry = .audited stage reason

theorem Audits.quiet (audits : Audits added) :
    ∀ entry ∈ added, entry.reachedOf = none ∧ ∀ other account told ending, entry ≠ .attempted other account told ending := by
  intro entry here
  obtain ⟨stage,reason,rfl⟩ := audits entry here
  exact ⟨rfl,fun _ _ _ _ same => by cases same⟩

theorem auditSkips (missing : ∀ stage ∈ visited, stage.2 ∉ p.unaudited) :
    Progress.auditRejected env (visited ++ rest) p = Progress.auditRejected env rest p := by
  induction visited with
  | nil => rfl
  | cons stage tail ih =>
    rw [List.cons_append,Progress.auditRejected,auditSkip (missing stage (.head _))]
    exact ih fun s here => missing s (.tail _ here)

theorem auditRest {ok : Bool} (unique : (rest.map (·.2)).Nodup) (unaudited : p.unaudited = (rest.filter rejected).map (·.2))
    (audit : Progress.auditRejected env rest p = (q,ok)) :
    ∃ added audited left, q.trace = p.trace ++ added ∧ Audits added ∧ rest = audited ++ left ∧
      added.filterMap Entry.auditedOf = (audited.filter rejected).map (·.2) ∧ (ok = true → left = []) ∧
      q.unservable = p.unservable ∧ q.servableReached = p.servableReached := by
  induction rest generalizing p with
  | nil =>
    cases audit
    exact ⟨[],[],[],by simp,(fun _ absent => by cases absent),rfl,rfl,fun _ => rfl,rfl,rfl⟩
  | cons stage tail ih =>
    have uniqueTail := (List.nodup_cons.mp (by simpa using unique : (stage.2::tail.map (·.2)).Nodup)).2
    have fresh := (List.nodup_cons.mp (by simpa using unique : (stage.2::tail.map (·.2)).Nodup)).1
    rw [Progress.auditRejected] at audit
    cases refused : rejected stage with
    | false =>
      have same : p.auditStage env stage = (p,true) := by rw [Progress.auditStage,if_pos (by simp [refused])]
      rw [same] at audit
      obtain ⟨added,audited,left,trace,audits,parts,listed,whole,same,reached⟩ :=
        ih uniqueTail (by rw [unaudited,List.filter_cons_of_neg (by simp [refused])]) audit
      refine ⟨added,stage::audited,left,trace,audits,by rw [parts]; rfl,?_,whole,same,reached⟩
      rw [listed,List.filter_cons_of_neg (by simp [refused])]
    | true =>
      have listed : p.unaudited = stage.2::(tail.filter rejected).map (·.2) := by
        rw [unaudited,List.filter_cons_of_pos refused]
        rfl
      have step : p.auditStage env stage =
          ({ p with
            unaudited := (tail.filter rejected).map (·.2)
            trace := p.trace ++ [.audited stage.2 p.reason] },!env.auditFails p.trace) := by
        rw [Progress.auditStage,if_neg (by simp [refused,listed]),listed,List.erase_cons_head]
      rw [step] at audit
      cases fails : env.auditFails p.trace with
      | true =>
        rw [fails] at audit
        cases audit
        refine ⟨_,[stage],tail,rfl,?_,rfl,?_,(fun done => by cases done),rfl,rfl⟩
        · intro entry here
          exact ⟨_,_,List.mem_singleton.mp here⟩
        · rw [List.filter_cons_of_pos refused]
          rfl
      | false =>
        rw [fails] at audit
        obtain ⟨added,audited,left,trace,audits,parts,others,whole,same,reached⟩ := ih uniqueTail rfl audit
        refine ⟨.audited stage.2 p.reason::added,stage::audited,left,by simpa using trace,?_,by rw [parts]; rfl,?_,whole,same,reached⟩
        · intro entry here
          obtain rfl | later := List.mem_cons.mp here
          · exact ⟨_,_,rfl⟩
          · exact audits entry later
        · rw [List.filter_cons_of_pos refused,List.map_cons,← others]
          rfl

theorem auditAll {ok : Bool} (split : ordered = visited ++ rest) (unique : (ordered.map (·.2)).Nodup)
    (unaudited : p.unaudited = (rest.filter rejected).map (·.2)) (audit : Progress.auditRejected env ordered p = (q,ok)) :
    ∃ added audited left, q.trace = p.trace ++ added ∧ Audits added ∧ rest = audited ++ left ∧
      added.filterMap Entry.auditedOf = (audited.filter rejected).map (·.2) ∧ (ok = true → left = []) ∧
      q.unservable = p.unservable ∧ q.servableReached = p.servableReached := by
  rw [split,List.map_append,List.nodup_append] at unique
  have skip : Progress.auditRejected env ordered p = Progress.auditRejected env rest p := by
    rw [split,auditSkips]
    intro stage here missing
    rw [unaudited] at missing
    obtain ⟨other,mem,same⟩ := List.mem_map.mp missing
    exact unique.2.2 _ (List.mem_map_of_mem here) _ (List.mem_map_of_mem (List.mem_of_mem_filter mem)) same.symm
  rw [skip] at audit
  exact auditRest unique.2.1 unaudited audit

section Accounts

theorem Trail.stopped {answer : Answer} (trail : Trail env visited trace) (parts : ordered = visited ++ rest)
    (audits : trace.filterMap Entry.auditedOf = (visited.filter rejected).map (·.2)) (unserved : answer = .clientAbort ∨ answer = .threw) :
    Closed env ordered trace answer := by
  refine ⟨⟨visited,rest,parts,trail,[],rest,rfl,by simpa using audits,?_,?_⟩,?_⟩
  · intro abort threw
    exact absurd unserved (by simp [abort,threw])
  · intro s served
    obtain rfl | rfl := unserved <;> cases served
  · intro s ok served
    obtain rfl | rfl := unserved <;> cases served

theorem Trying.drop (trying : Trying env visited stage rest (account::remaining) p mayAdvance) :
    Trying env visited stage rest remaining p mayAdvance := by
  refine { trying with
    promised := ?_ }
  intro before other b told ending after k split last
  obtain ⟨later,same,others⟩ := trying.promised before other b told ending after k split last
  exact ⟨later,fun here c mem => same here c (.tail _ mem),others⟩

theorem Trying.pass (trying : Trying env visited stage rest (account::remaining) p mayAdvance)
    (passed : entry = .skipped stage.2 account ∨ entry = .suppressed stage.2 account) :
    Trying env visited stage rest remaining (p.log entry) mayAdvance := by
  have quiet : entry.reachedOf = none := by obtain rfl | rfl := passed <;> rfl
  have unaudited : entry.auditedOf = none := by obtain rfl | rfl := passed <;> rfl
  have live : entry.Live := by obtain rfl | rfl := passed <;> trivial
  have other : ∀ stage account told ending, entry ≠ .attempted stage account told ending := by
    intro _ _ _ _ same
    obtain rfl | rfl := passed <;> cases same
  have fine : Fine env p.trace entry := by obtain rfl | rfl := passed <;> trivial
  have earlier : ∀ {s b told ending}, .attempted s b told ending ∈ (p.log entry).trace → .attempted s b told ending ∈ p.trace := by
    intro s b told ending mem
    obtain before | now := List.mem_append.mp mem
    · exact before
    · exact absurd (List.mem_singleton.mp now).symm (other _ _ _ _)
  refine ⟨trying.trail.snoc quiet fine fun _ _ _ _ same => absurd same (other _ _ _ _),?_,?_,?_,?_,?_,trying.unaudited⟩
  · intro x mem
    obtain before | now := List.mem_append.mp mem
    · exact trying.live x before
    · rw [List.mem_singleton.mp now]
      exact live
  · intro s b told ending mem
    exact trying.others s b told ending (earlier mem)
  · intro may s b told ending mem
    exact trying.mine may s b told ending (earlier mem)
  · intro before s b told ending after k split last
    obtain ⟨-,-,same⟩ | ⟨less,-,same⟩ := History.snocSplit split
    · exact absurd same.symm (other _ _ _ _)
    · exact trying.drop.promised before s b told ending less k same last
  · rw [Progress.log,List.filterMap_append,trying.audits]
    simp [unaudited]

theorem toldLast {asks : Nat} {later k}
    (told : ((List.range asks).map (fun k => p.isLastAliasAttempt env (trace,k) remaining later))[k]? = some true) :
    (∀ b ∈ remaining, Excused env (trace,k) b) ∧ ∀ s ∈ later, ∀ id ∈ s.1.accountIds, BurstHeld env (trace,k) id := by
  rw [List.getElem?_map] at told
  obtain ⟨index,found,last⟩ := Option.map_eq_some_iff.mp told
  have same : index = k := by
    obtain ⟨bound,value⟩ := List.getElem?_eq_some_iff.mp found
    rw [← value,List.getElem_range]
  subst same
  have held : ∀ {id}, p.burstSuppressed env (trace,index) id = true → BurstHeld env (trace,index) id := by
    intro id suppressed
    simp only [Progress.burstSuppressed,Bool.and_eq_true,List.contains_iff_mem] at suppressed
    exact ⟨suppressed.1.2,suppressed.2⟩
  obtain ⟨accounts,stages⟩ := Bool.and_eq_true_iff.mp last
  constructor
  · intro b here
    cases suppressed : p.burstSuppressed env (trace,index) b.id with
    | true => exact .inr (held suppressed)
    | false => exact .inl (List.all_eq_true.mp accounts b (List.mem_filter.mpr ⟨here,by rw [suppressed]; rfl⟩))
  · intro s here id mem
    exact held (List.all_eq_true.mp (List.all_eq_true.mp stages s here) id mem)
variable {told : List Bool}

theorem Trying.fine {ending : Ending} (trying : Trying env visited stage rest (account::remaining) p mayAdvance)
    (routed : account.id ∈ stage.1.accountIds) : Fine env p.trace (.attempted stage.2 account told ending) := by
  refine ⟨trying.live,trying.others,?_⟩
  intro before other b told ending after k split last
  obtain ⟨-,same,others⟩ := trying.promised before other b told ending after k split last
  exact ⟨fun here => same here account (.head _),fun away => others away account.id routed⟩

theorem Trying.trailed {ending : Ending} (trying : Trying env visited stage rest (account::remaining) p mayAdvance)
    (admitted : rejected stage = false) (routed : account.id ∈ stage.1.accountIds) :
    Trail env (visited ++ [stage]) (p.trace ++ [.attempted stage.2 account told ending]) := by
  refine trying.trail.snoc rfl (trying.fine routed) ?_
  intro other b told ending same
  cases same
  exact ⟨stage,by simp,rfl,admitted⟩

theorem Trying.failed {asks outcome attempts} {oauth : Bool}
    (trying : Trying env visited stage rest (account::remaining) p mayAdvance) (admitted : rejected stage = false)
    (routed : account.id ∈ stage.1.accountIds) {begun}
    (begins : begun = { p with
      attempts := attempts
      oauthAttempted := oauth })
    (tells : told = (List.range asks).map (fun k => begun.isLastAliasAttempt env (p.trace,k) remaining (admissibleAliasStages rest)))
    {may} (mays : may = true → mayAdvance = true ∧ (Ending.failed outcome).Retryable) :
    Trying env visited stage rest remaining (begun.log (.attempted stage.2 account told (.failed outcome))) may := by
  subst begins
  refine ⟨trying.trailed admitted routed,?_,?_,?_,?_,?_,trying.unaudited⟩
  · intro entry mem
    obtain before | now := List.mem_append.mp mem
    · exact trying.live entry before
    · rw [List.mem_singleton.mp now]
      trivial
  · intro other b told ending mem away
    obtain before | now := List.mem_append.mp mem
    · exact trying.others other b told ending before away
    · cases List.mem_singleton.mp now
      exact absurd rfl away
  · intro yes other b told ending mem
    obtain ⟨mine,retryable⟩ := mays yes
    obtain before | now := List.mem_append.mp mem
    · exact trying.mine mine other b told ending before
    · cases List.mem_singleton.mp now
      exact retryable
  · intro before other b told' ending after k split last
    obtain ⟨-,same,now⟩ | ⟨less,-,same⟩ := History.snocSplit split
    · cases now
      subst same
      rw [tells] at last
      obtain ⟨accounts,stages⟩ := toldLast last
      refine ⟨?_,fun _ => accounts,fun away => absurd rfl away⟩
      intro s here fair
      exact stages s (List.mem_filter.mpr ⟨here,by rw [fair]; rfl⟩)
    · exact trying.drop.promised before other b told' ending less k same last
  · rw [Progress.log,List.filterMap_append,trying.audits]
    simp [Entry.auditedOf]

theorem Trying.served (trying : Trying env visited stage rest (account::remaining) p mayAdvance)
    (admitted : rejected stage = false) (routed : account.id ∈ stage.1.accountIds) (parts : ordered = visited ++ stage::rest) :
    Closed env ordered (p.trace ++ [.attempted stage.2 account told (.response true)]) (.served stage true) := by
  refine ⟨⟨visited ++ [stage],rest,by simpa using parts,trying.trailed admitted routed,[],rest,rfl,?_,?_,?_⟩,?_⟩
  · rw [List.filterMap_append,trying.audits]
    simp [Entry.auditedOf]
  · intro _ _ unserved
    exact absurd rfl (unserved stage)
  · intro s served
    cases served
    exact ⟨rfl,visited,rfl⟩
  · intro s ok served
    cases served
    exact ⟨by rw [parts]; simp,admitted,p.trace,account,told,[],rfl⟩

theorem Trying.refused {begun : Progress} {passed answer}
    (trying : Trying env visited stage rest (account::remaining) p mayAdvance)
    (admitted : rejected stage = false) (routed : account.id ∈ stage.1.accountIds) (parts : ordered = visited ++ stage::rest)
    (unique : (ordered.map (·.2)).Nodup) (same : begun.trace = p.trace ∧ begun.unaudited = p.unaudited)
    (audit : Progress.auditRejected env ordered (begun.log (.attempted stage.2 account told (.response false))) = (q,passed))
    (answers : answer = if passed then .served stage false else .threw) :
    Closed env ordered q.trace answer := by
  have further : ordered = (visited ++ [stage]) ++ rest := by simpa using parts
  obtain ⟨added,audited,left,trace,audits,split,listed,whole,-,-⟩ := auditAll further unique (by rw [Progress.log,same.2,trying.unaudited]) audit
  have grown : q.trace = (p.trace ++ [.attempted stage.2 account told (.response false)]) ++ added := by
    rw [trace,Progress.log,same.1]
  rw [grown]
  refine ⟨⟨visited ++ [stage],rest,by simpa using parts,(trying.trailed admitted routed).append audits.quiet,audited,left,split,?_,?_,?_⟩,?_⟩
  · have unaudited : [Entry.attempted stage.2 account told (.response false)].filterMap Entry.auditedOf = [] := rfl
    rw [List.filterMap_append,List.filterMap_append,trying.audits,listed,unaudited,List.append_nil,← List.map_append,← List.filter_append]
  · intro _ unthrown _
    cases passed with
    | true => exact whole rfl
    | false => exact absurd answers unthrown
  · intro s served
    cases passed with
    | true => rw [answers] at served; cases served
    | false => rw [answers] at served; cases served
  · intro s ok served
    cases passed with
    | true =>
      rw [answers] at served
      cases served
      exact ⟨by rw [parts]; simp,admitted,p.trace,account,told,added,by simp⟩
    | false =>
      rw [answers] at served
      cases served

def Tried (env : Env) (ordered visited : List Placed) (stage : Placed) (rest : List Placed) : Progress × Progress.Flow → Prop
  | (q,.ended answer) => Closed env ordered q.trace answer
  | (q,.exhausted may _) => Trying env visited stage rest [] q may

theorem tryAccountsKept (reason : String) (trying : Trying env visited stage rest accounts p mayAdvance)
    (admitted : rejected stage = false) (parts : ordered = visited ++ stage::rest) (unique : (ordered.map (·.2)).Nodup) :
    Tried env ordered visited stage rest
      (Progress.tryAccounts env ordered stage (admissibleAliasStages rest) accounts p mayAdvance reason) := by
  induction accounts generalizing p mayAdvance reason with
  | nil => exact trying
  | cons account remaining ih =>
    have further : ordered = (visited ++ [stage]) ++ rest := by simpa using parts
    unfold Progress.tryAccounts
    split
    · have trail : Trail env (visited ++ [stage]) (p.trace ++ [.abortSeen]) :=
        trying.trail.snoc rfl (by trivial) fun _ _ _ _ same => by cases same
      exact trail.stopped further (by simp [trying.audits,Entry.auditedOf]) (.inl rfl)
    · split
      · exact ih reason (trying.pass (.inl rfl))
      · split
        · exact ih _ (trying.pass (.inl rfl))
        · split
          · exact ih _ (trying.pass (.inr rfl))
          · split
            · exact trying.trail.stopped further trying.audits (.inr rfl)
            · rename_i _ _ _ _ target
              have routed : account.id ∈ stage.1.accountIds := by
                simp only [Bool.not_eq_true,Bool.not_eq_false',Bool.and_eq_true,List.contains_iff_mem] at target
                exact target.1
              extract_lets begun told done
              split
              · exact (trying.trailed admitted routed).stopped further (by simp [trying.audits,Entry.auditedOf]) (.inr rfl)
              · rename_i response
                have logged : done.trace = p.trace ++ [.attempted stage.2 account told (.response true)] := by rw [← response]; rfl
                show Closed env ordered done.trace _
                rw [logged]
                exact trying.served admitted routed parts
              · rename_i response
                have logged : done = begun.log (.attempted stage.2 account told (.response false)) := by rw [← response]
                split
                · rename_i audit
                  rw [logged] at audit
                  have same : begun.trace = p.trace ∧ begun.unaudited = p.unaudited := ⟨rfl,rfl⟩
                  exact trying.refused admitted routed parts unique same audit rfl
                · rename_i audit
                  rw [logged] at audit
                  have same : begun.trace = p.trace ∧ begun.unaudited = p.unaudited := ⟨rfl,rfl⟩
                  exact trying.refused admitted routed parts unique same audit rfl
              · rename_i outcome failed
                have logged : done = begun.log (.attempted stage.2 account told (.failed outcome)) := by rw [← failed]
                rw [logged]
                split
                · rename_i failure found
                  refine ih _ (trying.failed admitted routed rfl rfl fun may => ⟨may,?_⟩)
                  cases outcome with
                  | none => cases found
                  | some outcome => exact Option.isSome_iff_exists.mpr ⟨failure,found⟩
                · exact ih _ (trying.failed admitted routed rfl rfl fun may => by cases may)

end Accounts

section Stages

theorem Trying.same (trying : Trying env visited stage rest accounts p mayAdvance) (trace : q.trace = p.trace)
    (unaudited : q.unaudited = p.unaudited) : Trying env visited stage rest accounts q mayAdvance := by
  refine ⟨?_,?_,?_,?_,?_,?_,unaudited.trans trying.unaudited⟩ <;> rw [trace]
  · exact trying.trail
  · exact trying.live
  · exact trying.others
  · exact trying.mine
  · exact trying.promised
  · exact trying.audits

theorem Going.start (call : Call) : Going call.env [] call.ordered call.start := by
  have absent : ∀ {before after} {entry : Entry}, [] ≠ before ++ entry::after := by
    intro before after entry split
    cases before <;> cases split
  refine ⟨⟨rfl,?_,?_⟩,?_,?_,?_,rfl,rfl⟩
  · intro _ _ _ _ mem
    cases mem
  · intro before entry after split
    exact absurd split absent
  · intro entry mem
    cases mem
  · intro _ _ _ _ mem
    cases mem
  · intro before _ _ _ _ after _ split
    exact absurd split absent

theorem Going.enter (going : Going env visited (stage::rest) p) (parts : ordered = visited ++ stage::rest)
    (unique : (ordered.map (·.2)).Nodup) (admitted : rejected stage = false) :
    Trying env visited stage rest accounts (p.log (.reached stage.2)) true := by
  have fresh : ∀ s ∈ visited, s.2 ≠ stage.2 := by
    intro s here same
    rw [parts,List.map_append,List.nodup_append] at unique
    exact unique.2.2 _ (List.mem_map_of_mem here) stage.2 (by simp) same
  have earlier : ∀ {s b told ending}, .attempted s b told ending ∈ (p.log (.reached stage.2)).trace → .attempted s b told ending ∈ p.trace := by
    intro s b told ending mem
    obtain before | now := List.mem_append.mp mem
    · exact before
    · cases List.mem_singleton.mp now
  refine ⟨going.trail.reach,?_,?_,?_,?_,?_,?_⟩
  · intro entry mem
    obtain before | now := List.mem_append.mp mem
    · exact going.live entry before
    · rw [List.mem_singleton.mp now]
      trivial
  · intro other b told ending mem _
    exact going.retryable other b told ending (earlier mem)
  · intro _ other b told ending mem
    exact going.retryable other b told ending (earlier mem)
  · intro before other b told ending after k split last
    obtain ⟨-,-,same⟩ | ⟨less,-,same⟩ := History.snocSplit split
    · cases same
    · have promised := going.promised before other b told ending less k same last
      refine ⟨fun s here => promised s (.tail _ here),?_,fun _ => promised stage (.head _) admitted⟩
      intro mine
      obtain ⟨s,here,position,-⟩ := going.trail.admitted other b told ending (by rw [same]; simp)
      exact absurd (position.trans mine) (fresh s here)
  · rw [Progress.log,List.filterMap_append,going.audits]
    simp [Entry.auditedOf,admitted]
  · rw [Progress.log,going.unaudited,List.filter_cons_of_neg (by simp [admitted])]

theorem Trying.leave (trying : Trying env visited stage rest accounts p true) (trace : q.trace = p.trace)
    (unaudited : q.unaudited = p.unaudited) : Going env (visited ++ [stage]) rest q := by
  have left := trying.same trace unaudited
  refine ⟨left.trail,left.live,left.mine rfl,?_,left.audits,left.unaudited⟩
  intro before other b told ending after k split last
  exact (left.promised before other b told ending after k split last).1

theorem Going.audit (going : Going env visited (stage::rest) p) (refused : rejected stage = true) :
    (p.log (.reached stage.2)).auditStage env stage =
        ({ p with
          unaudited := (rest.filter rejected).map (·.2)
          trace := p.trace ++ [.reached stage.2] ++ [.audited stage.2 p.reason] },!env.auditFails (p.trace ++ [.reached stage.2])) ∧
      Going env (visited ++ [stage]) rest { p with
        unaudited := (rest.filter rejected).map (·.2)
        trace := p.trace ++ [.reached stage.2] ++ [.audited stage.2 p.reason] } := by
  have listed : p.unaudited = stage.2::(rest.filter rejected).map (·.2) := by
    rw [going.unaudited,List.filter_cons_of_pos refused]
    rfl
  constructor
  · rw [Progress.auditStage,if_neg (by simp [refused,Progress.log,listed])]
    simp [Progress.log,listed]
  · have split : ∀ {before entry after}, p.trace ++ [.reached stage.2] ++ [.audited stage.2 p.reason] = before ++ entry::after →
        (∀ s b told ending, entry ≠ .attempted s b told ending) ∨ ∃ less, p.trace = before ++ entry::less := by
      intro before entry after parts
      obtain ⟨-,-,rfl⟩ | ⟨less,-,first⟩ := History.snocSplit parts
      · exact .inl fun _ _ _ _ same => by cases same
      · obtain ⟨-,-,rfl⟩ | ⟨fewer,-,first⟩ := History.snocSplit first
        · exact .inl fun _ _ _ _ same => by cases same
        · exact .inr ⟨fewer,first⟩
    have earlier : ∀ {s b told ending}, .attempted s b told ending ∈ p.trace ++ [.reached stage.2] ++ [.audited stage.2 p.reason] →
        .attempted s b told ending ∈ p.trace := by
      intro s b told ending mem
      obtain ⟨before,after,parts⟩ := List.append_of_mem mem
      obtain other | ⟨less,same⟩ := split parts
      · exact absurd rfl (other _ _ _ _)
      · rw [same]
        simp
    refine ⟨going.trail.reach.snoc rfl (by trivial) (fun _ _ _ _ same => by cases same),?_,?_,?_,?_,rfl⟩
    · intro entry mem
      simp only [List.mem_append,List.mem_singleton] at mem
      obtain (before | rfl) | rfl := mem
      · exact going.live entry before
      · trivial
      · trivial
    · intro s b told ending mem
      exact going.retryable s b told ending (earlier mem)
    · intro before s b told ending after k parts last other here
      obtain none | ⟨less,same⟩ := split parts
      · exact absurd rfl (none _ _ _ _)
      · exact going.promised before s b told ending less k same last other (.tail _ here)
    · rw [List.filterMap_append,List.filterMap_append,going.audits]
      simp [Entry.auditedOf,refused]

def Visited (env : Env) (ordered : List Placed) : Progress × Except String Answer → Prop
  | (q,.ok answer) => Closed env ordered q.trace answer
  | (q,.error _) => ∃ visited rest, ordered = visited ++ rest ∧ Trail env visited q.trace ∧
      q.trace.filterMap Entry.auditedOf = (visited.filter rejected).map (·.2) ∧ q.unaudited = (rest.filter rejected).map (·.2)

theorem visitStagesKept (going : Going env visited rest p) (parts : ordered = visited ++ rest) (unique : (ordered.map (·.2)).Nodup) :
    Visited env ordered (p.visitStages env ordered rest) := by
  induction rest generalizing p visited with
  | nil => exact ⟨visited,[],parts,going.trail,going.audits,going.unaudited⟩
  | cons stage rest ih =>
    have further : ordered = (visited ++ [stage]) ++ rest := by simpa using parts
    unfold Progress.visitStages
    split
    · have trail : Trail env visited (p.trace ++ [.abortSeen]) := going.trail.snoc rfl (by trivial) fun _ _ _ _ same => by cases same
      exact trail.stopped parts (by simp [going.audits,Entry.auditedOf]) (.inl rfl)
    · extract_lets here
      split
      · rename_i refused
        obtain ⟨audited,kept⟩ := going.audit refused
        rw [audited]
        cases env.auditFails (p.trace ++ [.reached stage.2]) with
        | true => exact kept.trail.stopped further kept.audits (.inr rfl)
        | false => exact ih kept further
      · rename_i admitted
        have fair : rejected stage = false := Bool.not_eq_true _ ▸ admitted
        have entered : ∀ accounts, Trying env visited stage rest accounts here true := fun _ => going.enter parts unique fair
        split
        · exact (entered []).trail.stopped further (entered []).audits (.inr rfl)
        · exact ih ((entered []).leave (by rfl) (by rfl)) further
        · extract_lets gates stageReason
          split
          · exact ih ((entered []).leave (by rfl) (by rfl)) further
          · have tried := tryAccountsKept stageReason
              ((entered gates.accounts).same (q := { here with servableReached := true }) rfl rfl) fair parts unique
            split
            · rename_i ended
              rw [ended] at tried
              exact tried
            · rename_i exhausted
              rw [exhausted] at tried
              exact ih (Trying.leave tried (by rfl) (by rfl)) further
            · rename_i exhausted
              rw [exhausted] at tried
              exact ⟨visited ++ [stage],rest,further,tried.trail,tried.audits,tried.unaudited⟩

theorem giveUpKept {message : String} (parts : ordered = visited ++ rest) (unique : (ordered.map (·.2)).Nodup) (trail : Trail env visited p.trace)
    (audits : p.trace.filterMap Entry.auditedOf = (visited.filter rejected).map (·.2)) (unaudited : p.unaudited = (rest.filter rejected).map (·.2)) :
    Closed env ordered (p.giveUp env ordered message).1.trace (p.giveUp env ordered message).2 := by
  unfold Progress.giveUp
  split
  · have abort : Trail env visited (p.trace ++ [.abortSeen]) := trail.snoc rfl (by trivial) fun _ _ _ _ same => by cases same
    exact abort.stopped parts (by simp [audits,Entry.auditedOf]) (.inl rfl)
  · obtain ⟨q,passed,audit⟩ : ∃ q, ∃ passed, Progress.auditRejected env ordered p = (q,passed) := ⟨_,_,rfl⟩
    obtain ⟨added,audited,left,trace,quiet,split,listed,whole,-,-⟩ := auditAll parts unique unaudited audit
    have grown : Trail env visited q.trace := trace ▸ trail.append quiet.quiet
    have counted : q.trace.filterMap Entry.auditedOf = ((visited ++ audited).filter rejected).map (·.2) := by
      rw [trace,List.filterMap_append,audits,listed,List.filter_append,List.map_append]
    -- no stage of the plan served
    have closed : ∀ answer, (∀ stage ok, answer ≠ .served stage ok) → (answer ≠ .threw → left = []) → Closed env ordered q.trace answer := by
      intro answer unserved whole
      refine ⟨⟨visited,rest,parts,grown,audited,left,split,counted,fun _ unthrown _ => whole unthrown,?_⟩,?_⟩
      · intro stage served
        exact absurd served (unserved stage true)
      · intro stage ok served
        exact absurd served (unserved stage ok)
    rw [audit]
    cases passed with
    | false => exact closed .threw (fun _ _ served => by cases served) fun same => absurd rfl same
    | true =>
      have complete := whole rfl
      dsimp only
      split
      · exact closed .noPermitted (fun _ _ served => by cases served) fun _ => complete
      · exact closed (.unavailable 400 _) (fun _ _ served => by cases served) fun _ => complete
      · split
        · exact closed (.bridgeRefused _) (fun _ _ served => by cases served) fun _ => complete
        · exact closed (.unavailable 503 _) (fun _ _ served => by cases served) fun _ => complete

end Stages

section Calls
variable {call : Call} {s : Placed}

theorem stagesUnique : (call.stages.map (·.2)).Nodup := by
  rw [Call.stages]
  have places : call.plan.zipIdx.map (·.2) = List.range call.plan.length := by
    rw [List.zipIdx_eq_zip_range',List.range_eq_range']
    exact List.map_snd_zip (by simp)
  rw [places]
  exact List.nodup_range

def Call.Prefers (call : Call) (s : Placed) : Prop :=
  s ∈ call.stages ∧ rejected s = false ∧ ∃ held, call.held = some held ∧ held.expires > call.now ∧ s.1.targetIndex = some held.targetIndex

theorem firstPrefers (first : call.first = some s) : call.Prefers s := by
  unfold Call.first preferred at first
  split at first
  · cases first
  · rename_i held found
    split at first
    · rename_i live
      have mem := List.mem_of_find?_eq_some first
      obtain ⟨here,admitted⟩ := List.mem_filter.mp mem
      refine ⟨here,by simpa using admitted,held,found,live,?_⟩
      simpa using List.find?_some first
    · cases first

theorem firstNone (first : call.first = none) : ¬ call.Prefers s := by
  intro ⟨here,admitted,held,found,live,target⟩
  unfold Call.first preferred at first
  simp only [found,live,↓reduceIte,List.find?_eq_none] at first
  have absent := first s (List.mem_filter.mpr ⟨here,by simp [admitted]⟩)
  simp [target] at absent

theorem orderedUnique : (call.ordered.map (·.2)).Nodup := by
  rw [Call.ordered]
  cases first : call.first with
  | none => exact stagesUnique
  | some s =>
    rw [orderedStages,List.map_cons,List.nodup_cons]
    constructor
    · simp
    · exact stagesUnique.sublist (List.filter_sublist.map _)

theorem memOrdered : s ∈ call.ordered ↔ s ∈ call.stages := by
  rw [Call.ordered]
  cases first : call.first with
  | none => rfl
  | some preferred =>
    have here := (firstPrefers first).1
    rw [orderedStages,List.mem_cons,List.mem_filter]
    constructor
    · rintro (rfl | ⟨mem,-⟩)
      · exact here
      · exact mem
    · intro mem
      by_cases same : s.2 = preferred.2
      · exact .inl (List.inj_on_of_nodup_map stagesUnique mem here same)
      · exact .inr ⟨mem,by simpa using same⟩

theorem callClosed (call : Call) : Closed call.env call.ordered call.trace call.answer := by
  have begun := Going.start call
  rw [Call.trace,Call.answer,Call.handleAliasProxy]
  split
  · exact begun.trail.stopped rfl begun.audits (.inr rfl)
  · have whole : call.ordered = [] ++ call.ordered := rfl
    have visited := visitStagesKept begun whole orderedUnique
    split
    · rename_i ended
      rw [ended] at visited
      exact visited
    · rename_i ended
      rw [ended] at visited
      obtain ⟨visited,rest,parts,trail,audits,unaudited⟩ := visited
      exact giveUpKept parts orderedUnique trail audits unaudited

def Call.reached (call : Call) : List Nat := call.trace.filterMap Entry.reachedOf

def Call.audited (call : Call) : List Nat := call.trace.filterMap Entry.auditedOf

def Call.InOrder (call : Call) : Prop :=
  (∃ s, call.Prefers s ∧ call.reached <+: s.2::(List.range call.plan.length).filter (· ≠ s.2)) ∨
  ((∀ s, ¬ call.Prefers s) ∧ call.reached <+: List.range call.plan.length)

structure Disciplined (call : Call) : Prop where
  inOrder : call.InOrder
  admitted : ∀ stage account told ending, .attempted stage account told ending ∈ call.trace →
    stage ∈ call.reached ∧ ∃ s ∈ call.stages, s.2 = stage ∧ rejected s = false
  fine : ∀ before entry after, call.trace = before ++ entry::after → Fine call.env before entry
  responded : ∀ s ok, call.answer = .served s ok → s ∈ call.stages ∧ ∃ before account told after,
    call.trace = before ++ .attempted s.2 account told (.response ok)::after
  auditsOnce : call.audited.Nodup ∧ ∀ stage ∈ call.audited, ∃ s ∈ call.stages, s.2 = stage ∧ rejected s = true
  passed : ∀ s ∈ call.stages, rejected s = true → s.2 ∈ call.reached → s.2 ∈ call.audited
  unserved : call.answer ≠ .clientAbort → call.answer ≠ .threw → (∀ s, call.answer ≠ .served s true) →
    ∀ s ∈ call.stages, rejected s = true → s.2 ∈ call.audited
  servedLast : ∀ s, call.answer = .served s true → ∃ front, call.reached = front ++ [s.2] ∧ ∀ stage ∈ call.audited, stage ∈ front

theorem callInOrder (call : Call) : call.InOrder := by
  obtain ⟨visited,rest,parts,trail,-⟩ := (callClosed call).trail
  have follows : call.reached <+: call.ordered.map (·.2) := by
    rw [Call.reached,trail.reached,parts,List.map_append]
    exact List.prefix_append _ _
  have places : call.stages.map (·.2) = List.range call.plan.length := by
    rw [Call.stages,List.zipIdx_eq_zip_range',List.range_eq_range']
    exact List.map_snd_zip (by simp)
  rw [Call.ordered] at follows
  cases first : call.first with
  | none =>
    rw [first,orderedStages,places] at follows
    exact .inr ⟨fun s => firstNone first,follows⟩
  | some s =>
    refine .inl ⟨s,firstPrefers first,?_⟩
    rw [first,orderedStages,List.map_cons] at follows
    rwa [← places,List.filter_map]

theorem callDisciplined (call : Call) : Disciplined call := by
  obtain ⟨⟨visited,rest,parts,trail,audited,unaudited,split,audits,complete,served⟩,last⟩ := callClosed call
  have inside : ∀ s ∈ visited ++ audited, s ∈ call.ordered := by
    intro s here
    rw [parts,split,← List.append_assoc]
    exact List.mem_append_left _ here
  refine ⟨callInOrder call,?_,trail.fine,?_,?_,?_,?_,?_⟩
  · intro stage account told ending mem
    obtain ⟨s,here,place,fair⟩ := trail.admitted stage account told ending mem
    refine ⟨?_,s,memOrdered.mp (inside s (List.mem_append_left _ here)),place,fair⟩
    rw [Call.reached,trail.reached,← place]
    exact List.mem_map_of_mem here
  · intro s ok answer
    obtain ⟨here,-,entry⟩ := last s ok answer
    exact ⟨memOrdered.mp here,entry⟩
  · rw [Call.audited,audits]
    constructor
    · have unique : (call.ordered.map (·.2)).Nodup := orderedUnique
      rw [parts,split,← List.append_assoc,List.map_append] at unique
      exact (List.nodup_append.mp unique).1.sublist (List.filter_sublist.map _)
    · intro stage mem
      obtain ⟨s,here,place⟩ := List.mem_map.mp mem
      obtain ⟨here,refused⟩ := List.mem_filter.mp here
      exact ⟨s,memOrdered.mp (inside s here),place,refused⟩
  · intro s here refused reached
    rw [Call.reached,trail.reached] at reached
    obtain ⟨other,mem,same⟩ := List.mem_map.mp reached
    have mine : s ∈ visited := by
      rwa [List.inj_on_of_nodup_map stagesUnique (memOrdered.mp (inside other (List.mem_append_left _ mem))) here same] at mem
    rw [Call.audited,audits]
    exact List.mem_map_of_mem (List.mem_filter.mpr ⟨List.mem_append_left _ mine,refused⟩)
  · intro abort threw failed s here refused
    rw [complete abort threw failed,List.append_nil] at split
    have mine : s ∈ visited ++ audited := by
      rw [← split,← parts]
      exact memOrdered.mpr here
    rw [Call.audited,audits]
    exact List.mem_map_of_mem (List.mem_filter.mpr ⟨mine,refused⟩)
  · intro s success
    obtain ⟨rfl,front,rfl⟩ := served s success
    refine ⟨front.map (·.2),by rw [Call.reached,trail.reached]; simp,?_⟩
    intro stage mem
    rw [Call.audited,audits,List.append_nil] at mem
    obtain ⟨other,here,place⟩ := List.mem_map.mp mem
    obtain ⟨here,refused⟩ := List.mem_filter.mp here
    obtain before | now := List.mem_append.mp here
    · exact place ▸ List.mem_map_of_mem before
    · have fair := (last s true success).2.1
      rw [List.mem_singleton.mp now,fair] at refused
      cases refused

end Calls

section Affinity
variable {affinity : Affinity} {events : List AffinityEvent} {key : AffinityKey} {held : Held} {targetIndex : Nat} {now : Int}

structure Remembered (events : List AffinityEvent) (affinity : Affinity) : Prop where
  bounded : affinity.length ≤ MAX_AFFINITIES
  served : ∀ key held, (key,held) ∈ affinity → ∃ call now, .ended call (some key) now ∈ events ∧
    ∃ s ∈ call.stages, call.answer = .served s true ∧ s.1.targetIndex = some held.targetIndex

theorem rememberKept (key : AffinityKey) (targetIndex : Nat) (now : Int) (bounded : affinity.length ≤ MAX_AFFINITIES) :
    (remember affinity key targetIndex now).length ≤ MAX_AFFINITIES ∧
      ∀ entry ∈ remember affinity key targetIndex now, entry ∈ affinity ∨ entry = (key,⟨targetIndex,now + AFFINITY_TTL_MS⟩) := by
  unfold remember
  extract_lets live others room
  have fewer : List.Sublist others affinity := by
    show List.Sublist (InsertionMap.delete live key) affinity
    rw [InsertionMap.deleteEqFilter]
    exact List.filter_sublist.trans List.filter_sublist
  have roomFewer : List.Sublist room others := by
    show List.Sublist (if others.length ≥ MAX_AFFINITIES then others.drop 1 else others) others
    split
    · exact List.drop_sublist 1 others
    · exact List.Sublist.refl others
  have fresh : key ∉ InsertionMap.keys room := by
    intro inside
    have deleted : key ∈ InsertionMap.keys (InsertionMap.delete live key) := (roomFewer.map Prod.fst).subset inside
    exact (InsertionMap.memKeysDelete.mp deleted).2 rfl
  have room' : room.length < MAX_AFFINITIES := by
    have most := fewer.length_le
    show (if others.length ≥ MAX_AFFINITIES then others.drop 1 else others).length < MAX_AFFINITIES
    split
    · rw [List.length_drop]
      unfold MAX_AFFINITIES at *
      omega
    · omega
  rw [InsertionMap.setFresh fresh,List.length_append]
  refine ⟨room',?_⟩
  intro entry mem
  obtain old | new := List.mem_append.mp mem
  · exact .inl (fewer.subset (roomFewer.subset old))
  · exact .inr (List.mem_singleton.mp new)

theorem rememberedServed {call : Call} (remembered : call.remembered = some targetIndex) :
    ∃ s ∈ call.stages, call.answer = .served s true ∧ s.1.targetIndex = some targetIndex := by
  unfold Call.remembered at remembered
  split at remembered
  · rename_i s served
    exact ⟨s,((callDisciplined call).responded s true served).1,served,remembered⟩
  · cases remembered
variable {past : List AffinityEvent}

theorem Remembered.later (h : Remembered past affinity) : Remembered (past ++ events) affinity := by
  refine ⟨h.bounded,?_⟩
  intro key held mem
  obtain ⟨call,now,ended,served⟩ := h.served key held mem
  exact ⟨call,now,List.mem_append_left _ ended,served⟩

theorem rememberedStep (event : AffinityEvent) (h : Remembered past affinity) :
    ∃ after, affinities.step affinity event = some after ∧ Remembered (past ++ [event]) after := by
  cases event with
  | clearAliasAffinity =>
    refine ⟨[],rfl,Nat.zero_le _,?_⟩
    intro key held mem
    cases mem
  | ended call key now =>
    cases key with
    | none => exact ⟨affinity,rfl,h.later⟩
    | some key =>
      cases remembered : call.remembered with
      | none => exact ⟨affinity,by simp [affinities,remembered],h.later⟩
      | some targetIndex =>
        obtain ⟨bounded,entries⟩ := rememberKept key targetIndex now h.bounded
        refine ⟨remember affinity key targetIndex now,by simp [affinities,remembered],bounded,?_⟩
        intro other held mem
        obtain old | new := entries _ mem
        · exact h.later.served other held old
        · cases new
          exact ⟨call,now,by simp,rememberedServed remembered⟩

theorem affinityRemembered (h : Remembered past affinity) :
    ∃ after, affinities.run affinity events = some after ∧ Remembered (past ++ events) after := by
  induction events generalizing past affinity with
  | nil => exact ⟨affinity,rfl,by simpa using h⟩
  | cons event rest ih =>
    obtain ⟨next,step,kept⟩ := rememberedStep event h
    obtain ⟨after,run,kept⟩ := ih kept
    refine ⟨after,?_,by simpa using kept⟩
    rw [Machine.run,Machine.runUnder,if_pos rfl,step]
    exact run

end Affinity

theorem aliasFallbackDisciplined (call : Call) (events : List AffinityEvent) :
    Disciplined call ∧ ∃ affinity, affinities.run [] events = some affinity ∧ Remembered events affinity := by
  refine ⟨callDisciplined call,?_⟩
  have start : Remembered [] [] := ⟨Nat.zero_le _,fun _ _ mem => by cases mem⟩
  exact affinityRemembered start

def calm : Env where
  allAccounts := some [⟨"first","codex",none⟩,⟨"second","codex",none⟩]
  aborted _ := false
  select _ stage := .selected (stage.1.accountIds.map (⟨·,"codex",none⟩))
  gates _ accounts := ⟨accounts,false,false,false,false⟩
  isAccountAvailable _ _ := true
  wouldSuppressProbe _ _ := false
  isProviderOverloaded _ _ := false
  burstThrottleActive _ _ := false
  probeSuppressed _ _ := false
  identityHolds _ _ _ := true
  asks _ _ := 1
  ending _ _ _ := .failed (some .serverError)
  auditFails _ := false
  bridgeRefusal _ := none

def abandoned : Call where
  plan := [⟨some 0,none,["first"]⟩,⟨some 1,some "no capability",[]⟩]
  held := none
  now := 0
  env := { calm with
    aborted := fun _ => true }

def overtaken : Call where
  plan := [⟨some 0,none,["first","second"]⟩]
  held := none
  now := 0
  env := { calm with
    isProviderOverloaded := fun _ account => account.id = "second" }

theorem lookaheadOvertaken :
    (¬ ∀ call : Call, (∀ s, call.answer ≠ .served s true) → ∀ s ∈ call.stages, rejected s = true → s.2 ∈ call.audited) ∧
    ¬ ∀ (call : Call) before stage account ending after, call.trace = before ++ .attempted stage account [true] ending::after →
      ∀ other b told ending, .attempted other b told ending ∉ after := by
  constructor
  · intro audits
    have unserved : abandoned.answer = .clientAbort := by decide +kernel
    have audited := audits abandoned (by rw [unserved]; intro s served; cases served) (⟨some 1,some "no capability",[]⟩,1)
      (by decide +kernel) (by decide)
    exact absurd audited (by decide +kernel)
  · intro last
    have trace : overtaken.trace = [.reached 0] ++ .attempted 0 ⟨"first","codex",none⟩ [true] (.failed (some .serverError))::
        [.attempted 0 ⟨"second","codex",none⟩ [true] (.failed (some .serverError))] := by decide +kernel
    exact last overtaken _ _ _ _ _ trace _ _ _ _ List.mem_cons_self

end Clankermux.AliasFallback
