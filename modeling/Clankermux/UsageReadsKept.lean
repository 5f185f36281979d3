import Clankermux.UsageReadSpacing

/-! Every step keeps the reads apart; the deadlines stand as long as none is noted at a reading of the clock before the
start of a fetch that is still out. -/
namespace Clankermux.UsageReads
variable {Account : Type} [DecidableEq Account] {s t : UsageCache Account} {a : Account}

theorem acquireEffect (s : UsageCache Account) (a : Account) :
    (∃ later waitMs, s.tryAcquireAnthropicUsageRead a = (s.setAccount a later,.waitMs waitMs) ∧ Restamps s.clock (s.accounts a) later ∧
      ((s.accounts a).held = true → later = s.accounts a)) ∨
    (s.tryAcquireAnthropicUsageRead a =
      ({ s.setAccount a { s.accounts a with held := true } with slots := s.slots ++ [⟨a,false,s.reads⟩] },.slot) ∧
      (s.accounts a).held = false ∧ ∀ age, Covered s.clock (s.accounts a) age → ANTHROPIC_USAGE_READ_MIN_GAP_MS ≤ age) := by
  unfold UsageCache.tryAcquireAnthropicUsageRead
  rcases tryAcquireCases s.clock (s.accounts a) with ⟨later,waitMs,same,restamps,still⟩ | ⟨same,free,old⟩
  · exact .inl ⟨later,waitMs,by rw [same],restamps,still⟩
  · exact .inr ⟨by rw [same],free,old⟩

theorem commitEffect {i slot} (here : s.slots[i]? = some slot) (open_ : slot.done = false) :
    s.commit i = ((({ s with slots := s.slots.set i { slot with done := true } }.setAccount slot.account (s.accounts slot.account).release).setAccount
      slot.account ((s.accounts slot.account).release.markRead s.clock)).logRead slot.account s.time true) := by
  rw [UsageCache.commit,UsageCache.useSlot,here]
  simp only [open_,Bool.false_eq_true,if_false,UsageCache.setAccount,Function.update_self]

theorem useSpent {i use}
    (spent : ∀ slot, s.slots[i]? = some slot → slot.done = true) : s.useSlot i use = s := by
  unfold UsageCache.useSlot
  cases found : s.slots[i]? with
  | none => rfl
  | some slot => simp only [spent slot found,if_true]

omit [DecidableEq Account] in
theorem slotCases (s : UsageCache Account) (i : Nat) :
    (∃ slot, s.slots[i]? = some slot ∧ slot.done = false) ∨ ∀ slot, s.slots[i]? = some slot → slot.done = true := by
  by_cases open_ : ∃ slot, s.slots[i]? = some slot ∧ slot.done = false
  · exact .inl open_
  · exact .inr (fun slot here => by
      by_contra undone
      exact open_ ⟨slot,here,by simpa using undone⟩)

namespace Budgeted

theorem acquire (fit : Budgeted s) : Budgeted (s.tryAcquireAnthropicUsageRead a).1 := by
  obtain ⟨later,waitMs,same,restamps,_⟩ | ⟨same,free,old⟩ := acquireEffect s a
  · rw [same]
    exact fit.set restamps
  · rw [same]
    exact fit.grant free old

theorem mark (fit : Budgeted s) : Budgeted (s.setAccount a ((s.accounts a).markRead s.clock)) :=
  fit.set ⟨rfl,fun _ old _ => markCovers old⟩

theorem markCovered (s : UsageCache Account) : Covered (s.setAccount a ((s.accounts a).markRead s.clock)).clock
    ((s.setAccount a ((s.accounts a).markRead s.clock)).accounts a) (s.time - s.time) := by
  rw [UsageCache.setAccount]
  dsimp only
  rw [Function.update_self]
  exact markCovers (by omega)

theorem commit (fit : Budgeted s) (i : Nat) : Budgeted (s.commit i) := by
  obtain ⟨slot,here,open_⟩ | spent := slotCases s i
  · obtain ⟨closed,others⟩ := fit.close here open_
    rw [commitEffect here open_]
    have marked := closed.mark (a := slot.account)
    simp only [UsageCache.setAccount,Function.update_self] at marked ⊢
    refine marked.log (Int.le_refl _) ?_ (fun _ => others)
    dsimp only
    rw [Function.update_self]
    exact markCovers (by omega)
  · rw [UsageCache.commit,useSpent spent]
    exact fit

theorem cancel (fit : Budgeted s) (i : Nat) : Budgeted (s.cancel i) := by
  obtain ⟨slot,here,open_⟩ | spent := slotCases s i
  · rw [UsageCache.cancel,UsageCache.useSlot,here]
    simp only [open_]
    exact (fit.close here open_).1
  · rw [UsageCache.cancel,useSpent spent]
    exact fit

theorem noteRead (fit : Budgeted s) : Budgeted (s.noteAnthropicUsageRead a) :=
  fit.mark.log (Int.le_refl _) (markCovered s) (fun admitted => absurd admitted (by decide))

theorem restore (fit : Budgeted s) {lastReadAt readingObservedAt sentAt}
    (stamped : s.Stamped (s.lastRead lastReadAt readingObservedAt) sentAt) :
    Budgeted (s.restoreAnthropicUsageRead a lastReadAt readingObservedAt sentAt) := by
  unfold UsageCache.restoreAnthropicUsageRead
  cases last : s.lastRead lastReadAt readingObservedAt with
  | none => exact fit
  | some lastRead =>
    rw [last] at stamped
    refine (fit.set (seedRestamps _ _ lastRead)).log stamped.1 ?_ (fun admitted => absurd admitted (by decide))
    rw [UsageCache.setAccount]
    dsimp only
    rw [Function.update_self]
    exact seedCovers (Int.sub_nonneg_of_le stamped.1) (stamped.2 lastRead rfl)

omit [DecidableEq Account] in
theorem asideOf (fit : Budgeted s) (time : t.time = s.time) (clock : t.clock = s.clock) (accounts : t.accounts = s.accounts)
    (slots : t.slots = s.slots) (reads : t.reads = s.reads) : Budgeted t := by
  obtain ⟨past,covered,held,apart,single⟩ := fit
  refine ⟨?_,?_,?_,?_,?_⟩
  · rw [reads,time]; exact past
  · rw [reads,time,clock,accounts]; exact covered
  · rw [slots,accounts]; exact held
  · unfold Apart
    rw [slots,reads,time]
    exact apart
  · rw [slots]; exact single

end Budgeted

structure SameDeadlines (s t : UsageCache Account) : Prop where
  clock : t.clock = s.clock
  until_ : t.usageRateLimitedUntil = s.usageRateLimitedUntil
  fetches : t.fetches = s.fetches
  notes : t.notes = s.notes

theorem acquireDeadlines (s : UsageCache Account) (a : Account) : SameDeadlines s (s.tryAcquireAnthropicUsageRead a).1 := by
  obtain ⟨_,_,same,_⟩ | ⟨same,_⟩ := acquireEffect s a <;> rw [same] <;> exact ⟨rfl,rfl,rfl,rfl⟩

theorem commitDeadlines (s : UsageCache Account) (i : Nat) : SameDeadlines s (s.commit i) := by
  obtain ⟨slot,here,open_⟩ | spent := slotCases s i
  · rw [commitEffect here open_]
    exact ⟨rfl,rfl,rfl,rfl⟩
  · rw [UsageCache.commit,useSpent spent]
    exact ⟨rfl,rfl,rfl,rfl⟩

theorem cancelDeadlines (s : UsageCache Account) (i : Nat) : SameDeadlines s (s.cancel i) := by
  obtain ⟨slot,here,open_⟩ | spent := slotCases s i
  · rw [UsageCache.cancel,UsageCache.useSlot,here]
    simp only [open_]
    exact ⟨rfl,rfl,rfl,rfl⟩
  · rw [UsageCache.cancel,useSpent spent]
    exact ⟨rfl,rfl,rfl,rfl⟩

theorem restoreDeadlines (s : UsageCache Account) (lastReadAt readingObservedAt : Option Int) (sentAt : Int) :
    SameDeadlines s (s.restoreAnthropicUsageRead a lastReadAt readingObservedAt sentAt) := by
  unfold UsageCache.restoreAnthropicUsageRead
  split <;> exact ⟨rfl,rfl,rfl,rfl⟩

structure Noted (s : UsageCache Account) : Prop where
  reached : ∀ note ∈ s.notes, s.clock ≤ note.reached
  standing : ∀ note ∈ s.notes, note.until_ ≤ note.reached ∨
    ∃ deadline, s.usageRateLimitedUntil note.account = some deadline ∧ note.until_ ≤ deadline.until_
  later : ∀ fetch ∈ s.fetches, fetch.landed = false → ∀ deadline, s.usageRateLimitedUntil fetch.account = some deadline →
    fetch.fetchStartedAt ≤ deadline.recordedAt

def UsageCache.Forward (s : UsageCache Account) (accountId : Account) : Prop :=
  ∀ fetch ∈ s.fetches, fetch.landed = false → fetch.account = accountId → fetch.fetchStartedAt ≤ s.clock

namespace Noted

omit [DecidableEq Account] in
theorem asideOf (fit : Noted s) (same : SameDeadlines s t) : Noted t := by
  obtain ⟨reached,standing,later⟩ := fit
  refine ⟨?_,?_,?_⟩
  · rw [same.notes,same.clock]; exact reached
  · rw [same.notes,same.until_]; exact standing
  · rw [same.fetches,same.until_]; exact later

omit [DecidableEq Account] in
theorem pass (fit : Noted s) (elapsed clock : Int) : Noted (s.pass elapsed clock) where
  reached note here := by
    obtain ⟨old,_,rfl⟩ := List.mem_map.mp here
    exact Int.le_max_right _ _
  standing note here := by
    obtain ⟨old,there,rfl⟩ := List.mem_map.mp here
    exact (fit.standing old there).imp (fun passed => Int.le_trans passed (Int.le_max_left _ _)) id
  later := fit.later

theorem note (fit : Noted s) (forward : s.Forward a) (until_ : Int) : Noted (s.noteRateLimited a until_) := by
  have reached : ∀ note ∈ ⟨a,until_,s.clock⟩::s.notes, s.clock ≤ note.reached := by
    intro note here
    rcases List.mem_cons.mp here with rfl | old
    · exact Int.le_refl _
    · exact fit.reached note old
  unfold UsageCache.noteRateLimited
  dsimp only
  split
  · rename_i longer
    refine ⟨reached,fun note here => ?_,fun fetch here out deadline stands => ?_⟩
    · rcases List.mem_cons.mp here with rfl | old
      · exact .inr ⟨⟨until_,s.clock⟩,Function.update_self _ _ _,Int.le_refl _⟩
      · refine (fit.standing note old).imp id ?_
        rintro ⟨deadline,stands,least⟩
        by_cases own : note.account = a
        · rw [own] at stands
          rw [stands,Option.all_some,decide_eq_true_eq] at longer
          exact ⟨⟨until_,s.clock⟩,by rw [own]; exact Function.update_self _ _ _,by dsimp only; omega⟩
        · exact ⟨deadline,(Function.update_of_ne own _ _).trans stands,least⟩
    · by_cases own : fetch.account = a
      · dsimp only at stands
        rw [own,Function.update_self] at stands
        cases stands
        exact forward fetch here out own
      · exact fit.later fetch here out deadline ((Function.update_of_ne own _ _).symm.trans stands)
  · rename_i shorter
    refine ⟨reached,fun note here => ?_,fit.later⟩
    rcases List.mem_cons.mp here with rfl | old
    · cases stands : s.usageRateLimitedUntil a with
      | none => simp [stands] at shorter
      | some deadline =>
        rw [stands,Option.all_some,decide_eq_true_eq] at shorter
        exact .inr ⟨deadline,rfl,by dsimp only; omega⟩
    · exact fit.standing note old

theorem look (fit : Noted s) : Noted (s.getRateLimitedUntil a).1 := by
  unfold UsageCache.getRateLimitedUntil
  cases stands : s.usageRateLimitedUntil a with
  | none => exact fit
  | some entry =>
    dsimp only
    split
    · rename_i passed
      refine ⟨fit.reached,fun note here => ?_,fun fetch here out deadline still => ?_⟩
      · by_cases own : note.account = a
        · refine .inl ((fit.standing note here).elim id ?_)
          rintro ⟨deadline,held,least⟩
          rw [own,stands,Option.some.injEq] at held
          have := fit.reached note here
          subst held
          omega
        · refine (fit.standing note here).imp id ?_
          rintro ⟨deadline,held,least⟩
          exact ⟨deadline,(Function.update_of_ne own _ _).trans held,least⟩
      · by_cases own : fetch.account = a
        · dsimp only at still
          rw [own,Function.update_self] at still
          cases still
        · exact fit.later fetch here out deadline ((Function.update_of_ne own _ _).symm.trans still)
    · exact fit

omit [DecidableEq Account] in
theorem land (fit : Noted s) (i : Nat) : Noted (s.land i) := by
  unfold UsageCache.land
  cases found : s.fetches[i]? with
  | none => exact fit
  | some sent =>
    refine ⟨fit.reached,fit.standing,fun fetch here out => ?_⟩
    rcases List.mem_or_eq_of_mem_set here with old | rfl
    · exact fit.later fetch old out
    · cases out

theorem answer (fit : Noted s) {i sent} (found : s.fetches[i]? = some sent) (out : sent.landed = false)
    (isCurrent : Bool) (outcome : UsageCache.Outcome)
    (forward : ∀ retryAfterMs, outcome = .rateLimited retryAfterMs → (s.land i).Forward sent.account) :
    Noted ((s.land i).answerFetch sent isCurrent outcome) := by
  have landed := fit.land i
  unfold UsageCache.answerFetch
  cases isCurrent with
  | false => exact landed
  | true =>
    cases outcome with
    | success =>
      have kept : ((s.land i).usageRateLimitedUntil sent.account).any (fun deadline => decide (sent.fetchStartedAt > deadline.recordedAt)) = false := by
        have same : (s.land i).usageRateLimitedUntil = s.usageRateLimitedUntil := by rw [UsageCache.land,found]
        rw [same]
        cases stands : s.usageRateLimitedUntil sent.account with
        | none => rfl
        | some deadline =>
          have := fit.later sent (List.mem_of_getElem? found) out deadline stands
          rw [Option.any_some,decide_eq_false_iff_not]
          omega
      simp only [kept]
      exact landed
    | rateLimited retryAfterMs => exact landed.note (forward retryAfterMs rfl) _
    | failed => exact landed

end Noted
end Clankermux.UsageReads
