import Clankermux.UsageReadsKept

/-! Every run of the cache: what is known of the reads and of the deadlines at the moment a read goes out. -/
namespace Clankermux.UsageReads
variable {Account : Type} [DecidableEq Account] {s t u v : UsageCache Account} {a : Account}

theorem lookBudgeted (fit : Budgeted s) : Budgeted (s.getRateLimitedUntil a).1 := by
  unfold UsageCache.getRateLimitedUntil
  split
  · exact fit
  · split
    · exact fit.asideOf rfl rfl rfl rfl rfl
    · exact fit

theorem lookNone (clear : (s.getRateLimitedUntil a).2 = none) : (s.getRateLimitedUntil a).1.usageRateLimitedUntil a = none := by
  unfold UsageCache.getRateLimitedUntil at clear ⊢
  cases stands : s.usageRateLimitedUntil a with
  | none => exact stands
  | some entry =>
    simp only [stands] at clear ⊢
    split at clear
    · rename_i passed
      rw [if_pos passed]
      exact Function.update_self _ _ _
    · cases clear

theorem fetchCases (s : UsageCache Account) (a : Account) :
    (∃ wait, s.sendFetch a = ((s.getRateLimitedUntil a).1,some wait)) ∨
    ((s.getRateLimitedUntil a).2 = none ∧ ∃ wait, s.sendFetch a = (((s.getRateLimitedUntil a).1.tryAcquireAnthropicUsageRead a).1,some wait)) ∨
    ((s.getRateLimitedUntil a).2 = none ∧ ((s.getRateLimitedUntil a).1.tryAcquireAnthropicUsageRead a).2 = .slot ∧
      s.sendFetch a =
        let c := ((s.getRateLimitedUntil a).1.tryAcquireAnthropicUsageRead a).1
        let c := c.commit (c.slots.length - 1)
        ({ c with fetches := c.fetches ++ [⟨a,c.clock,false⟩] },none)) := by
  unfold UsageCache.sendFetch
  rcases s.getRateLimitedUntil a with ⟨c,_ | limitedUntil⟩
  · refine .inr ?_
    dsimp only
    rcases c.tryAcquireAnthropicUsageRead a with ⟨d,_ | wait⟩
    · exact .inr ⟨rfl,rfl,rfl⟩
    · exact .inl ⟨rfl,wait,rfl⟩
  · exact .inl ⟨_,rfl⟩

theorem fetchBudgeted (fit : Budgeted s) : Budgeted (s.sendFetch a).1 := by
  have looked := lookBudgeted (a := a) fit
  rcases fetchCases s a with ⟨wait,same⟩ | ⟨_,wait,same⟩ | ⟨_,_,same⟩
  · rw [same]
    exact looked
  · rw [same]
    exact looked.acquire
  · rw [same]
    exact (looked.acquire.commit _).asideOf rfl rfl rfl rfl rfl

theorem fetchNoted (fit : Noted s) : Noted (s.sendFetch a).1 := by
  have looked := fit.look (a := a)
  rcases fetchCases s a with ⟨wait,same⟩ | ⟨_,wait,same⟩ | ⟨clear,_,same⟩
  · rw [same]
    exact looked
  · rw [same]
    exact looked.asideOf (acquireDeadlines _ a)
  · rw [same]
    have acquired := acquireDeadlines (s.getRateLimitedUntil a).1 a
    have committed := commitDeadlines ((s.getRateLimitedUntil a).1.tryAcquireAnthropicUsageRead a).1
      (((s.getRateLimitedUntil a).1.tryAcquireAnthropicUsageRead a).1.slots.length - 1)
    have sent := (looked.asideOf acquired).asideOf committed
    refine ⟨sent.reached,sent.standing,fun fetch here out deadline stands => ?_⟩
    rcases List.mem_append.mp here with old | new
    · exact sent.later fetch old out deadline stands
    · rw [List.mem_singleton.mp new] at stands
      rw [committed.until_,acquired.until_,lookNone clear] at stands
      cases stands

theorem noteBudgeted (fit : Budgeted s) (until_ : Int) : Budgeted (s.noteRateLimited a until_) := by
  unfold UsageCache.noteRateLimited
  dsimp only
  split <;> exact fit.asideOf rfl rfl rfl rfl rfl

theorem answerBudgeted (fit : Budgeted s) (i : Nat) (sent : Fetch Account) (isCurrent : Bool) (outcome : UsageCache.Outcome) :
    Budgeted ((s.land i).answerFetch sent isCurrent outcome) := by
  have landed : Budgeted (s.land i) := by
    unfold UsageCache.land
    split <;> exact fit.asideOf rfl rfl rfl rfl rfl
  unfold UsageCache.answerFetch
  split
  · exact landed
  · cases outcome with
    | success =>
      dsimp only
      split <;> exact landed.asideOf rfl rfl rfl rfl rfl
    | rateLimited retryAfterMs => exact noteBudgeted landed _
    | failed => exact landed

def Forward (s : UsageCache Account) : Event Account → Prop
  | .noteRateLimited accountId _ => s.Forward accountId
  | .answer fetch _ (.rateLimited _) => ∀ sent, s.fetches[fetch]? = some sent → (s.land fetch).Forward sent.account
  | _ => True

theorem answerSource {i isCurrent outcome} (went : step s (.answer i isCurrent outcome) = some t) :
    ∃ sent, s.fetches[i]? = some sent ∧ sent.landed = false ∧ t = (s.land i).answerFetch sent isCurrent outcome := by
  unfold step at went
  cases found : s.fetches[i]? with
  | none => simp [found] at went
  | some sent =>
    simp only [found,Option.ite_none_left_eq_some,Option.some.injEq] at went
    exact ⟨sent,rfl,by simpa using went.1,went.2.symm⟩

theorem stepBudgeted {e} (fit : Budgeted s) (went : step s e = some t) : Budgeted t := by
  cases e with
  | pass elapsed clock =>
    obtain ⟨⟨forth,slow⟩,⟨⟩⟩ := Option.ite_none_right_eq_some.mp went
    exact fit.pass forth slow
  | tryAcquire accountId => cases went; exact fit.acquire
  | commit slot => cases went; exact fit.commit slot
  | cancel slot => cases went; exact fit.cancel slot
  | noteRead accountId => cases went; exact fit.noteRead
  | waitMs accountId => cases went; exact fit.set (waitMsRestamps _ _)
  | restore accountId lastReadAt readingObservedAt sentAt =>
    obtain ⟨stamped,⟨⟩⟩ := Option.ite_none_right_eq_some.mp went
    exact fit.restore stamped
  | noteRateLimited accountId until_ => cases went; exact noteBudgeted fit until_
  | getRateLimitedUntil accountId => cases went; exact lookBudgeted fit
  | fetch accountId => cases went; exact fetchBudgeted fit
  | answer i isCurrent outcome =>
    obtain ⟨sent,_,_,rfl⟩ := answerSource went
    exact answerBudgeted fit i sent isCurrent outcome

theorem stepNoted {e} (fit : Noted s) (forward : Forward s e) (went : step s e = some t) : Noted t := by
  cases e with
  | pass elapsed clock =>
    obtain ⟨_,⟨⟩⟩ := Option.ite_none_right_eq_some.mp went
    exact fit.pass elapsed clock
  | tryAcquire accountId => cases went; exact fit.asideOf (acquireDeadlines s accountId)
  | commit slot => cases went; exact fit.asideOf (commitDeadlines s slot)
  | cancel slot => cases went; exact fit.asideOf (cancelDeadlines s slot)
  | noteRead accountId => cases went; exact fit.asideOf ⟨rfl,rfl,rfl,rfl⟩
  | waitMs accountId => cases went; exact fit.asideOf ⟨rfl,rfl,rfl,rfl⟩
  | restore accountId lastReadAt readingObservedAt sentAt =>
    obtain ⟨_,⟨⟩⟩ := Option.ite_none_right_eq_some.mp went
    exact fit.asideOf (restoreDeadlines s lastReadAt readingObservedAt sentAt)
  | noteRateLimited accountId until_ => cases went; exact fit.note forward until_
  | getRateLimitedUntil accountId => cases went; exact fit.look
  | fetch accountId => cases went; exact fetchNoted fit
  | answer i isCurrent outcome =>
    obtain ⟨sent,found,out,rfl⟩ := answerSource went
    refine fit.answer found out isCurrent outcome (fun retryAfterMs same => ?_)
    rw [same] at forward
    exact forward sent found

theorem reachBudgeted (reach : (machine Account).Reachable s) : Budgeted s := by
  refine reach.invariant ?_ (fun s e t fit went => stepBudgeted fit went)
  rintro s ⟨time,clock,rfl⟩
  exact startBudgeted time clock

theorem reachNoted (reach : (machine Account).ReachableUnder Forward s) : Noted s := by
  refine reach.invariant ?_ (fun s e t fit forward went => stepNoted fit forward went)
  rintro s ⟨time,clock,rfl⟩
  exact ⟨fun _ here => absurd here List.not_mem_nil,fun _ here => absurd here List.not_mem_nil,fun _ here => absurd here List.not_mem_nil⟩

theorem fetchApart (fit : Budgeted s) (sent : (s.sendFetch a).2 = none) :
    ∀ read ∈ s.reads, read.account = a → read.sentAt + ANTHROPIC_USAGE_READ_MIN_GAP_MS ≤ s.time := by
  have looked := lookBudgeted (a := a) fit
  have same : (s.getRateLimitedUntil a).1.reads = s.reads ∧ (s.getRateLimitedUntil a).1.time = s.time := by
    unfold UsageCache.getRateLimitedUntil
    split
    · exact ⟨rfl,rfl⟩
    · split <;> exact ⟨rfl,rfl⟩
  rcases fetchCases s a with ⟨wait,deferred⟩ | ⟨_,wait,deferred⟩ | ⟨_,granted,_⟩
  · rw [deferred] at sent
    cases sent
  · rw [deferred] at sent
    cases sent
  · obtain ⟨_,_,refused,_⟩ | ⟨_,_,old⟩ := acquireEffect (s.getRateLimitedUntil a).1 a
    · rw [refused] at granted
      cases granted
    · intro read here own
      have := old _ (own ▸ looked.covered read (same.1 ▸ here))
      omega

theorem fetchPassed (fit : Noted s) (sent : (s.sendFetch a).2 = none) :
    ∀ note ∈ s.notes, note.account = a → note.until_ ≤ note.reached := by
  have clear : (s.getRateLimitedUntil a).2 = none := by
    rcases fetchCases s a with ⟨wait,deferred⟩ | ⟨clear,_⟩ | ⟨clear,_⟩
    · rw [deferred] at sent
      cases sent
    · exact clear
    · exact clear
  have notes : (s.getRateLimitedUntil a).1.notes = s.notes := by
    unfold UsageCache.getRateLimitedUntil
    split
    · rfl
    · split <;> rfl
  intro note here own
  refine ((fit.look (a := a)).standing note (notes ▸ here)).elim id ?_
  rintro ⟨deadline,stands,_⟩
  rw [own,lookNone clear] at stands
  cases stands

def Aside (accountId : Account) (slot : Nat) : Event Account → Prop
  | .commit other => other ≠ slot
  | .cancel other => other ≠ slot
  | .noteRead other => other ≠ accountId
  | .restore other _ _ _ => other ≠ accountId
  | _ => True

structure Waiting (a : Account) (i : Nat) (state : AccountState) (known : List (Read Account)) (s : UsageCache Account) : Prop where
  out : s.slots[i]? = some ⟨a,false,known⟩
  untouched : s.accounts a = { state with held := true }

variable {i : Nat} {state : AccountState} {known : List (Read Account)}

namespace Waiting

theorem setOther (waiting : Waiting a i state known s) {b} (other : b ≠ a) (later : AccountState) :
    Waiting a i state known (s.setAccount b later) :=
  ⟨waiting.out,(Function.update_of_ne (Ne.symm other) _ _).trans waiting.untouched⟩

theorem setSame (waiting : Waiting a i state known s) {b later}
    (still : (s.accounts b).held = true → later = s.accounts b) : Waiting a i state known (s.setAccount b later) := by
  by_cases own : b = a
  · subst own
    rw [still (by rw [waiting.untouched])]
    exact ⟨waiting.out,(Function.update_self _ _ _).trans waiting.untouched⟩
  · exact waiting.setOther own later

omit [DecidableEq Account] in
theorem grown (waiting : Waiting a i state known s) (slot : UsageReadSlot Account) :
    ({ s with slots := s.slots ++ [slot] }).slots[i]? = some ⟨a,false,known⟩ := by
  have inside := (List.getElem?_eq_some_iff.mp waiting.out).1
  exact (List.getElem?_append_left inside).trans waiting.out

theorem acquire (waiting : Waiting a i state known s) (b : Account) : Waiting a i state known (s.tryAcquireAnthropicUsageRead b).1 := by
  obtain ⟨later,waitMs,same,_,still⟩ | ⟨same,free,_⟩ := acquireEffect s b
  · rw [same]
    exact waiting.setSame still
  · rw [same]
    have other : b ≠ a := by
      rintro rfl
      rw [waiting.untouched] at free
      cases free
    exact ⟨waiting.grown _,(Function.update_of_ne (Ne.symm other) _ _).trans waiting.untouched⟩

omit [DecidableEq Account] in
theorem otherSlot (waiting : Waiting a i state known s) (fit : Budgeted s) {j slot} (here : s.slots[j]? = some slot)
    (open_ : slot.done = false) (other : j ≠ i) : slot.account ≠ a :=
  fun own => other (fit.single j i slot _ here waiting.out open_ rfl own)

theorem closeOther (waiting : Waiting a i state known s) {j} {slot : UsageReadSlot Account} (different : slot.account ≠ a) (other : j ≠ i)
    (later : AccountState) : Waiting a i state known
      ({ s with slots := s.slots.set j { slot with done := true } }.setAccount slot.account later) :=
  ⟨(List.getElem?_set_ne other).trans waiting.out,(Function.update_of_ne (Ne.symm different) _ _).trans waiting.untouched⟩

theorem commit (waiting : Waiting a i state known s) (fit : Budgeted s) {j : Nat} (other : j ≠ i) : Waiting a i state known (s.commit j) := by
  obtain ⟨slot,here,open_⟩ | spent := slotCases s j
  · have different := waiting.otherSlot fit here open_ other
    rw [commitEffect here open_]
    have closed := (waiting.closeOther different other (s.accounts slot.account).release).setOther different
      ((s.accounts slot.account).release.markRead s.clock)
    exact ⟨closed.out,closed.untouched⟩
  · rw [UsageCache.commit,useSpent spent]
    exact waiting

theorem cancel (waiting : Waiting a i state known s) (fit : Budgeted s) {j : Nat} (other : j ≠ i) : Waiting a i state known (s.cancel j) := by
  obtain ⟨slot,here,open_⟩ | spent := slotCases s j
  · rw [UsageCache.cancel,UsageCache.useSlot,here]
    simp only [open_]
    exact waiting.closeOther (waiting.otherSlot fit here open_ other) other _
  · rw [UsageCache.cancel,useSpent spent]
    exact waiting

omit [DecidableEq Account] in
theorem aside (waiting : Waiting a i state known s) (accounts : t.accounts = s.accounts) (slots : t.slots = s.slots) :
    Waiting a i state known t := ⟨slots ▸ waiting.out,accounts ▸ waiting.untouched⟩

theorem look (waiting : Waiting a i state known s) (b : Account) : Waiting a i state known (s.getRateLimitedUntil b).1 := by
  unfold UsageCache.getRateLimitedUntil
  split
  · exact waiting
  · split
    · exact waiting.aside rfl rfl
    · exact waiting

theorem fetch (waiting : Waiting a i state known s) (fit : Budgeted s) (b : Account) : Waiting a i state known (s.sendFetch b).1 := by
  have looked := waiting.look b
  rcases fetchCases s b with ⟨wait,same⟩ | ⟨_,wait,same⟩ | ⟨_,granted,same⟩
  · rw [same]
    exact looked
  · rw [same]
    exact looked.acquire b
  · have later : ((s.getRateLimitedUntil b).1.tryAcquireAnthropicUsageRead b).1.slots.length - 1 ≠ i := by
      obtain ⟨_,_,refused,_⟩ | ⟨taken,_⟩ := acquireEffect (s.getRateLimitedUntil b).1 b
      · rw [refused] at granted
        cases granted
      · have inside := (List.getElem?_eq_some_iff.mp looked.out).1
        rw [taken]
        simp only [List.length_append,List.length_singleton]
        omega
    rw [same]
    exact ((looked.acquire b).commit (lookBudgeted fit).acquire later).aside rfl rfl

theorem note (waiting : Waiting a i state known s) (b : Account) (until_ : Int) : Waiting a i state known (s.noteRateLimited b until_) := by
  unfold UsageCache.noteRateLimited
  dsimp only
  split <;> exact waiting.aside rfl rfl

theorem answer (waiting : Waiting a i state known s) (j : Nat) (sent : Fetch Account) (isCurrent : Bool) (outcome : UsageCache.Outcome) :
    Waiting a i state known ((s.land j).answerFetch sent isCurrent outcome) := by
  have landed : Waiting a i state known (s.land j) := by
    unfold UsageCache.land
    split
    · exact waiting
    · exact waiting.aside rfl rfl
  unfold UsageCache.answerFetch
  split
  · exact landed
  · cases outcome with
    | success =>
      dsimp only
      split
      · exact landed.aside rfl rfl
      · exact landed
    | rateLimited retryAfterMs => exact landed.note _ _
    | failed => exact landed

theorem next {e} (waiting : Waiting a i state known s) (fit : Budgeted s) (aside : Aside a i e) (went : step s e = some t) :
    Waiting a i state known t := by
  cases e with
  | pass elapsed clock =>
    obtain ⟨_,⟨⟩⟩ := Option.ite_none_right_eq_some.mp went
    exact waiting.aside rfl rfl
  | tryAcquire accountId => cases went; exact waiting.acquire accountId
  | commit slot => cases went; exact waiting.commit fit aside
  | cancel slot => cases went; exact waiting.cancel fit aside
  | noteRead accountId =>
    cases went
    have set := waiting.setOther aside ((s.accounts accountId).markRead s.clock)
    exact ⟨set.out,set.untouched⟩
  | waitMs accountId =>
    cases went
    exact waiting.setSame (fun held => by rw [AccountState.waitMs,if_pos held])
  | restore accountId lastReadAt readingObservedAt sentAt =>
    obtain ⟨_,⟨⟩⟩ := Option.ite_none_right_eq_some.mp went
    unfold UsageCache.restoreAnthropicUsageRead
    split
    · exact waiting
    · rename_i lastRead _
      have set := waiting.setOther aside ((s.accounts accountId).seed s.clock lastRead)
      exact ⟨set.out,set.untouched⟩
  | noteRateLimited accountId until_ => cases went; exact waiting.note accountId until_
  | getRateLimitedUntil accountId => cases went; exact waiting.look accountId
  | fetch accountId => cases went; exact waiting.fetch fit accountId
  | answer j isCurrent outcome =>
    obtain ⟨sent,_,_,rfl⟩ := answerSource went
    exact waiting.answer j sent isCurrent outcome

end Waiting

theorem cancelUndoes (reach : (machine Account).Reachable s) (granted : (s.tryAcquireAnthropicUsageRead a).2 = .slot)
    (run : (machine Account).Steps (fun _ e => Aside a s.slots.length e) (s.tryAcquireAnthropicUsageRead a).1 t) :
    (t.cancel s.slots.length).accounts a = s.accounts a := by
  have fit := reachBudgeted reach
  obtain ⟨_,_,refused,_⟩ | ⟨taken,free,_⟩ := acquireEffect s a
  · rw [refused] at granted
    cases granted
  · have first : Waiting a s.slots.length (s.accounts a) s.reads (s.tryAcquireAnthropicUsageRead a).1 := by
      rw [taken]
      exact ⟨List.getElem?_concat_length,Function.update_self _ _ _⟩
    have last : Budgeted t ∧ Waiting a s.slots.length (s.accounts a) s.reads t :=
      run.keeps (P := fun u => Budgeted u ∧ Waiting a s.slots.length (s.accounts a) s.reads u) ⟨fit.acquire,first⟩
        (fun u e v both aside went => ⟨stepBudgeted both.1 went,both.2.next both.1 aside went⟩)
    rw [UsageCache.cancel,UsageCache.useSlot,last.2.out]
    simp only [Bool.false_eq_true,if_false,UsageCache.setAccount,Function.update_self,last.2.untouched]
    exact congrArg (AccountState.mk (s.accounts a).lastReadAt) free.symm

/-- A read sent under a slot lies a gap behind every read known as the slot was given out, and after those only unadmitted
ones were sent; a slot that was cancelled leaves the account as it was; and no fetch is sent before the clock has reached
every deadline that was noted, unless one was noted at a reading of the clock before the start of a fetch that was out. -/
theorem readsSpaced :
    (∀ s, (machine Account).Reachable s →
      (∀ (i : Nat) slot, s.slots[i]? = some slot → slot.done = false → Apart s slot) ∧
      (∀ a, (s.sendFetch a).2 = none → ∀ read ∈ s.reads, read.account = a → read.sentAt + ANTHROPIC_USAGE_READ_MIN_GAP_MS ≤ s.time) ∧
      (∀ a t, (s.tryAcquireAnthropicUsageRead a).2 = .slot →
        (machine Account).Steps (fun _ e => Aside a s.slots.length e) (s.tryAcquireAnthropicUsageRead a).1 t →
        (t.cancel s.slots.length).accounts a = s.accounts a)) ∧
    ∀ s, (machine Account).ReachableUnder Forward s →
      ∀ a, (s.sendFetch a).2 = none → ∀ note ∈ s.notes, note.account = a → note.until_ ≤ note.reached :=
  ⟨fun _ reach => ⟨(reachBudgeted reach).apart,fun _ sent => fetchApart (reachBudgeted reach) sent,fun _ _ granted run => cancelUndoes reach granted run⟩,
    fun _ reach _ sent => fetchPassed (reachNoted reach) sent⟩

def reportedRun : List (Event Nat) := [.noteRead 0,.noteRateLimited 0 1000,.pass 150000 150000]

theorem reportedFetched : ∃ s, (machine Nat).run (.start 0 0) reportedRun = some s ∧ (s.sendFetch 0).2 = none ∧
    (∀ read ∈ s.reads, read.account = 0 → read.sentAt + ANTHROPIC_USAGE_READ_MIN_GAP_MS ≤ s.time) ∧
    ∀ note ∈ s.notes, note.account = 0 → note.until_ ≤ note.reached := by
  obtain ⟨s,ran⟩ : ∃ s, (machine Nat).run (.start 0 0) reportedRun = some s := ⟨_,rfl⟩
  have sent : (s.sendFetch 0).2 = none := by cases ran; decide
  have reach := Machine.runReachable (m := machine Nat) reportedRun ⟨0,0,rfl⟩ ran
  have forward : (machine Nat).ReachableUnder Forward s := by
    cases ran
    refine ⟨.start 0 0,⟨0,0,rfl⟩,((Machine.Steps.refl.next (e := .noteRead 0) ?_ rfl).next (e := .noteRateLimited 0 1000) ?_ rfl).next
      (e := .pass 150000 150000) ?_ rfl⟩
    · trivial
    · exact fun fetch here => absurd here List.not_mem_nil
    · trivial
  exact ⟨s,ran,sent,(readsSpaced.1 s reach).2.1 0 sent,readsSpaced.2 s forward 0 sent⟩

/-- A read that is reported while a slot is out does not hold the slot back. -/
theorem reportedBesideSlot : ¬ ∀ s, (machine Nat).Reachable s → ∀ (i : Nat) slot, s.slots[i]? = some slot → slot.done = false →
    ∀ read ∈ s.reads, read.account = slot.account → read.sentAt + ANTHROPIC_USAGE_READ_MIN_GAP_MS ≤ s.time := by
  intro all
  have reach := Machine.runReachable (m := machine Nat) (s := .start 0 0) [.tryAcquire 0,.noteRead 0] ⟨0,0,rfl⟩ rfl
  exact absurd (all _ reach 0 ⟨0,false,[]⟩ rfl rfl ⟨0,0,false⟩ (List.mem_singleton.mpr rfl) rfl) (by decide)

end Clankermux.UsageReads
