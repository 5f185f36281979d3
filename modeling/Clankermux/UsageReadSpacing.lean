import Clankermux.History
import Clankermux.UsageReadBudget

/-! A stamp covers a read when its age by the clock is at most the age of the read: the clock does not run fast, so a
stamp that is a gap old covers no read that is younger. -/
namespace Clankermux.UsageReads
variable {Account : Type} {s : UsageCache Account} {a : Account} {now age : Int} {state : AccountState}

def Covered (now : Int) (state : AccountState) (age : Int) : Prop := ∃ lastReadAt, state.lastReadAt = some lastReadAt ∧ now - lastReadAt ≤ age

structure Restamps (now : Int) (state later : AccountState) : Prop where
  held : later.held = state.held
  covers : ∀ age, 0 ≤ age → Covered now state age → Covered now later age

theorem waitForRestamps (now : Int) (state : AccountState) : Restamps now state (state.waitFor now).1 := by
  obtain ⟨lastReadAt,held⟩ := state
  cases lastReadAt with
  | none => exact ⟨rfl,fun _ _ covered => covered⟩
  | some lastReadAt =>
    refine ⟨rfl,fun age old covered => ?_⟩
    obtain ⟨_,same,young⟩ := covered
    cases same
    by_cases future : lastReadAt > now
    · exact ⟨now,by simp [AccountState.waitFor,future],by omega⟩
    · exact ⟨lastReadAt,by simp [AccountState.waitFor,future],young⟩

theorem waitMsRestamps (now : Int) (state : AccountState) : Restamps now state (state.waitMs now).1 := by
  unfold AccountState.waitMs
  split
  · exact ⟨rfl,fun _ _ covered => covered⟩
  · exact waitForRestamps now state

theorem seedRestamps (now : Int) (state : AccountState) (lastReadAt : Int) : Restamps now state (state.seed now lastReadAt) := by
  obtain ⟨stamp,held⟩ := state
  cases stamp with
  | none => exact ⟨rfl,fun _ _ covered => by obtain ⟨_,none_,_⟩ := covered; cases none_⟩
  | some stamp =>
    unfold AccountState.seed
    dsimp only
    split
    · refine ⟨rfl,fun age old covered => ?_⟩
      obtain ⟨_,same,young⟩ := covered
      cases same
      exact ⟨_,rfl,by omega⟩
    · exact ⟨rfl,fun _ _ covered => covered⟩

theorem seedCovers {lastReadAt} (old : 0 ≤ age) (stamped : now - lastReadAt ≤ age) : Covered now (state.seed now lastReadAt) age := by
  obtain ⟨stamp,held⟩ := state
  cases stamp with
  | none => exact ⟨_,rfl,by omega⟩
  | some stamp =>
    unfold AccountState.seed
    dsimp only
    split
    · exact ⟨_,rfl,by omega⟩
    · exact ⟨_,rfl,by omega⟩

theorem markCovers (old : 0 ≤ age) : Covered now (state.markRead now) age := ⟨now,rfl,by omega⟩

theorem tryAcquireCases (now : Int) (state : AccountState) :
    (∃ later waitMs, state.tryAcquire now = (later,.waitMs waitMs) ∧ Restamps now state later ∧ (state.held = true → later = state)) ∨
    (state.tryAcquire now = ({ state with held := true },.slot) ∧ state.held = false ∧
      ∀ age, Covered now state age → ANTHROPIC_USAGE_READ_MIN_GAP_MS ≤ age) := by
  unfold AccountState.tryAcquire
  by_cases held : state.held = true
  · exact .inl ⟨state,_,by rw [if_pos held],⟨rfl,fun _ _ covered => covered⟩,fun _ => rfl⟩
  · rw [if_neg held]
    by_cases wait : (state.waitFor now).2 > 0
    · exact .inl ⟨(state.waitFor now).1,(state.waitFor now).2,if_pos wait,waitForRestamps now state,fun taken => absurd taken held⟩
    · refine .inr ⟨?_,by simpa using held,?_⟩
      · simp only [if_neg wait]
        obtain ⟨lastReadAt,_⟩ := state
        cases lastReadAt with
        | none => rfl
        | some lastReadAt =>
          simp only [AccountState.waitFor,ANTHROPIC_USAGE_READ_MIN_GAP_MS] at wait ⊢
          split at wait
          · omega
          · rename_i past
            rw [if_neg past]
      · rintro age ⟨lastReadAt,stamped,young⟩
        simp only [AccountState.waitFor,stamped,ANTHROPIC_USAGE_READ_MIN_GAP_MS] at wait ⊢
        split at wait
        · omega
        · omega

def Apart (s : UsageCache Account) (slot : UsageReadSlot Account) : Prop :=
  ∃ since, s.reads = since ++ slot.known ∧ (∀ read ∈ since, read.account = slot.account → read.admitted = false) ∧
    ∀ read ∈ slot.known, read.account = slot.account → read.sentAt + ANTHROPIC_USAGE_READ_MIN_GAP_MS ≤ s.time

structure Budgeted (s : UsageCache Account) : Prop where
  past : ∀ read ∈ s.reads, read.sentAt ≤ s.time
  covered : ∀ read ∈ s.reads, Covered s.clock (s.accounts read.account) (s.time - read.sentAt)
  held : ∀ (i : Nat) slot, s.slots[i]? = some slot → slot.done = false → (s.accounts slot.account).held = true
  apart : ∀ (i : Nat) slot, s.slots[i]? = some slot → slot.done = false → Apart s slot
  single : ∀ (i j : Nat) slot other, s.slots[i]? = some slot → s.slots[j]? = some other → slot.done = false → other.done = false →
    slot.account = other.account → i = j

theorem startBudgeted (time clock : Int) : Budgeted (.start time clock : UsageCache Account) where
  past read here := absurd here List.not_mem_nil
  covered read here := absurd here List.not_mem_nil
  held i slot here := by cases i <;> cases here
  apart i slot here := by cases i <;> cases here
  single i j slot other here := by cases i <;> cases here

namespace Budgeted

theorem log (fit : Budgeted s) {sentAt admitted} (past : sentAt ≤ s.time)
    (covered : Covered s.clock (s.accounts a) (s.time - sentAt))
    (alone : admitted = true → ∀ (i : Nat) slot, s.slots[i]? = some slot → slot.done = false → slot.account ≠ a) :
    Budgeted (s.logRead a sentAt admitted) where
  past read here := by
    rcases List.mem_cons.mp here with rfl | old
    · exact past
    · exact fit.past read old
  covered read here := by
    rcases List.mem_cons.mp here with rfl | old
    · exact covered
    · exact fit.covered read old
  held := fit.held
  apart i slot here open_ := by
    obtain ⟨since,reads,outside,back⟩ := fit.apart i slot here open_
    refine ⟨⟨a,sentAt,admitted⟩::since,?_,?_,back⟩
    · rw [UsageCache.logRead]
      exact congrArg _ reads
    · intro read inside own
      rcases List.mem_cons.mp inside with rfl | old
      · cases admitted with
        | false => rfl
        | true => exact absurd own.symm (alone rfl i slot here open_)
      · exact outside read old own
  single := fit.single

theorem pass (fit : Budgeted s) {elapsed clock} (forth : 0 ≤ elapsed) (slow : clock ≤ s.clock + elapsed) :
    Budgeted (s.pass elapsed clock) where
  past read here := by
    have := fit.past read here
    simp only [UsageCache.pass]
    omega
  covered read here := by
    obtain ⟨lastReadAt,stamped,young⟩ := fit.covered read here
    exact ⟨lastReadAt,stamped,by simp only [UsageCache.pass]; omega⟩
  held := fit.held
  apart i slot here open_ := by
    obtain ⟨since,reads,outside,back⟩ := fit.apart i slot here open_
    refine ⟨since,reads,outside,fun read inside own => ?_⟩
    have := back read inside own
    simp only [UsageCache.pass]
    omega
  single := fit.single

variable [DecidableEq Account]

theorem set (fit : Budgeted s) {state} (restamps : Restamps s.clock (s.accounts a) state) :
    Budgeted (s.setAccount a state) where
  past := fit.past
  covered read here := by
    rw [UsageCache.setAccount]
    dsimp only
    by_cases own : read.account = a
    · rw [own,Function.update_self]
      exact restamps.covers _ (Int.sub_nonneg_of_le (fit.past read here)) (own ▸ fit.covered read here)
    · rw [Function.update_of_ne own]
      exact fit.covered read here
  held i slot here open_ := by
    rw [UsageCache.setAccount]
    dsimp only
    by_cases own : slot.account = a
    · rw [own,Function.update_self,restamps.held]
      exact own ▸ fit.held i slot here open_
    · rw [Function.update_of_ne own]
      exact fit.held i slot here open_
  apart := fit.apart
  single := fit.single

theorem grant (fit : Budgeted s) (free : (s.accounts a).held = false)
    (old : ∀ age, Covered s.clock (s.accounts a) age → ANTHROPIC_USAGE_READ_MIN_GAP_MS ≤ age) :
    Budgeted { s.setAccount a { s.accounts a with held := true } with slots := s.slots ++ [⟨a,false,s.reads⟩] } where
  past := fit.past
  covered read here := by
    rw [UsageCache.setAccount]
    dsimp only
    by_cases own : read.account = a
    · rw [own,Function.update_self]
      exact own ▸ fit.covered read here
    · rw [Function.update_of_ne own]
      exact fit.covered read here
  held i slot here open_ := by
    rw [UsageCache.setAccount]
    dsimp only
    by_cases own : slot.account = a
    · rw [own,Function.update_self]
    · rw [Function.update_of_ne own]
      rcases History.snocGet here with there | ⟨_,rfl⟩
      · exact fit.held i slot there open_
      · exact absurd rfl own
  apart i slot here open_ := by
    rcases History.snocGet here with there | ⟨_,rfl⟩
    · exact fit.apart i slot there open_
    · refine ⟨[],rfl,by simp,fun read inside own => ?_⟩
      have := old _ (own ▸ fit.covered read inside)
      simp only [UsageCache.setAccount]
      omega
  single i j slot other here there open_ also same := by
    rcases History.snocGet here with first | ⟨first,rfl⟩ <;> rcases History.snocGet there with second | ⟨second,rfl⟩
    · exact fit.single i j slot other first second open_ also same
    · exact absurd (fit.held i slot first open_) (by simp [same,free])
    · exact absurd (fit.held j other second also) (by simp [← same,free])
    · omega

theorem close (fit : Budgeted s) {i slot} (here : s.slots[i]? = some slot) (open_ : slot.done = false) :
    Budgeted ({ s with slots := s.slots.set i { slot with done := true } }.setAccount slot.account (s.accounts slot.account).release) ∧
    ∀ (j : Nat) other, (s.slots.set i { slot with done := true })[j]? = some other → other.done = false → other.account ≠ slot.account := by
  have kept : ∀ j other, (s.slots.set i { slot with done := true })[j]? = some other → other.done = false → j ≠ i ∧ s.slots[j]? = some other := by
    intro j other there also
    rw [List.getElem?_set] at there
    split at there
    · split at there
      · cases there
        cases also
      · cases there
    · rename_i different
      exact ⟨Ne.symm different,there⟩
  have others : ∀ (j : Nat) other, (s.slots.set i { slot with done := true })[j]? = some other → other.done = false → other.account ≠ slot.account := by
    intro j other there also same
    obtain ⟨different,was⟩ := kept j other there also
    exact different (fit.single j i other slot was here also open_ same)
  refine ⟨⟨fit.past,fun read inside => ?_,fun j other there also => ?_,fun j other there also => ?_,fun j k other third there more also too same => ?_⟩,others⟩
  · rw [UsageCache.setAccount]
    dsimp only
    by_cases own : read.account = slot.account
    · rw [own,Function.update_self]
      exact own ▸ fit.covered read inside
    · rw [Function.update_of_ne own]
      exact fit.covered read inside
  · rw [UsageCache.setAccount]
    dsimp only
    rw [Function.update_of_ne (others j other there also)]
    exact fit.held j other (kept j other there also).2 also
  · exact fit.apart j other (kept j other there also).2 also
  · exact fit.single j k other third (kept j other there also).2 (kept k third more too).2 also too same

end Budgeted
end Clankermux.UsageReads
