import Clankermux.ConversationLedger

/-! Who holds a conversation. A claim that was granted keeps its record busy until it is
finished or a later claimant's wait times out. -/
namespace Clankermux.ConversationStore
open InsertionMap Function History

def Stage.record : Stage → Option Nat
  | .awaitingPending id => some id
  | .granted id _ => some id
  | _ => none

def Stage.Waiting (stage : Stage) : Prop := stage = .awaitingBusy ∨ ∃ id, stage = .awaitingPending id

def Disturbed (s : Store) (c : Nat) (key : String) : Prop :=
  ∀ newer, Since s.log (.granted c) newer →
    ∃ d other, .timedOut d ∈ newer ∧ d ≠ c ∧ s.claims d = some other ∧ other.key = key

structure Exclusive (s : Store) : Prop where
  below : ∀ c claim, s.claims c = some claim → c < s.claimed
  made : ∀ c, .granted c ∈ s.log ∨ .timedOut c ∈ s.log → ∃ claim, s.claims c = some claim
  waiting : ∀ c claim, s.claims c = some claim → claim.stage.Waiting → .granted c ∉ s.log
  final : ∀ c newer, Since s.log (.granted c) newer → .timedOut c ∉ newer
  owned : ∀ c claim id, s.claims c = some claim → claim.stage.record = some id → id < s.allocated
  holds : ∀ c claim id current, s.claims c = some claim → claim.stage = .granted id current →
    Disturbed s c claim.key ∨ (get s.records claim.key = some id ∧ (s.heap id).busy = some c)

structure Steady (s t : Store) : Prop where
  claims : t.claims = s.claims
  claimed : s.claimed ≤ t.claimed
  log : t.log = s.log
  allocated : s.allocated ≤ t.allocated
  held : ∀ key id c, get s.records key = some id → (s.heap id).busy = some c →
    get t.records key = some id ∧ (t.heap id).busy = some c

theorem Steady.refl (s : Store) : Steady s s := ⟨rfl,le_rfl,rfl,le_rfl,fun _ _ _ found its => ⟨found,its⟩⟩

theorem Steady.trans {s t u} (first : Steady s t) (second : Steady t u) : Steady s u :=
  ⟨second.claims.trans first.claims,first.claimed.trans second.claimed,second.log.trans first.log,
    first.allocated.trans second.allocated,fun key id c found its =>
      let ⟨found,its⟩ := first.held key id c found its
      second.held key id c found its⟩

theorem Dropped.steady {s t} (dropped : Dropped s t) : Steady s t := by
  obtain ⟨key,id,found,free⟩ := dropped
  refine ⟨rfl,le_rfl,rfl,le_rfl,fun other held c there its => ⟨?_,its⟩⟩
  have ne : other ≠ key := by
    rintro rfl
    cases found.symm.trans there
    rw [free.1] at its
    cases its
  exact (getDeleteOther ne).trans there

theorem steadyPrune {s} (nodup : (keys s.records).Nodup) (now : Int) : Steady s (s.prune now) := by
  have drops := pruneDrops nodup now
  generalize s.prune now = t at drops ⊢
  induction drops with
  | refl => exact .refl s
  | tail _ dropped ih => exact ih.trans dropped.steady

theorem steadyRecord {s} (sound : Sound s) (key : String) (now : Int) : Steady s (s.record key now).1 := by
  unfold Store.record
  split
  · exact .refl s
  · rename_i absent
    refine ⟨rfl,le_rfl,rfl,Nat.le_succ _,fun other id c found its => ⟨?_,?_⟩⟩
    · refine (getSetOther ?_).trans found
      rintro rfl
      simp [absent] at found
    · dsimp only
      rw [update_of_ne (Nat.ne_of_lt (sound.home found).1)]
      exact its

theorem steadyEvict (s : Store) (key : String) : Steady s (s.evict key).1 := by
  unfold Store.evict
  split
  · exact .refl s
  · rename_i id found
    split
    · exact .refl s
    · rename_i idle
      exact (Dropped.intro key id found (by simpa [not_or] using idle)).steady

theorem steadySettle (s : Store) (index : Nat) (registration : Registration) (ok : Bool) :
    Steady s (s.settle index registration ok) := by
  have busy (s : Store) (id other : Nat) (record : ConversationRecord) (same : record.busy = (s.heap id).busy) :
      ((s.write id record).heap other).busy = (s.heap other).busy := by
    by_cases here : other = id
    · subst here
      simpa [Store.write] using same
    · simp [Store.write,here]
  unfold Store.settle
  dsimp only
  split <;> split <;>
  · refine ⟨rfl,le_rfl,rfl,le_rfl,fun key id c found its => ⟨found,?_⟩⟩
    simp [Store.onDiscard,busy,its]

theorem Exclusive.steady {s t} (exclusive : Exclusive s) (steady : Steady s t) : Exclusive t where
  below c claim its := Nat.lt_of_lt_of_le (exclusive.below c claim (steady.claims ▸ its)) steady.claimed
  made c logged := by
    rw [steady.log] at logged
    rw [steady.claims]
    exact exclusive.made c logged
  waiting c claim its := by
    rw [steady.claims] at its
    rw [steady.log]
    exact exclusive.waiting c claim its
  final c newer here := exclusive.final c newer (steady.log ▸ here)
  owned c claim id its there :=
    Nat.lt_of_lt_of_le (exclusive.owned c claim id (steady.claims ▸ its) there) steady.allocated
  holds c claim id current its granted := by
    rw [steady.claims] at its
    rcases exclusive.holds c claim id current its granted with disturbed | ⟨found,busy⟩
    · left
      unfold Disturbed
      rw [steady.log,steady.claims]
      exact disturbed
    · exact .inr (steady.held _ _ _ found busy)

structure Moves (s t : Store) (c : Nat) (claim : Claim) (stage : Stage) (granted expired : Bool) : Prop where
  claims : t.claims = update s.claims c (some { claim with stage := stage })
  claimed : t.claimed = s.claimed
  records : t.records = s.records
  allocated : t.allocated = s.allocated
  log : t.log = (if granted then [.granted c] else []) ++ ((if expired then [.timedOut c] else []) ++ s.log)
  ends : granted = true → ¬ stage.Waiting
  takes : ∀ id, stage.record = some id →
    get s.records claim.key = some id ∧ (t.heap id).busy = some c ∧
      (expired = true ∨ ∀ d, (s.heap id).busy = some d → d = c)
  others : ∀ id, stage.record ≠ some id → (t.heap id).busy = (s.heap id).busy

variable {s t : Store} {c : Nat} {claim : Claim} {stage : Stage} {granted expired : Bool}

theorem Exclusive.moves (exclusive : Exclusive s) (sound : Sound s) (new : c < s.claimed) (ungranted : .granted c ∉ s.log)
    (known : ∀ other, s.claims c = some other → other.key = claim.key)
    (moves : Moves s t c claim stage granted expired) : Exclusive t := by
  have logged (d : Nat) (ne : d ≠ c) : (.granted d ∈ t.log ↔ .granted d ∈ s.log) ∧ (.timedOut d ∈ t.log ↔ .timedOut d ∈ s.log) := by
    rw [moves.log]
    cases granted <;> cases expired <;> simp [ne]
  have outside (d : Nat) (ne : d ≠ c) :
      Moment.granted d ∉ (if granted then [Moment.granted c] else []) ++ (if expired then [.timedOut c] else []) := by
    cases granted <;> cases expired <;> simp [ne]
  have since (d : Nat) (ne : d ≠ c) (newer : List Moment) (here : Since t.log (.granted d) newer) :
      ∃ rest, newer = ((if granted then [.granted c] else []) ++ (if expired then [.timedOut c] else [])) ++ rest ∧
        Since s.log (.granted d) rest := by
    rw [moves.log,← List.append_assoc] at here
    exact sinceAdded (outside d ne) here
  refine ⟨?_,?_,?_,?_,?_,?_⟩
  · intro d other its
    rw [moves.claims] at its
    rw [moves.claimed]
    by_cases here : d = c
    · exact here ▸ new
    · rw [update_of_ne here] at its
      exact exclusive.below d other its
  · intro d said
    rw [moves.claims]
    by_cases here : d = c
    · exact ⟨_,by rw [here,update_self]⟩
    · rw [update_of_ne here]
      exact exclusive.made d (said.imp (logged d here).1.mp (logged d here).2.mp)
  · intro d other its waiting
    rw [moves.claims] at its
    by_cases here : d = c
    · subst here
      rw [update_self] at its
      cases its
      cases granted with
      | true => exact absurd waiting (moves.ends rfl)
      | false =>
        rw [moves.log]
        cases expired <;> simpa using ungranted
    · rw [update_of_ne here] at its
      rw [(logged d here).1]
      exact exclusive.waiting d other its waiting
  · intro d newer there
    by_cases here : d = c
    · subst here
      have before : Moment.granted d ∉ (if expired then [Moment.timedOut d] else []) ++ s.log := by
        cases expired <;> simpa using ungranted
      rw [moves.log] at there
      cases granted with
      | false => exact absurd there.mem before
      | true =>
        rcases sinceCons.mp there with ⟨rfl,_⟩ | ⟨rest,_,deeper⟩
        · simp
        · exact absurd deeper.mem before
    · obtain ⟨rest,rfl,past⟩ := since d here newer there
      have old := exclusive.final d rest past
      cases granted <;> cases expired <;> simp [old,here]
  · intro d other id its there
    rw [moves.claims] at its
    rw [moves.allocated]
    by_cases here : d = c
    · subst here
      rw [update_self] at its
      cases its
      exact (sound.home (moves.takes id there).1).1
    · rw [update_of_ne here] at its
      exact exclusive.owned d other id its there
  · intro d other id current its holding
    rw [moves.claims] at its
    by_cases here : d = c
    · subst here
      rw [update_self] at its
      cases its
      obtain ⟨found,busy,_⟩ := moves.takes id (by rw [show stage = _ from holding]; rfl)
      exact .inr ⟨by rw [moves.records]; exact found,busy⟩
    · rw [update_of_ne here] at its
      rcases exclusive.holds d other id current its holding with disturbed | ⟨found,busy⟩
      · left
        intro newer there
        obtain ⟨rest,rfl,past⟩ := since d here newer there
        obtain ⟨x,by_,inside,ne,claims,key⟩ := disturbed rest past
        refine ⟨x,?_⟩
        rw [moves.claims]
        by_cases self : x = c
        · subst self
          exact ⟨{ claim with stage := stage },List.mem_append_right _ inside,ne,update_self ..,
            (known by_ claims).symm.trans key⟩
        · exact ⟨by_,List.mem_append_right _ inside,ne,by rw [update_of_ne self,claims],key⟩
      · by_cases same : stage.record = some id
        · left
          obtain ⟨mine,_,free⟩ := moves.takes id same
          have timedOut : expired = true := free.resolve_right (fun only => here (only d busy))
          have key : claim.key = other.key := by rw [← (sound.home mine).2,← (sound.home found).2]
          intro newer there
          obtain ⟨rest,rfl,past⟩ := since d here newer there
          refine ⟨c,{ claim with stage := stage },?_,Ne.symm here,by rw [moves.claims,update_self],key⟩
          simp [timedOut]
        · exact .inr ⟨by rw [moves.records]; exact found,(moves.others id same).trans busy⟩

theorem recordFound (s : Store) (key : String) (now : Int) :
    get (s.record key now).1.records key = some (s.record key now).2 := by
  cases found : get s.records key with
  | none => simp [Store.record,found]
  | some id => simp [Store.record,found]

theorem takeMoves {s c claim id} (found : get s.records claim.key = some id)
    (expired : Bool) (free : expired = true ∨ ∀ d, (s.heap id).busy = some d → d = c) (now : Int) :
    (∃ current, Moves s (((if expired then s.timeOut c else s).write id { s.heap id with busy := some c }).grant c claim id now)
      c claim (.granted id current) true expired) ∧
    Moves s (((if expired then s.timeOut c else s).write id { s.heap id with busy := some c }).setStage c claim
      (.awaitingPending id)) c claim (.awaitingPending id) false expired := by
  have own (stage : Stage) (its : stage.record = some id) (other : Nat) (there : stage.record = some other) : other = id :=
    Option.some.inj (there.symm.trans its)
  constructor
  · refine ⟨(s.heap id).current,?_,?_,?_,?_,?_,by simp [Stage.Waiting],?_,?_⟩
    · cases expired <;> simp [Store.grant,Store.write,Store.setStage,Store.timeOut]
    · cases expired <;> rfl
    · cases expired <;> rfl
    · cases expired <;> rfl
    · cases expired <;> rfl
    · intro other there
      cases own _ rfl other there
      exact ⟨found,by cases expired <;> simp [Store.grant,Store.write,Store.setStage],free⟩
    · intro other there
      have ne : other ≠ id := fun same => there (by rw [same]; rfl)
      cases expired <;> simp [Store.grant,Store.write,Store.setStage,Store.timeOut,ne]
  · refine ⟨?_,?_,?_,?_,?_,by simp,?_,?_⟩
    · cases expired <;> rfl
    · cases expired <;> rfl
    · cases expired <;> rfl
    · cases expired <;> rfl
    · cases expired <;> rfl
    · intro other there
      cases own _ rfl other there
      exact ⟨found,by cases expired <;> simp [Store.write,Store.setStage],free⟩
    · intro other there
      have ne : other ≠ id := fun same => there (by rw [same]; rfl)
      cases expired <;> simp [Store.write,Store.setStage,Store.timeOut,ne]

theorem holdMoves (s : Store) (c : Nat) (claim : Claim) (now date : Int) :
    ∃ stage granted expired, Moves (s.record claim.key now).1 (s.hold c claim now date) c claim stage granted expired := by
  have found := recordFound s claim.key now
  unfold Store.hold
  generalize s.record claim.key now = made at found
  obtain ⟨s,id⟩ := made
  dsimp only at found ⊢
  split
  · exact ⟨.awaitingBusy,false,false,rfl,rfl,rfl,rfl,rfl,by simp,by simp [Stage.record],fun _ _ => rfl⟩
  · have free : (s.heap id).busy.any (· ≠ c) = true ∨ ∀ d, (s.heap id).busy = some d → d = c := by
      cases busy : (s.heap id).busy with
      | none => simp
      | some d => by_cases same : d = c <;> simp [same]
    have same : (if (s.heap id).busy.any (· ≠ c) = true then s.timeOut c else s).heap id = s.heap id := by split <;> rfl
    obtain ⟨⟨current,granted⟩,waiting⟩ := takeMoves found _ free now
    rw [same]
    split
    · exact ⟨_,_,_,waiting⟩
    · exact ⟨_,_,_,granted⟩

theorem Exclusive.finish {s} (exclusive : Exclusive s) {c claim} (known : s.claims c = some claim)
    (id : Nat) : Exclusive (s.finish c claim id) := by
  have log : (s.finish c claim id).log = s.log := by unfold Store.finish; split <;> rfl
  have records : (s.finish c claim id).records = s.records := by unfold Store.finish; split <;> rfl
  have claimed : (s.finish c claim id).claimed = s.claimed := by unfold Store.finish; split <;> rfl
  have allocated : (s.finish c claim id).allocated = s.allocated := by unfold Store.finish; split <;> rfl
  have claims : (s.finish c claim id).claims = update s.claims c (some { claim with stage := .finished }) := by
    unfold Store.finish
    split <;> rfl
  have busy (other d : Nat) (ne : d ≠ c) (its : (s.heap other).busy = some d) :
      ((s.finish c claim id).heap other).busy = some d := by
    unfold Store.finish
    split
    · rename_i mine
      by_cases here : other = id
      · rw [here,mine] at its
        exact absurd (Option.some.inj its).symm ne
      · simp [Store.setStage,Store.write,here,its]
    · exact its
  have others {d : Nat} {other : Claim} (its : (s.finish c claim id).claims d = some other) :
      (d = c ∧ other.stage = .finished) ∨ (d ≠ c ∧ s.claims d = some other) := by
    rw [claims] at its
    by_cases here : d = c
    · rw [here,update_self] at its
      exact .inl ⟨here,by rw [← Option.some.inj its]⟩
    · exact .inr ⟨here,by rwa [update_of_ne here] at its⟩
  refine ⟨?_,?_,?_,?_,?_,?_⟩
  · intro d other its
    rw [claimed]
    rcases others its with ⟨rfl,_⟩ | ⟨_,its⟩
    · exact exclusive.below d claim known
    · exact exclusive.below d other its
  · intro d said
    rw [log] at said
    rw [claims]
    by_cases here : d = c
    · exact ⟨_,by rw [here,update_self]⟩
    · rw [update_of_ne here]
      exact exclusive.made d said
  · intro d other its waiting
    rw [log]
    rcases others its with ⟨_,finished⟩ | ⟨_,its⟩
    · simp [Stage.Waiting,finished] at waiting
    · exact exclusive.waiting d other its waiting
  · rw [log]
    exact exclusive.final
  · intro d other place its there
    rw [allocated]
    rcases others its with ⟨_,finished⟩ | ⟨_,its⟩
    · rw [finished] at there
      cases there
    · exact exclusive.owned d other place its there
  · intro d other place current its granted
    rcases others its with ⟨_,finished⟩ | ⟨ne,its⟩
    · rw [finished] at granted
      cases granted
    · rcases exclusive.holds d other place current its granted with disturbed | ⟨found,held⟩
      · left
        intro newer here
        rw [log] at here
        obtain ⟨x,by_,inside,different,known',key⟩ := disturbed newer here
        rw [claims]
        by_cases self : x = c
        · subst self
          cases known.symm.trans known'
          exact ⟨x,{ claim with stage := .finished },inside,different,update_self ..,key⟩
        · exact ⟨x,by_,inside,different,by rw [update_of_ne self,known'],key⟩
      · exact .inr ⟨by rw [records]; exact found,busy place d ne held⟩

end Clankermux.ConversationStore
