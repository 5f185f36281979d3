import Clankermux.Ledger
import Clankermux.SessionCacheStore
import Mathlib.Algebra.Order.BigOperators.Group.List
import Mathlib.Algebra.Order.Group.Nat

/-! The store of the sessions' bodies over whole runs: it stays within its bounds, holds only
slots that are worth keeping, and evicts the least valuable first. -/
namespace Clankermux.SessionCacheStore
open InsertionMap CacheBodyStore

def Before (slot other : SessionCacheSlot) : Prop :=
  slot.priorityUsd < other.priorityUsd ∨ slot.priorityUsd = other.priorityUsd ∧ slot.lastActivityTs ≤ other.lastActivityTs

theorem beforeRefl (slot : SessionCacheSlot) : Before slot slot := .inr ⟨rfl,le_rfl⟩

theorem Before.trans {a b c} (first : Before a b) (second : Before b c) : Before a c := by
  rcases first with less | ⟨same,early⟩
  · rcases second with more | ⟨equal,-⟩
    · exact .inl (less.trans more)
    · exact .inl (equal ▸ less)
  · rcases second with more | ⟨equal,late⟩
    · exact .inl (same ▸ more)
    · exact .inr ⟨same.trans equal,early.trans late⟩

theorem beforeIff (slot victim : SessionCacheSlot) : Store.goesBefore slot victim = true → Before slot victim := by
  simp only [Store.goesBefore,Bool.or_eq_true,Bool.and_eq_true,decide_eq_true_eq,beq_iff_eq]
  rintro (less | ⟨same,early⟩)
  · exact .inl less
  · exact .inr ⟨same,le_of_lt early⟩

theorem beforeNot (slot victim : SessionCacheSlot) (stays : ¬ Store.goesBefore slot victim = true) : Before victim slot := by
  simp only [Store.goesBefore,Bool.or_eq_true,Bool.and_eq_true,decide_eq_true_eq,beq_iff_eq,not_or,not_and,not_lt] at stays
  rcases lt_or_eq_of_le stays.1 with less | same
  · exact .inl less
  · exact .inr ⟨same,stays.2 same.symm⟩

theorem victimLeast (rest : InsertionMap String SessionCacheSlot) : ∀ first, ∃ victim,
    rest.foldl (fun victim entry => match victim with
      | none => some entry
      | some victim => if Store.goesBefore entry.2 victim.2 then some entry else some victim) (some first) = some victim ∧
    (victim = first ∨ victim ∈ rest) ∧ Before victim.2 first.2 ∧ ∀ entry ∈ rest, Before victim.2 entry.2 := by
  induction rest with
  | nil => exact fun first => ⟨first,rfl,.inl rfl,beforeRefl _,by simp⟩
  | cons entry rest ih =>
    intro first
    rw [List.foldl_cons]
    by_cases better : Store.goesBefore entry.2 first.2 = true
    · obtain ⟨victim,found,among,least,others⟩ := ih entry
      refine ⟨victim,by simpa only [if_pos better] using found,.inr ?_,least.trans (beforeIff _ _ better),?_⟩
      · rcases among with rfl | inside
        · exact .head _
        · exact .tail _ inside
      · intro other inside
        rcases List.mem_cons.mp inside with rfl | inside
        · exact least
        · exact others other inside
    · obtain ⟨victim,found,among,least,others⟩ := ih first
      refine ⟨victim,by simpa only [if_neg better] using found,among.imp_right (List.mem_cons_of_mem _),least,?_⟩
      intro other inside
      rcases List.mem_cons.mp inside with rfl | inside
      · exact least.trans (beforeNot _ _ better)
      · exact others other inside

theorem victimFound {slots victim}
    (found : Store.victimOf slots = some victim) : victim ∈ slots ∧ ∀ entry ∈ slots, Before victim.2 entry.2 := by
  cases slots with
  | nil => simp [Store.victimOf] at found
  | cons first rest =>
    obtain ⟨least,same,among,before,others⟩ := victimLeast rest first
    have equal : victim = least := Option.some.inj (found.symm.trans same)
    subst equal
    refine ⟨?_,?_⟩
    · rcases among with rfl | inside
      · exact .head _
      · exact .tail _ inside
    · intro entry inside
      rcases List.mem_cons.mp inside with rfl | inside
      · exact before
      · exact others entry inside

theorem victimSome {slots} (none_ : Store.victimOf slots = none) : slots = [] := by
  cases slots with
  | nil => rfl
  | cons first rest =>
    obtain ⟨least,same,-⟩ := victimLeast rest first
    cases none_.symm.trans same

def bytesOf (slots : InsertionMap String SessionCacheSlot) : Nat := (slots.map (fun entry => entry.2.body.length)).sum

structure Core (s : Store) : Prop where
  unique : (keys s.slots).Nodup
  total : s.totalBytes = bytesOf s.slots
  own : ∀ entry ∈ s.slots, entry.1 = keyOf entry.2.accountId entry.2.sessionKey
  small : ∀ entry ∈ s.slots, entry.2.body.length ≤ MAX_SESSION_BODY_BYTES

structure Thinned (s after : Store) : Prop where
  core : Core after
  slots : after.slots.Sublist s.slots
  minTokens : after.minTokens = s.minTokens
  enabled : after.enabled = s.enabled

variable {s after : Store} {key : String} {slot : SessionCacheSlot} {p : Platform}

theorem Core.thinned (core : Core s) : Thinned s s := ⟨core,List.Sublist.refl _,rfl,rfl⟩

theorem Thinned.trans {last} (first : Thinned s after) (second : Thinned after last) : Thinned s last :=
  ⟨second.core,second.slots.trans first.slots,second.minTokens.trans first.minTokens,second.enabled.trans first.enabled⟩

theorem bytesDelete (unique : (keys s.slots).Nodup) (found : get s.slots key = some slot) :
    bytesOf (delete s.slots key) + slot.body.length = bytesOf s.slots := by
  have sum := ((permDelete unique found).map (fun entry => entry.2.body.length)).sum_eq
  rw [List.map_cons,List.sum_cons] at sum
  rw [bytesOf,bytesOf,sum,Nat.add_comm]

theorem Core.dropped (core : Core s) (found : get s.slots key = some slot) :
    Thinned s { s with slots := delete s.slots key,totalBytes := s.totalBytes - slot.body.length } := by
  have sub : (delete s.slots key).Sublist s.slots := deleteSublist
  refine ⟨⟨nodupDelete core.unique,?_,fun entry inside => core.own entry (sub.subset inside),
    fun entry inside => core.small entry (sub.subset inside)⟩,sub,rfl,rfl⟩
  have bytes := bytesDelete core.unique found
  have total := core.total
  simp only
  omega

theorem deletedSlots (s : Store) (key : String) : (s.deleteKey key).slots = delete s.slots key := by
  unfold Store.deleteKey
  cases found : get s.slots key with
  | some slot => rfl
  | none =>
    refine (deleteAbsent (fun inside => ?_)).symm
    obtain ⟨slot,there⟩ := getOfMemKeys inside
    rw [found] at there
    contradiction

theorem Core.deleted (core : Core s) (key : String) : Thinned s (s.deleteKey key) := by
  unfold Store.deleteKey
  cases found : get s.slots key with
  | some slot => exact core.dropped found
  | none => exact core.thinned

theorem memDeleted {entry} (inside : entry ∈ (s.deleteKey key).slots) : entry ∈ s.slots ∧ entry.1 ≠ key := by
  rw [deletedSlots,deleteEqFilter,List.mem_filter] at inside
  exact ⟨inside.1,by simpa using inside.2⟩

theorem Thinned.bytes (thinned : Thinned s after) : bytesOf after.slots ≤ bytesOf s.slots :=
  (thinned.slots.map _).sum_le_sum (fun _ _ => Nat.zero_le _)

theorem Core.raised (threshold : ℚ) (rest : InsertionMap String SessionCacheSlot) : ∀ {s}, Core s →
    (∀ entry ∈ s.slots, entry ∈ rest ∨ threshold ≤ entry.2.cachedTokens) →
    Thinned s (rest.foldl (fun s entry => if entry.2.cachedTokens < threshold then s.deleteKey entry.1 else s) s) ∧
      ∀ entry ∈ (rest.foldl (fun s entry => if entry.2.cachedTokens < threshold then s.deleteKey entry.1 else s) s).slots,
        threshold ≤ entry.2.cachedTokens := by
  induction rest with
  | nil =>
    intro s core above
    exact ⟨core.thinned,fun entry inside => (above entry inside).resolve_left (by simp)⟩
  | cons first rest ih =>
    intro s core above
    rw [List.foldl_cons]
    split
    · have deleted := core.deleted first.1
      have still : ∀ entry ∈ (s.deleteKey first.1).slots, entry ∈ rest ∨ threshold ≤ entry.2.cachedTokens := by
        intro entry inside
        obtain ⟨old,other⟩ := memDeleted inside
        rcases above entry old with listed | high
        · rcases List.mem_cons.mp listed with rfl | listed
          · exact absurd rfl other
          · exact .inl listed
        · exact .inr high
      obtain ⟨thinned,high⟩ := ih deleted.core still
      exact ⟨deleted.trans thinned,high⟩
    · rename_i high
      refine ih core (fun entry inside => ?_)
      rcases above entry inside with listed | above
      · rcases List.mem_cons.mp listed with rfl | listed
        · exact .inr (le_of_not_gt high)
        · exact .inl listed
      · exact .inr above

theorem Core.evicted (accountId : String) (rest : InsertionMap String SessionCacheSlot) : ∀ {s}, Core s → (keys rest).Nodup →
    (∀ entry ∈ rest, entry ∈ s.slots) →
    Thinned s (rest.foldl (fun s entry =>
      if entry.2.accountId = accountId then
        { s with slots := delete s.slots entry.1,totalBytes := s.totalBytes - entry.2.body.length }
      else s) s) := by
  induction rest with
  | nil => exact fun core _ _ => core.thinned
  | cons first rest ih =>
    intro s core unique listed
    have distinct := List.nodup_cons.mp unique
    rw [List.foldl_cons]
    split
    · have dropped := core.dropped (getOfMem core.unique (listed first (.head _)))
      refine dropped.trans (ih dropped.core distinct.2 (fun entry inside => ?_))
      simp only [deleteEqFilter,List.mem_filter]
      refine ⟨listed entry (.tail _ inside),decide_eq_true (fun same => ?_)⟩
      exact distinct.1 (same ▸ List.mem_map_of_mem inside)
    · exact ih core distinct.2 (fun entry inside => listed entry (.tail _ inside))

structure Evicts (s after : Store) (evicted : List SessionCacheSlot) : Prop where
  thinned : Thinned s after
  slots : after.slots.length ≤ MAX_SESSION_SLOTS
  bytes : after.totalBytes ≤ MAX_SESSION_BRIDGE_BYTES
  listed : ∀ slot ∈ evicted, ∃ entry ∈ s.slots, entry.2 = slot
  ordered : evicted.Pairwise Before
  kept : ∀ slot ∈ evicted, ∀ entry ∈ after.slots, Before slot entry.2

theorem Core.within (core : Core s) (slots : s.slots.length ≤ MAX_SESSION_SLOTS) (bytes : s.totalBytes ≤ MAX_SESSION_BRIDGE_BYTES) :
    Evicts s s [] := ⟨core.thinned,slots,bytes,by simp,List.Pairwise.nil,by simp⟩

theorem Core.empty (core : Core s) (empty : s.slots = []) : Evicts s s [] := by
  refine core.within (by rw [empty]; exact Nat.zero_le _) ?_
  rw [core.total,empty]
  decide

theorem Core.enforced (fuel : Nat) : ∀ {s}, Core s → s.slots.length ≤ fuel → Evicts s (s.enforce fuel).1 (s.enforce fuel).2 := by
  induction fuel with
  | zero => exact fun core enough => core.empty (List.eq_nil_of_length_eq_zero (Nat.le_zero.mp enough))
  | succ fuel ih =>
    intro s core enough
    rw [Store.enforce]
    split
    · split
      · rename_i none_
        exact core.empty (victimSome none_)
      · rename_i victimKey victim found
        obtain ⟨inside,least⟩ := victimFound found
        have deleted := core.deleted victimKey
        have shorter : (s.deleteKey victimKey).slots.length + 1 = s.slots.length := by
          rw [deletedSlots]
          exact (permDelete core.unique (getOfMem core.unique inside)).length_eq.symm
        have later := ih deleted.core (by omega)
        refine ⟨deleted.trans later.thinned,later.slots,later.bytes,?_,List.Pairwise.cons ?_ later.ordered,?_⟩
        · intro slot listed
          rcases List.mem_cons.mp listed with rfl | listed
          · exact ⟨_,inside,rfl⟩
          · obtain ⟨entry,there,same⟩ := later.listed slot listed
            exact ⟨entry,deleted.slots.subset there,same⟩
        · intro slot listed
          obtain ⟨entry,there,rfl⟩ := later.listed slot listed
          exact least entry (deleted.slots.subset there)
        · intro slot listed entry there
          rcases List.mem_cons.mp listed with rfl | listed
          · exact least entry (deleted.slots.subset (later.thinned.slots.subset there))
          · exact later.kept slot listed entry there
    · rename_i fits
      exact core.within (Nat.not_lt.mp (not_or.mp fits).1) (Int.not_lt.mp (not_or.mp fits).2)

structure Bounded (s : Store) : Prop where
  core : Core s
  slots : s.slots.length ≤ MAX_SESSION_SLOTS
  bytes : s.totalBytes ≤ MAX_SESSION_BRIDGE_BYTES
  warm : ∀ entry ∈ s.slots, s.minTokens ≤ entry.2.cachedTokens
  off : s.enabled = false → s.slots = []

theorem boundedStart : Bounded .start := ⟨⟨List.nodup_nil,rfl,by simp [Store.start],by simp [Store.start]⟩,Nat.zero_le _,
  by decide,by simp [Store.start],fun _ => rfl⟩

theorem Bounded.thinned (bounded : Bounded s) (thinned : Thinned s after) : Bounded after := by
  refine ⟨thinned.core,thinned.slots.length_le.trans bounded.slots,?_,?_,?_⟩
  · have less := thinned.bytes
    have before := bounded.bytes
    rw [bounded.core.total] at before
    rw [thinned.core.total]
    omega
  · intro entry inside
    rw [thinned.minTokens]
    exact bounded.warm entry (thinned.slots.subset inside)
  · intro off
    have empty := bounded.off (thinned.enabled ▸ off)
    exact List.sublist_nil.mp (empty ▸ thinned.slots)

structure Shape where
  accountId : String
  sessionKey : String
  body : Body
  cachedTokens : ℚ

def shapeOf (slot : SessionCacheSlot) : Shape := ⟨slot.accountId,slot.sessionKey,slot.body,slot.cachedTokens⟩

structure Refreshed (s after : Store) : Prop where
  slots : after.slots.map (Prod.map id shapeOf) = s.slots.map (Prod.map id shapeOf)
  totalBytes : after.totalBytes = s.totalBytes
  minTokens : after.minTokens = s.minTokens
  enabled : after.enabled = s.enabled

theorem Refreshed.mem (refreshed : Refreshed s after) {entry} (inside : entry ∈ after.slots) :
    ∃ old ∈ s.slots, old.1 = entry.1 ∧ shapeOf old.2 = shapeOf entry.2 := by
  have shape : Prod.map id shapeOf entry ∈ s.slots.map (Prod.map id shapeOf) := refreshed.slots ▸ List.mem_map_of_mem inside
  obtain ⟨old,there,same⟩ := List.mem_map.mp shape
  exact ⟨old,there,show (Prod.map id shapeOf old).1 = (Prod.map id shapeOf entry).1 from congrArg Prod.fst same,
    show (Prod.map id shapeOf old).2 = (Prod.map id shapeOf entry).2 from congrArg Prod.snd same⟩

theorem Refreshed.keys (refreshed : Refreshed s after) : keys after.slots = keys s.slots := by
  have keysOf : ∀ slots : InsertionMap String SessionCacheSlot, InsertionMap.keys slots = (slots.map (Prod.map id shapeOf)).map Prod.fst := by
    intro slots
    rw [List.map_map]
    rfl
  rw [keysOf,refreshed.slots,← keysOf]

theorem Refreshed.bytes (refreshed : Refreshed s after) : bytesOf after.slots = bytesOf s.slots := by
  have bytes : ∀ slots, bytesOf slots =
      ((slots.map (Prod.map id shapeOf)).map (fun entry => entry.2.body.length)).sum := by
    intro slots
    rw [List.map_map]
    rfl
  rw [bytes,refreshed.slots,← bytes]

theorem Bounded.refreshed (bounded : Bounded s) (refreshed : Refreshed s after) : Bounded after := by
  have length := congrArg List.length refreshed.slots
  rw [List.length_map,List.length_map] at length
  refine ⟨⟨refreshed.keys ▸ bounded.core.unique,?_,?_,?_⟩,length ▸ bounded.slots,refreshed.totalBytes ▸ bounded.bytes,?_,?_⟩
  · rw [refreshed.totalBytes,bounded.core.total,refreshed.bytes]
  · intro entry inside
    obtain ⟨old,there,key,shape⟩ := refreshed.mem inside
    rw [← key,bounded.core.own old there,show old.2.accountId = entry.2.accountId from congrArg Shape.accountId shape,
      show old.2.sessionKey = entry.2.sessionKey from congrArg Shape.sessionKey shape]
  · intro entry inside
    obtain ⟨old,there,-,shape⟩ := refreshed.mem inside
    have body : old.2.body = entry.2.body := congrArg Shape.body shape
    exact body ▸ bounded.core.small old there
  · intro entry inside
    obtain ⟨old,there,-,shape⟩ := refreshed.mem inside
    have tokens : old.2.cachedTokens = entry.2.cachedTokens := congrArg Shape.cachedTokens shape
    rw [refreshed.minTokens,← tokens]
    exact bounded.warm old there
  · intro off
    have empty := bounded.off (refreshed.enabled ▸ off)
    rw [empty,List.length_nil] at length
    exact List.eq_nil_of_length_eq_zero length

theorem bookedSame (s : Store) (slot : SessionCacheSlot) (readTokens : ℚ) : ∃ stats, s.bookWarmResume slot readTokens = { s with bridgeStats := stats } := by
  unfold Store.bookWarmResume
  split
  · exact ⟨_,rfl⟩
  · exact ⟨_,rfl⟩

section
variable (bounded : Bounded s)
include bounded

theorem Bounded.touched (accountId sessionKey : String) (now : Int) (readTokens : ℚ) :
    Bounded (s.touchActivity accountId sessionKey now readTokens) := by
  unfold Store.touchActivity
  simp only
  split
  · exact bounded
  · rename_i slot found
    obtain ⟨stats,same⟩ := bookedSame s slot readTokens
    rw [same]
    exact bounded.refreshed ⟨mapSet found rfl,rfl,rfl,rfl⟩

theorem Bounded.charged (accountId sessionKey : String) (cacheHit : Bool) (now : Int) (expected : Option Int) :
    Bounded (s.recordKeepaliveResult accountId sessionKey cacheHit now expected) := by
  unfold Store.recordKeepaliveResult
  simp only
  split
  · exact bounded
  · rename_i slot found
    split
    · exact bounded
    · exact bounded.refreshed ⟨mapSet found rfl,rfl,rfl,rfl⟩

theorem Bounded.deleted (key : String) : Bounded (s.deleteKey key) := bounded.thinned (bounded.core.deleted key)

theorem Bounded.backedOff (accountId sessionKey : String) (now : Int) (expected : Option Int) (usageUnknown : Bool) :
    Bounded (s.recordKeepaliveFailure accountId sessionKey now expected usageUnknown) := by
  unfold Store.recordKeepaliveFailure
  simp only
  split
  · exact bounded
  · rename_i slot found
    split
    · exact bounded
    · split
      · have billed : ∀ stats, Bounded { s with bridgeStats := stats } := fun _ => bounded.refreshed ⟨rfl,rfl,rfl,rfl⟩
        exact (billed _).deleted _
      · have kept : Bounded { s with
            slots := InsertionMap.set s.slots (keyOf accountId sessionKey) { slot with
              lastKeepaliveTs := some now
              keepaliveFailures := slot.keepaliveFailures + 1 }
            bridgeStats := s.bridgeStats.recordFailure 0 } := bounded.refreshed ⟨mapSet found rfl,rfl,rfl,rfl⟩
        split
        · exact kept.deleted _
        · exact kept

theorem Bounded.dropped (accountId sessionKey : String) (expected : Int) :
    Bounded (s.evictSession accountId sessionKey expected) := by
  unfold Store.evictSession
  simp only
  split
  · exact bounded
  · split
    · exact bounded
    · exact bounded.deleted _

theorem Bounded.accountEvicted (accountId : String) : Bounded (s.evictAccount accountId) :=
  bounded.thinned (bounded.core.evicted accountId s.slots bounded.core.unique (fun _ inside => inside))

theorem Bounded.derated (riskFactor : Finite) : Bounded (s.setRiskFactor riskFactor) := by
  refine bounded.refreshed ⟨?_,rfl,rfl,rfl⟩
  simp only [Store.setRiskFactor,List.map_map]
  rfl

theorem Bounded.raised (minTokens : Finite) : Bounded (s.setMinTokens minTokens) := by
  have core : ∀ threshold, Core { s with minTokens := threshold } := fun _ =>
    ⟨bounded.core.unique,bounded.core.total,bounded.core.own,bounded.core.small⟩
  obtain ⟨thinned,high⟩ : Thinned _ (s.setMinTokens minTokens) ∧ ∀ entry ∈ (s.setMinTokens minTokens).slots, _ ≤ entry.2.cachedTokens :=
    (core _).raised _ s.slots (fun entry inside => .inl inside)
  refine ⟨thinned.core,thinned.slots.length_le.trans bounded.slots,?_,?_,?_⟩
  · have less := thinned.bytes
    have before := bounded.bytes
    rw [bounded.core.total] at before
    exact thinned.core.total.le.trans ((Int.ofNat_le.mpr less).trans before)
  · intro entry inside
    exact thinned.minTokens.le.trans (high entry inside)
  · intro off
    have empty := bounded.off (thinned.enabled.symm.trans off)
    exact List.sublist_nil.mp (empty ▸ thinned.slots)

end

theorem roomAtStart : (0 : Int) ≤ MAX_SESSION_BRIDGE_BYTES := by decide

theorem Bounded.switched (bounded : Bounded s) (enabled : Bool) : Bounded (s.setEnabled enabled) := by
  unfold Store.setEnabled
  split
  · exact ⟨⟨bounded.core.unique,bounded.core.total,bounded.core.own,bounded.core.small⟩,bounded.slots,bounded.bytes,bounded.warm,by simp⟩
  · exact ⟨⟨List.nodup_nil,rfl,by simp [Store.clear],by simp [Store.clear]⟩,Nat.zero_le _,roomAtStart,by simp [Store.clear],fun _ => rfl⟩

structure Served (after : Store) (evicted : List SessionCacheSlot) : Prop where
  bounded : Bounded after
  ordered : evicted.Pairwise Before
  kept : ∀ slot ∈ evicted, ∀ entry ∈ after.slots, Before slot entry.2

theorem Bounded.quiet (bounded : Bounded s) : Served s [] := ⟨bounded,List.Pairwise.nil,by simp⟩

theorem absentDeleted (s : Store) (key : String) : key ∉ keys (s.deleteKey key).slots := by
  rw [deletedSlots,memKeysDelete]
  exact fun inside => inside.2 rfl

def grown (s : Store) (key : String) (slot : SessionCacheSlot) : Store :=
  { s with slots := InsertionMap.set s.slots key slot,totalBytes := s.totalBytes + slot.body.length }

theorem Core.added (core : Core s) (absent : key ∉ keys s.slots) (own : key = keyOf slot.accountId slot.sessionKey)
    (small : slot.body.length ≤ MAX_SESSION_BODY_BYTES) : Core (grown s key slot) := by
  have listed : (grown s key slot).slots = s.slots ++ [(key,slot)] := setFresh absent
  refine ⟨nodupSet core.unique,?_,?_,?_⟩
  · have total := core.total
    have bytes : bytesOf (grown s key slot).slots = bytesOf s.slots + slot.body.length := by
      rw [listed,bytesOf,bytesOf,List.map_append,List.sum_append]
      simp
    have counted : (grown s key slot).totalBytes = s.totalBytes + slot.body.length := rfl
    omega
  · intro entry inside
    rw [listed] at inside
    rcases List.mem_append.mp inside with old | new
    · exact core.own entry old
    · exact List.mem_singleton.mp new ▸ own
  · intro entry inside
    rw [listed] at inside
    rcases List.mem_append.mp inside with old | new
    · exact core.small entry old
    · exact List.mem_singleton.mp new ▸ small

theorem Bounded.upserted (bounded : Bounded s) (enabled : s.enabled = true) (own : key = keyOf slot.accountId slot.sessionKey)
    (small : slot.body.length ≤ MAX_SESSION_BODY_BYTES) (warm : s.minTokens ≤ slot.cachedTokens) :
    Served (grown (s.deleteKey key) key slot).enforceBounds.1 (grown (s.deleteKey key) key slot).enforceBounds.2 := by
  have cleared := bounded.core.deleted key
  have evicts := (cleared.core.added (absentDeleted s key) own small).enforced _ le_rfl
  refine ⟨⟨evicts.thinned.core,evicts.slots,evicts.bytes,?_,?_⟩,evicts.ordered,evicts.kept⟩
  · intro entry inside
    have grew := evicts.thinned.slots.subset inside
    rw [show (grown (s.deleteKey key) key slot).slots = _ from setFresh (absentDeleted s key)] at grew
    refine (evicts.thinned.minTokens.trans cleared.minTokens).le.trans ?_
    rcases List.mem_append.mp grew with old | new
    · exact bounded.warm entry (cleared.slots.subset old)
    · exact List.mem_singleton.mp new ▸ warm
  · intro off
    have still : _ = s.enabled := evicts.thinned.enabled.trans cleared.enabled
    rw [enabled] at still
    cases still.symm.trans off

theorem bookedPrev (s : Store) (params : RegisterSessionParams) : ∃ stats, s.bookPrev params = { s with bridgeStats := stats } := by
  unfold Store.bookPrev
  split
  · split
    · exact bookedSame s _ _
    · exact ⟨_,rfl⟩
  · exact ⟨_,rfl⟩

theorem Bounded.registered (bounded : Bounded s) (p : Platform) (params : RegisterSessionParams) (now : Int) :
    Served (s.register p params now).1 (s.register p params now).2 := by
  unfold Store.register
  split
  · exact bounded.quiet
  · rename_i on
    obtain ⟨stats,same⟩ := bookedPrev s params
    have kept : Bounded { s with bridgeStats := stats } := bounded.refreshed ⟨rfl,rfl,rfl,rfl⟩
    simp only [same]
    split
    · exact (kept.deleted _).quiet
    · rename_i eligible
      split
      · exact (kept.deleted _).quiet
      · split
        · exact (kept.deleted _).quiet
        · rename_i small
          have warm : s.minTokens ≤ params.cacheReadTokens + params.cacheCreationTokens := by
            simpa [isEligibleByTokens] using eligible
          exact kept.upserted (by simpa using on) rfl (Nat.le_of_not_gt small) warm

theorem Bounded.stepped (bounded : Bounded s) (p : Platform) (operation : Operation) : Served (step p s operation).1 (step p s operation).2 := by
  cases operation with
  | register params now => exact bounded.registered p params now
  | touchActivity accountId sessionKey now readTokens => exact (bounded.touched accountId sessionKey now readTokens).quiet
  | recordKeepaliveResult accountId sessionKey cacheHit now expected => exact (bounded.charged accountId sessionKey cacheHit now expected).quiet
  | recordKeepaliveFailure accountId sessionKey now expected usageUnknown =>
    exact (bounded.backedOff accountId sessionKey now expected usageUnknown).quiet
  | evictSession accountId sessionKey expected => exact (bounded.dropped accountId sessionKey expected).quiet
  | evictAccount accountId => exact (bounded.accountEvicted accountId).quiet
  | setMinTokens minTokens => exact (bounded.raised minTokens).quiet
  | setRiskFactor riskFactor => exact (bounded.derated riskFactor).quiet
  | setEnabled enabled => exact (bounded.switched enabled).quiet

theorem boundedRun (p : Platform) (operations : List Operation) : Bounded (run p operations) := by
  have runs : ∀ {s}, Bounded s → Bounded (operations.foldl (fun s operation => (step p s operation).1) s) := by
    induction operations with
    | nil => exact fun bounded => bounded
    | cons operation rest ih => exact fun bounded => ih (bounded.stepped p operation).bounded
  exact runs boundedStart

theorem staysBounded (p : Platform) (operations : List Operation) :
    Bounded (run p operations) ∧ ∀ operation,
      (step p (run p operations) operation).2.Pairwise Before ∧
      ∀ slot ∈ (step p (run p operations) operation).2, ∀ entry ∈ (step p (run p operations) operation).1.slots, Before slot entry.2 := by
  have bounded := boundedRun p operations
  exact ⟨bounded,fun operation => ⟨(bounded.stepped p operation).ordered,(bounded.stepped p operation).kept⟩⟩

end Clankermux.SessionCacheStore
