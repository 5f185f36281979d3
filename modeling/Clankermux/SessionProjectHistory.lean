import Clankermux.SessionProjectCache

/-! What the cache answers over a run, told from the history of its calls. -/
namespace Clankermux.SessionProjectCache
open InsertionMap RecencyMap

section Order
variable {entries : Entries} {history added : List Record} {record : Record} {key other stale used project : String}
  {entry : CacheEntry} {now : Int}

theorem UsedSince.after (since : UsedSince history stale used) (quiet : ∀ record ∈ added, ¬ record.Uses stale) :
    UsedSince (added ++ history) stale used := by
  obtain ⟨newer,use,older,rfl,uses,unused⟩ := since
  refine ⟨added ++ newer,use,older,by rw [List.append_assoc],uses,?_⟩
  intro record inside
  rcases List.mem_cons.mp inside with rfl | inside
  · exact unused record (.head _)
  · rcases List.mem_append.mp inside with front | behind
    · exact quiet record front
    · exact unused record (.tail _ behind)

def RecencyOrdered (history : List Record) (entries : Entries) : Prop :=
  entries.Pairwise (fun a b => UsedSince history a.1 b.1)

theorem RecencyOrdered.idle (ordered : RecencyOrdered history entries) (quiet : ∀ key, ∀ record ∈ added, ¬ record.Uses key) :
    RecencyOrdered (added ++ history) entries :=
  List.Pairwise.imp (fun since => since.after (quiet _)) ordered

theorem RecencyOrdered.touch (ordered : RecencyOrdered history entries) (uses : record.Uses key)
    (only : ∀ other, record.Uses other → other = key) : RecencyOrdered (record::history) (touch entries key entry) := by
  rw [RecencyOrdered,touchEqAppend,List.pairwise_append]
  have others : ∀ kept ∈ delete entries key, ¬ record.Uses kept.1 := by
    intro kept inside its
    rw [deleteEqFilter] at inside
    exact of_decide_eq_true (List.mem_filter.mp inside).2 (only _ its)
  refine ⟨?_,List.pairwise_singleton _ _,?_⟩
  · refine List.Pairwise.imp_of_mem ?_ (List.Pairwise.sublist deleteSublist ordered)
    exact fun kept _ since => since.after (List.forall_mem_singleton.mpr (others _ kept))
  · intro kept inside last last_
    cases List.mem_singleton.mp last_
    exact ⟨[],record,history,rfl,uses,by simpa using others kept inside⟩

theorem getEvict : get (evict entries) other = if oldest entries = some other then none else get entries other := by
  rw [evict]
  cases oldest entries with
  | none => simp
  | some key => simp only [Option.some.injEq,eq_comm (a := key)]; exact getDelete

theorem evictSublist : List.Sublist (evict entries) entries := by
  rw [evict]
  split
  · exact deleteSublist
  · exact List.Sublist.refl _

theorem lengthEvict (bound : entries.length ≤ MAX_ENTRIES + 1) : (evict entries).length ≤ MAX_ENTRIES := by
  rw [evict,oldest]
  cases entries with
  | nil => exact Nat.zero_le _
  | cons head rest =>
    by_cases past : (head::rest).length > MAX_ENTRIES
    · obtain ⟨key,value⟩ := head
      have shorter : (delete rest key).length ≤ rest.length := lengthDelete
      simp only [past,if_true,keys,List.map_cons,List.head?_cons,InsertionMap.delete]
      simp only [List.length_cons] at bound
      omega
    · simp only [past,if_false]
      omega

theorem oldestFirst (dropped : oldest entries = some key) : ∃ entry rest, entries = (key,entry)::rest := by
  rw [oldest] at dropped
  split at dropped
  · cases entries with
    | nil => simp [keys] at dropped
    | cons head rest =>
      obtain ⟨first,entry⟩ := head
      simp only [keys,List.map_cons,List.head?_cons,Option.some.injEq] at dropped
      exact ⟨entry,rest,by rw [dropped]⟩
  · cases dropped

end Order

structure Sound (w : World) : Prop where
  unique : (keys w.entries).Nodup
  bound : w.entries.length ≤ MAX_ENTRIES
  ordered : RecencyOrdered w.history w.entries
  tracked : ∀ key, Tracked (get w.entries key) (seeds key w.history) w.clock

theorem seedsEvicted {dropped history key} :
    seeds key (dropped.toList.map .evicted ++ history) = if dropped = some key then [] else seeds key history := by
  cases dropped with
  | none => simp
  | some old => simp [seeds]

theorem Sound.onSet {w} (sound : Sound w) {now} (le : w.clock ≤ now) (key project : String) :
    Sound ⟨(Call.set key project).apply w.entries now,now,(Call.set key project).records w.entries now ++ w.history⟩ := by
  have ordered : RecencyOrdered (.set key project now::w.history) (seeded w.entries key project now) :=
    sound.ordered.touch rfl (fun _ its => Eq.symm its)
  refine ⟨nodupSublist (nodupTouch sound.unique) evictSublist,?_,?_,?_⟩
  · exact lengthEvict (lengthTouch.trans (Nat.succ_le_succ sound.bound))
  · rw [Call.records,List.append_assoc]
    refine RecencyOrdered.idle (List.Pairwise.sublist evictSublist ordered) ?_
    intro key record inside
    obtain ⟨old,_,rfl⟩ := List.mem_map.mp inside
    exact id
  · intro other
    simp only [Call.apply,SessionProjectCache.set,Call.records,List.append_assoc,getEvict,seedsEvicted]
    split
    · exact trackedForgotten
    · rw [seeded]
      by_cases same : other = key
      · subst same
        simpa [seeds,existing] using (sound.tracked other).reseed le project
      · simpa [seeds,getTouchOther same,Ne.symm same] using (sound.tracked other).wait le

theorem lookupCases (entries : Entries) (key : String) (now : Int) :
    (get entries key = none ∧ existing entries key now = none ∧ lookup entries key now = (entries,miss)) ∨
    (∃ entry, get entries key = some entry ∧ now ≥ entry.expiresAt ∧ existing entries key now = none ∧
      lookup entries key now = (delete entries key,miss)) ∨
    (∃ entry, get entries key = some entry ∧ now < entry.expiresAt ∧ existing entries key now = some entry ∧
      lookup entries key now = (touch entries key entry,⟨if entry.ambiguous now then none else some entry.project,entry.ambiguous now⟩)) := by
  rw [lookup,existing]
  cases found : get entries key with
  | none => exact .inl ⟨rfl,rfl,rfl⟩
  | some entry =>
    by_cases past : now ≥ entry.expiresAt
    · exact .inr (.inl ⟨entry,rfl,past,by simp [past],by simp [past]⟩)
    · exact .inr (.inr ⟨entry,rfl,not_le.mp past,by simp [Option.filter,past],by simp [past]⟩)

theorem Sound.onLookup {w} (sound : Sound w) {now} (le : w.clock ≤ now) (key : String) :
    Sound ⟨(Call.lookup key).apply w.entries now,now,(Call.lookup key).records w.entries now ++ w.history⟩ := by
  have waited := fun other => (sound.tracked other).wait le
  have missing : ∀ record ∈ [Record.missed key], ∀ key, ¬ record.Uses key := by simp [Record.Uses]
  rw [Call.apply,Call.records]
  rcases lookupCases w.entries key now with ⟨_,none_,its⟩ | ⟨entry,found,past,none_,its⟩ | ⟨entry,found,_,some_,its⟩
  · rw [its,none_]
    exact ⟨sound.unique,sound.bound,sound.ordered.idle (fun key record inside => missing record inside key),
      by simpa [seeds] using waited⟩
  · rw [its,none_]
    refine ⟨nodupSublist sound.unique deleteSublist,lengthDelete.trans sound.bound,?_,?_⟩
    · exact RecencyOrdered.idle (List.Pairwise.sublist deleteSublist sound.ordered) (fun key record inside => missing record inside key)
    · intro other
      by_cases same : other = key
      · subst same
        have tracked := sound.tracked other
        rw [found] at tracked
        simpa [seeds] using tracked.expire le past
      · simpa [seeds,getDeleteOther same] using waited other
  · rw [its,some_]
    refine ⟨nodupTouch sound.unique,?_,sound.ordered.touch rfl (fun _ its => Eq.symm its),?_⟩
    · -- the entry was there, so the map is no longer than it was
      have shorter : (delete w.entries key).length < w.entries.length := by
        rw [deleteEqFilter]
        exact List.length_filter_lt_length_iff_exists.mpr ⟨_,memOfGet found,by simp⟩
      have bound := sound.bound
      rw [touchEqAppend,List.length_append,List.length_singleton]
      omega
    · intro other
      by_cases same : other = key
      · subst same
        have tracked := waited other
        rw [found] at tracked
        simpa [seeds] using tracked
      · simpa [seeds,getTouchOther same] using waited other

theorem soundReachable {w} (reach : machine.Reachable w) : Sound w := by
  refine reach.invariant ?_ ?_
  · rintro w ⟨empty,fresh⟩
    refine ⟨by simp [empty,keys],by simp [empty],by simp [RecencyOrdered,empty],fun key => ?_⟩
    rw [empty,fresh]
    exact trackedForgotten
  · intro w e t sound step
    simp only [machine] at step
    split at step
    · cases step
    · rename_i later
      cases step
      have le : w.clock ≤ e.now := by omega
      obtain ⟨now,call⟩ := e
      cases call with
      | set key project => exact sound.onSet le key project
      | lookup key => exact sound.onLookup le key
      | clear => exact ⟨.nil,Nat.zero_le _,.nil,fun key => trackedForgotten⟩

section Answers
variable {w : World} {key project : String} {now : Int} {call : Call} {found after : CacheEntry} {history : List Record}

theorem Sound.answer (sound : Sound w) (le : w.clock ≤ now) (key : String) :
    ((lookup w.entries key now).2 = miss ∧ ∀ project, ¬ Held (seeds key w.history) now project) ∨
    ∃ project, Held (seeds key w.history) now project ∧
      ((¬ Conflicted (seeds key w.history) now ∧ (lookup w.entries key now).2 = ⟨some project,false⟩) ∨
        (Conflicted (seeds key w.history) now ∧ (lookup w.entries key now).2 = ⟨none,true⟩)) := by
  have tracked := sound.tracked key
  rcases lookupCases w.entries key now with ⟨none_,_,its⟩ | ⟨entry,some_,past,_,its⟩ | ⟨entry,some_,live,_,its⟩
  · rw [none_] at tracked
    exact .inl ⟨by rw [its],(tracked.wait le).gone rfl⟩
  · rw [some_] at tracked
    exact .inl ⟨by rw [its],(tracked.expire le past).gone rfl⟩
  · have stands := tracked.stands entry some_
    obtain ⟨last,older,same,stored,until_⟩ := stands.last
    have held : Held (seeds key w.history) now entry.project := ⟨last,older,same,by omega,stored.symm⟩
    have conflict := stands.conflict now le
    refine .inr ⟨entry.project,held,?_⟩
    rw [its]
    cases ambiguous : entry.ambiguous now with
    | false => exact .inl ⟨fun conflicted => by simp [conflict.mpr conflicted] at ambiguous,by simp⟩
    | true => exact .inr ⟨conflict.mp ambiguous,by simp⟩

theorem heldOnce {seeds other} (held : Held seeds now project) (its : Held seeds now other) :
    project = other := by
  obtain ⟨last,older,rfl,_,rfl⟩ := held
  exact (heldCons.mp its).2

theorem seedsWhole (kept : .evicted key ∉ history) (uncleared : .cleared ∉ history) :
    seeds key history = history.filterMap (Record.seed key) := by
  induction history with
  | nil => rfl
  | cons record older ih =>
    have tail := ih (fun inside => kept (.tail _ inside)) (fun inside => uncleared (.tail _ inside))
    cases record with
    | set other project at_ =>
      by_cases same : other = key
      · simp [seeds,Record.seed,same,tail]
      · simp [seeds,Record.seed,same,tail]
    | evicted other =>
      have ne : other ≠ key := fun same => kept (same ▸ (.head _))
      simp [seeds,Record.seed,List.filterMap_cons,ne,tail]
    | hit other => simp [seeds,Record.seed,List.filterMap_cons,tail]
    | missed other => simp [seeds,Record.seed,List.filterMap_cons,tail]
    | cleared => exact absurd (.head _) uncleared

theorem entryKept (other : ∀ project, call ≠ .set key project) (some_ : get (call.apply w.entries now) key = some after) :
    get w.entries key = some after := by
  cases call with
  | set key' project =>
    have ne : key ≠ key' := fun same => other project (by rw [same])
    simp only [Call.apply,SessionProjectCache.set,getEvict,seeded,getTouchOther ne] at some_
    split at some_
    · cases some_
    · exact some_
  | lookup key' =>
    rw [Call.apply] at some_
    rcases lookupCases w.entries key' now with ⟨_,_,its⟩ | ⟨entry,_,_,_,its⟩ | ⟨entry,found,_,_,its⟩
    · rwa [its] at some_
    · rw [its,getDelete] at some_
      split at some_
      · cases some_
      · exact some_
    · rw [its] at some_
      by_cases same : key = key'
      · subst same
        rw [getTouchSelf] at some_
        rwa [found]
      · rwa [getTouchOther same] at some_
  | clear => simp [Call.apply] at some_

theorem deadlineCarried (live : existing w.entries key now = some found)
    (written : get (set w.entries key found.project now).1 key = some after) :
    after.ambiguousUntil = found.ambiguousUntil.filter (fun until_ => now < until_) := by
  rw [SessionProjectCache.set,getEvict] at written
  split at written
  · cases written
  · rw [seeded,getTouchSelf,live] at written
    cases written
    simp [reseeded]

theorem Sound.dropped (sound : Sound w) {old} (past : oldest (seeded w.entries key project now) = some old) :
    old ∈ keys (seeded w.entries key project now) ∧ (set w.entries key project now).1 = delete (seeded w.entries key project now) old ∧
      ∀ other ∈ keys (set w.entries key project now).1, UsedSince (.set key project now::w.history) old other := by
  have ordered : RecencyOrdered (.set key project now::w.history) (seeded w.entries key project now) :=
    sound.ordered.touch rfl (fun _ its => Eq.symm its)
  have dropped : (set w.entries key project now).1 = delete (seeded w.entries key project now) old := by
    rw [SessionProjectCache.set,evict,past]
  obtain ⟨entry,rest,front⟩ := oldestFirst past
  refine ⟨by simp [front,keys],dropped,fun other inside => ?_⟩
  rw [dropped,memKeysDelete,front] at inside
  rw [front] at ordered
  obtain ⟨inside,ne⟩ := inside
  simp only [keys,List.map_cons,List.mem_cons,ne,false_or] at inside
  obtain ⟨kept,behind,rfl⟩ := List.mem_map.mp inside
  exact (List.pairwise_cons.mp ordered).1 kept behind

end Answers

structure AnswersFromHistory (w : World) : Prop where
  project : ∀ key now project, w.clock ≤ now → ((lookup w.entries key now).2.project = some project ↔
    Held (seeds key w.history) now project ∧ ¬ Conflicted (seeds key w.history) now)
  ambiguous : ∀ key now, w.clock ≤ now → ((lookup w.entries key now).2.ambiguous = true ↔
    (∃ project, Held (seeds key w.history) now project) ∧ Conflicted (seeds key w.history) now)
  missed : ∀ key now, w.clock ≤ now →
    ((lookup w.entries key now).2 = miss ↔ ∀ project, ¬ Held (seeds key w.history) now project)
  previous : ∀ key now seed project, w.clock ≤ now →
    ((set w.entries key seed now).2 = some project ↔ Held (seeds key w.history) now project)
  whole : ∀ key, .evicted key ∉ w.history → .cleared ∉ w.history → seeds key w.history = w.history.filterMap (Record.seed key)
  untouched : ∀ key (call : Call) now, (∀ project, call ≠ .set key project) → ∀ after,
    get (call.apply w.entries now) key = some after → get w.entries key = some after
  carried : ∀ key now found after, existing w.entries key now = some found →
    get (set w.entries key found.project now).1 key = some after →
      ∀ later, now ≤ later → after.ambiguous later = found.ambiguous later
  bound : w.entries.length ≤ MAX_ENTRIES
  dropped : ∀ key project now old, oldest (seeded w.entries key project now) = some old →
    old ∈ keys (seeded w.entries key project now) ∧ (set w.entries key project now).1 = delete (seeded w.entries key project now) old ∧
      ∀ other ∈ keys (set w.entries key project now).1, UsedSince (.set key project now::w.history) old other

theorem answersFromHistory {w : World} (reach : machine.Reachable w) : AnswersFromHistory w := by
  have sound := soundReachable reach
  refine ⟨?_,?_,?_,?_,fun key => seedsWhole,fun key call now other after => entryKept other,?_,sound.bound,
    fun key project now old => sound.dropped⟩
  · intro key now project le
    rcases sound.answer le key with ⟨its,none_⟩ | ⟨stored,held,⟨clean,its⟩ | ⟨conflicted,its⟩⟩
    · rw [its]
      exact iff_of_false nofun (fun held => none_ project held.1)
    · rw [its,Option.some.injEq]
      exact ⟨fun same => ⟨same ▸ held,clean⟩,fun told => heldOnce held told.1⟩
    · rw [its]
      exact iff_of_false nofun (fun told => told.2 conflicted)
  · intro key now le
    rcases sound.answer le key with ⟨its,none_⟩ | ⟨stored,held,⟨clean,its⟩ | ⟨conflicted,its⟩⟩
    · rw [its]
      exact iff_of_false nofun (fun told => told.1.elim none_)
    · rw [its]
      exact iff_of_false nofun (fun told => clean told.2)
    · rw [its]
      exact iff_of_true rfl ⟨⟨stored,held⟩,conflicted⟩
  · intro key now le
    rcases sound.answer le key with ⟨its,none_⟩ | ⟨stored,held,⟨clean,its⟩ | ⟨conflicted,its⟩⟩
    · exact iff_of_true its none_
    · rw [its]
      exact iff_of_false nofun (fun none_ => none_ stored held)
    · rw [its]
      exact iff_of_false nofun (fun none_ => none_ stored held)
  · exact fun key now seed project le => (sound.tracked key).existing le
  · intro key now found after live written later le
    rw [CacheEntry.ambiguous,deadlineCarried live written,CacheEntry.ambiguous]
    cases found.ambiguousUntil with
    | none => rfl
    | some until_ =>
      by_cases ahead : now < until_
      · simp [ahead]
      · have passed : ¬ later < until_ := by omega
        simp [ahead,passed]

def conflicting : List Event := [⟨0,.set "anon:s" "alpha"⟩,⟨1000,.lookup "anon:s"⟩,⟨2000,.set "anon:s" "beta"⟩]

theorem answersFromHistoryConflicting : ∃ w, machine.run ⟨[],0,[]⟩ conflicting = some w ∧
    (lookup w.entries "anon:s" 3000).2 = ⟨none,true⟩ ∧ AnswersFromHistory w :=
  ⟨_,rfl,by decide,answersFromHistory (Machine.runReachable (s := ⟨[],0,[]⟩) conflicting ⟨rfl,rfl⟩ rfl)⟩

/-- A seed of the project that is there lengthens the life of its entry. -/
theorem reseedLengthens : ∃ w t, machine.run ⟨[],0,[]⟩ [⟨0,.set "anon:s" "alpha"⟩] = some w ∧
    machine.step w ⟨1,.set "anon:s" "alpha"⟩ = some t ∧
    (lookup w.entries "anon:s" TTL_MS).2 = miss ∧ (lookup t.entries "anon:s" TTL_MS).2 = ⟨some "alpha",false⟩ :=
  ⟨_,_,rfl,rfl,by decide,by decide⟩

end Clankermux.SessionProjectCache
