import Clankermux.ConversationStore

/-! Where the registered sessions of the conversation store are: still settling, the current
one of a record in the map, or discarded. What one step does is told by a few effects, and
the books balance after each of them. -/
namespace Clankermux.ConversationStore
open InsertionMap Function

def ConversationRecord.frame (r : ConversationRecord) : String × Option StoredSession × Nat × Nat :=
  (r.key,r.current,r.currentSeq,r.nextSeq)

structure Quiet (s t : Store) : Prop where
  records : t.records = s.records
  allocated : t.allocated = s.allocated
  registrations : t.registrations = s.registrations
  discarded : t.discarded = s.discarded
  frames : ∀ id, (t.heap id).frame = (s.heap id).frame

theorem Quiet.refl (s : Store) : Quiet s s := ⟨rfl,rfl,rfl,rfl,fun _ => rfl⟩

theorem Quiet.trans {s t u : Store} (first : Quiet s t) (second : Quiet t u) : Quiet s u :=
  ⟨second.records.trans first.records,second.allocated.trans first.allocated,
    second.registrations.trans first.registrations,second.discarded.trans first.discarded,
    fun id => (second.frames id).trans (first.frames id)⟩

theorem quietWrite (s : Store) {id record} (same : record.frame = (s.heap id).frame) :
    Quiet s (s.write id record) := by
  refine ⟨rfl,rfl,rfl,rfl,fun other => ?_⟩
  by_cases here : other = id
  · rw [here]
    simpa [Store.write] using same
  · simp [Store.write,here]

theorem quietBusy (s : Store) (id : Nat) (busy : Option Nat) : Quiet s (s.write id { s.heap id with busy := busy }) :=
  quietWrite s rfl

theorem quietTimeOut (s : Store) (c : Nat) : Quiet s (s.timeOut c) := ⟨rfl,rfl,rfl,rfl,fun _ => rfl⟩

theorem quietStage (s : Store) (c : Nat) (claim : Claim) (stage : Stage) : Quiet s (s.setStage c claim stage) :=
  ⟨rfl,rfl,rfl,rfl,fun _ => rfl⟩

theorem quietGrant (s : Store) (c : Nat) (claim : Claim) (id : Nat) (now : Int) : Quiet s (s.grant c claim id now) :=
  have used : Quiet s (s.write id { s.heap id with
    lastUsed := now
    scopeKey := (claim.scopeKey.filter (fun scope => scope ≠ "")).or (s.heap id).scopeKey }) := quietWrite s rfl
  used.trans ⟨rfl,rfl,rfl,rfl,fun _ => rfl⟩

theorem quietFinish (s : Store) (c : Nat) (claim : Claim) (id : Nat) : Quiet s (s.finish c claim id) := by
  unfold Store.finish
  split
  · exact (quietBusy s id none).trans (quietStage _ _ _ _)
  · exact quietStage _ _ _ _

inductive Effect (s t : Store) : Prop where
  | quiet (quiet : Quiet s t)
  | created (key : String) (now : Int) (absent : get s.records key = none) (made : t = (s.record key now).1)
  | dropped (key : String) (id : Nat) (found : get s.records key = some id)
      (free : (s.heap id).busy = none ∧ (s.heap id).pending = none) (gone : t = s.drop key id)
  | registered (session : StoredSession) (id : Nat) (nextSeq : (s.heap id).nextSeq + 1 = (t.heap id).nextSeq)
      (fresh : ∀ other ∈ s.registrations, other.session.sessionId ≠ session.sessionId)
      (inside : id < s.allocated)
      (records : t.records = s.records) (allocated : t.allocated = s.allocated) (discarded : t.discarded = s.discarded)
      (registrations : t.registrations = s.registrations ++ [⟨session,id,(s.heap id).nextSeq,false⟩])
      (kept : ∀ other, (t.heap other).key = (s.heap other).key ∧ (t.heap other).current = (s.heap other).current ∧
        (t.heap other).currentSeq = (s.heap other).currentSeq)
      (others : ∀ other, other ≠ id → (t.heap other).nextSeq = (s.heap other).nextSeq)

abbrev Effects := Relation.ReflTransGen Effect

theorem effectsRecord (s : Store) (key : String) (now : Int) : Effects s (s.record key now).1 := by
  cases found : get s.records key with
  | none => exact .single (.created key now found rfl)
  | some id =>
    simp only [Store.record,found]
    exact .refl

theorem effectsQuiet {s t : Store} (quiet : Quiet s t) : Effects s t := .single (.quiet quiet)

theorem effectsHold (s : Store) (c : Nat) (claim : Claim) (now date : Int) : Effects s (s.hold c claim now date) := by
  refine (effectsRecord s claim.key now).trans (effectsQuiet ?_)
  unfold Store.hold
  generalize s.record claim.key now = made
  obtain ⟨s,id⟩ := made
  dsimp only
  split
  · exact quietStage _ _ _ _
  · have held : Quiet s (if (s.heap id).busy.any (· ≠ c) = true then s.timeOut c else s) := by
      split
      · exact quietTimeOut _ _
      · exact .refl _
    refine held.trans ?_
    generalize (if (s.heap id).busy.any (· ≠ c) = true then s.timeOut c else s) = s
    refine (quietBusy s id (some c)).trans ?_
    split
    · exact quietStage _ _ _ _
    · exact quietGrant _ _ _ _ _

theorem effectsPending (s : Store) (c : Nat) (claim : Claim) (id : Nat) (now later date : Int) :
    Effects s (s.resumePending c claim id now later date) := by
  unfold Store.resumePending
  split
  · exact effectsQuiet (quietGrant _ _ _ _ _)
  · split
    · refine (effectsRecord s claim.key now).trans (effectsQuiet ?_)
      generalize s.record claim.key now = made
      obtain ⟨s,id⟩ := made
      exact ((quietTimeOut s c).trans (quietBusy _ id (some c))).trans (quietGrant _ _ _ _ _)
    · exact effectsHold _ _ _ _ _

inductive Dropped (s : Store) : Store → Prop where
  | intro (key : String) (id : Nat) (found : get s.records key = some id)
      (free : (s.heap id).busy = none ∧ (s.heap id).pending = none) : Dropped s (s.drop key id)

theorem Dropped.effect {s t : Store} (dropped : Dropped s t) : Effect s t := by
  obtain ⟨key,id,found,free⟩ := dropped
  exact .dropped key id found free rfl

theorem dropsIdle (entries : List (String × Nat)) : ∀ {s}, (entries.map Prod.fst).Nodup →
    (∀ e ∈ entries, get s.records e.1 = some e.2 ∧ (s.heap e.2).busy = none ∧ (s.heap e.2).pending = none) →
    Relation.ReflTransGen Dropped s (entries.foldl (fun s entry => s.drop entry.1 entry.2) s) := by
  induction entries with
  | nil => exact fun _ _ => .refl
  | cons entry rest ih =>
    intro s nodup idle
    obtain ⟨found,free⟩ := idle entry (.head _)
    obtain ⟨new,nodup⟩ := List.nodup_cons.mp nodup
    refine Relation.ReflTransGen.head (.intro entry.1 entry.2 found free) (ih nodup ?_)
    intro other inside
    obtain ⟨there,idle⟩ := idle other (.tail _ inside)
    have ne : other.1 ≠ entry.1 := fun same => new (same ▸ List.mem_map_of_mem inside)
    exact ⟨(getDeleteOther ne).trans there,idle⟩

theorem pruneDrops {s : Store} (nodup : (keys s.records).Nodup) (now : Int) :
    Relation.ReflTransGen Dropped s (s.prune now) := by
  unfold Store.prune
  set idle := s.records.filter (fun entry => (s.heap entry.2).busy = none ∧ (s.heap entry.2).pending = none)
  set fresh := idle.filter (fun entry => now - (s.heap entry.2).lastUsed ≤ s.opts.idleTtlMs) with left
  set expired := idle.filter (fun entry => now - (s.heap entry.2).lastUsed > s.opts.idleTtlMs) with gone
  have parts : (expired ++ fresh).Perm idle := by
    have complement : fresh = idle.filter (fun entry => !decide (now - (s.heap entry.2).lastUsed > s.opts.idleTtlMs)) :=
      List.filter_congr (fun entry _ => (decide_eq_decide.mpr Int.not_lt.symm).trans (decide_not ..))
    rw [gone,complement]
    exact List.filter_append_perm _ _
  set oldest := (fresh.insertionSort (fun a b => (s.heap a.2).lastUsed ≤ (s.heap b.2).lastUsed)).take
    (s.records.length - expired.length - s.opts.maxEntries) with taken
  have some_ : (expired ++ oldest).Subperm s.records := by
    have sorted : oldest.Subperm fresh :=
      (List.take_sublist _ _).subperm.trans (List.perm_insertionSort _ _).subperm
    exact ((List.subperm_append_left expired).mpr sorted).trans (parts.subperm.trans List.filter_sublist.subperm)
  refine dropsIdle _ ?_ ?_
  · obtain ⟨shuffled,perm,sub⟩ := some_
    exact ((perm.map Prod.fst).nodup_iff).mp (nodup.sublist (sub.map _))
  · intro entry inside
    have busy : entry ∈ idle := by
      rcases List.mem_append.mp inside with early | late
      · exact (List.mem_filter.mp early).1
      · have late := (List.perm_insertionSort _ _).subset (List.mem_of_mem_take late)
        exact (List.mem_filter.mp late).1
    obtain ⟨there,free⟩ := List.mem_filter.mp busy
    exact ⟨getOfMem nodup there,by simpa using free⟩

theorem effectsClaim {s : Store} (nodup : (keys s.records).Nodup) (key : String) (waitMs : Int) (scopeKey : Option String)
    (now started date : Int) : Effects s (s.claim key waitMs scopeKey now started date) := by
  refine (Relation.ReflTransGen.mono (fun _ _ => Dropped.effect) _ _ (pruneDrops nodup now)).trans ?_
  refine (effectsQuiet ?_).trans (effectsHold { s.prune now with claimed := (s.prune now).claimed + 1 } _ _ now date)
  exact ⟨rfl,rfl,rfl,rfl,fun _ => rfl⟩

theorem effectsEvict (s : Store) (key : String) : Effects s (s.evict key).1 := by
  unfold Store.evict
  split
  · exact .refl
  · rename_i id found
    split
    · exact .refl
    · rename_i idle
      refine .single (.dropped key id found ?_ rfl)
      simpa [not_or] using idle

theorem effectsRegister {s : Store} {session} (c : Nat) (claim : Claim) {id} (inside : id < s.allocated)
    (fresh : ∀ other ∈ s.registrations, other.session.sessionId ≠ session.sessionId) :
    Effects s (s.register c claim id session) := by
  have registered : Effect s (s.enlist id session) := by
    refine .registered session id ?_ fresh inside rfl rfl rfl rfl ?_ ?_
    · simp [Store.enlist,Store.write]
    · intro other
      by_cases here : other = id
      · subst here
        simp [Store.enlist,Store.write]
      · simp [Store.enlist,Store.write,here]
    · intro other here
      simp [Store.enlist,Store.write,here]
  exact (Relation.ReflTransGen.single registered).tail (.quiet (quietFinish _ c claim id))

structure Sound (s : Store) : Prop where
  nodup : (keys s.records).Nodup
  homes : ∀ entry ∈ s.records, entry.2 < s.allocated ∧ (s.heap entry.2).key = entry.1
  placed : ∀ registration ∈ s.registrations,
    registration.record < s.allocated ∧ registration.seq < (s.heap registration.record).nextSeq
  ordered : s.registrations.Pairwise (fun a b => a.record = b.record → a.seq < b.seq)
  unique : (s.registrations.map (·.session.sessionId)).Nodup
  currents : ∀ id current, id < s.allocated → (s.heap id).current = some current →
    ∃ registration ∈ s.registrations, registration.settled = true ∧ registration.session = current ∧
      registration.record = id ∧ registration.seq = (s.heap id).currentSeq

theorem frameParts {a b : ConversationRecord} (same : a.frame = b.frame) :
    a.key = b.key ∧ a.current = b.current ∧ a.currentSeq = b.currentSeq ∧ a.nextSeq = b.nextSeq := by
  simpa [ConversationRecord.frame] using same

variable {s t : Store}

theorem Sound.home (sound : Sound s) {key id} (found : get s.records key = some id) :
    id < s.allocated ∧ (s.heap id).key = key := sound.homes (key,id) (memOfGet found)

theorem Sound.effect (sound : Sound s) (effect : Effect s t) : Sound t := by
  cases effect with
  | quiet quiet =>
    have frame id := frameParts (quiet.frames id)
    refine ⟨quiet.records ▸ sound.nodup,?_,?_,quiet.registrations ▸ sound.ordered,quiet.registrations ▸ sound.unique,?_⟩
    · intro entry inside
      rw [quiet.records] at inside
      rw [quiet.allocated,(frame _).1]
      exact sound.homes entry inside
    · intro registration inside
      rw [quiet.registrations] at inside
      rw [quiet.allocated,(frame _).2.2.2]
      exact sound.placed registration inside
    · intro id current below its
      rw [quiet.allocated] at below
      rw [(frame id).2.1] at its
      rw [quiet.registrations,(frame id).2.2.1]
      exact sound.currents id current below its
  | created key now absent made =>
    have fresh : key ∉ keys s.records := fun inside => by
      obtain ⟨id,found⟩ := getOfMemKeys inside
      simp [absent] at found
    subst made
    simp only [Store.record,absent]
    have old {id : Nat} (below : id < s.allocated) (record : ConversationRecord) :
        update s.heap s.allocated record id = s.heap id := by simp [Nat.ne_of_lt below]
    refine ⟨?_,?_,?_,sound.ordered,sound.unique,?_⟩
    · rw [keysSet,if_neg fresh]
      exact List.nodup_append.mpr ⟨sound.nodup,by simp,by rintro a inside b same rfl; simp_all⟩
    · intro entry inside
      rw [setFresh fresh] at inside
      rcases List.mem_append.mp inside with before | new
      · obtain ⟨below,home⟩ := sound.homes entry before
        refine ⟨Nat.lt_succ_of_lt below,?_⟩
        dsimp only
        rw [old below]
        exact home
      · rw [List.mem_singleton.mp new]
        exact ⟨Nat.lt_succ_self _,by simp⟩
    · intro registration inside
      obtain ⟨below,placed⟩ := sound.placed registration inside
      refine ⟨Nat.lt_succ_of_lt below,?_⟩
      dsimp only
      rw [old below]
      exact placed
    · intro id current below its
      dsimp only at below its ⊢
      rcases Nat.lt_succ_iff_lt_or_eq.mp below with below | rfl
      · rw [old below] at its ⊢
        exact sound.currents id current below its
      · simp at its
  | dropped key id found free gone =>
    subst gone
    exact ⟨nodupDelete sound.nodup,fun entry inside => sound.homes entry (by
        rw [Store.drop,Store.onDiscard,deleteEqFilter] at inside
        exact (List.mem_filter.mp inside).1),sound.placed,sound.ordered,sound.unique,sound.currents⟩
  | registered session id nextSeq fresh below records allocated discarded registrations kept others =>
    have counted (other : Nat) : (s.heap other).nextSeq ≤ (t.heap other).nextSeq := by
      by_cases here : other = id
      · rw [here]
        omega
      · rw [others other here]
    refine ⟨records ▸ sound.nodup,?_,?_,?_,?_,?_⟩
    · intro entry inside
      rw [records] at inside
      rw [allocated,(kept _).1]
      exact sound.homes entry inside
    · intro registration inside
      rw [registrations] at inside
      rw [allocated]
      rcases List.mem_append.mp inside with before | new
      · obtain ⟨below,placed⟩ := sound.placed registration before
        exact ⟨below,Nat.lt_of_lt_of_le placed (counted _)⟩
      · rw [List.mem_singleton.mp new]
        dsimp only
        exact ⟨below,by omega⟩
    · rw [registrations]
      refine List.pairwise_append.mpr ⟨sound.ordered,List.pairwise_singleton _ _,?_⟩
      intro registration before new inside same
      rw [List.mem_singleton.mp inside] at same ⊢
      have placed := (sound.placed registration before).2
      rw [same] at placed
      exact placed
    · rw [registrations,List.map_append]
      refine List.nodup_append.mpr ⟨sound.unique,by simp,?_⟩
      intro a inside b new same
      obtain ⟨other,before,rfl⟩ := List.mem_map.mp inside
      exact fresh other before (same.trans (List.mem_singleton.mp new))
    · intro other current below its
      rw [allocated] at below
      rw [(kept other).2.1] at its
      obtain ⟨registration,before,rest⟩ := sound.currents other current below its
      rw [registrations,(kept other).2.2]
      exact ⟨registration,List.mem_append_left _ before,rest⟩

structure Settled (s t : Store) (index : Nat) (registration : Registration) : Prop where
  records : t.records = s.records
  allocated : t.allocated = s.allocated
  registrations : t.registrations = s.registrations.set index { registration with settled := true }
  keys : ∀ id, (t.heap id).key = (s.heap id).key ∧ (t.heap id).nextSeq = (s.heap id).nextSeq
  others : ∀ id, id ≠ registration.record →
    (t.heap id).current = (s.heap id).current ∧ (t.heap id).currentSeq = (s.heap id).currentSeq
  outcome : ((t.heap registration.record).current = (s.heap registration.record).current ∧
      (t.heap registration.record).currentSeq = (s.heap registration.record).currentSeq ∧
      t.discarded = s.discarded ++ [registration.session.sessionId]) ∨
    ((s.heap registration.record).currentSeq ≤ registration.seq ∧
      (t.heap registration.record).current = some registration.session ∧
      (t.heap registration.record).currentSeq = registration.seq ∧
      t.discarded = s.discarded ++ (((s.heap registration.record).current.filter
        (fun old => old.sessionId ≠ registration.session.sessionId)).map (·.sessionId)).toList)

theorem settleEffect (s : Store) (index : Nat) (registration : Registration) (ok : Bool) :
    Settled s (s.settle index registration ok) index registration := by
  unfold Store.settle
  dsimp only
  have cleared : Quiet { s with registrations := s.registrations.set index { registration with settled := true } }
      (if (s.heap registration.record).pending = some index then
        Store.write { s with registrations := s.registrations.set index { registration with settled := true } }
          registration.record { s.heap registration.record with pending := none }
      else { s with registrations := s.registrations.set index { registration with settled := true } }) := by
    split
    · exact quietWrite _ rfl
    · exact .refl _
  generalize (if (s.heap registration.record).pending = some index then
        Store.write { s with registrations := s.registrations.set index { registration with settled := true } }
          registration.record { s.heap registration.record with pending := none }
      else { s with registrations := s.registrations.set index { registration with settled := true } }) = u at cleared
  have frame id := frameParts (cleared.frames id)
  split
  · refine ⟨cleared.records,cleared.allocated,cleared.registrations,fun id => ⟨(frame id).1,(frame id).2.2.2⟩,
      fun id _ => ⟨(frame id).2.1,(frame id).2.2.1⟩,.inl ⟨(frame _).2.1,(frame _).2.2.1,?_⟩⟩
    simp [Store.onDiscard,cleared.discarded]
  · rename_i taken
    simp only [not_or,Nat.not_lt] at taken
    rw [(frame _).2.2.1] at taken
    refine ⟨cleared.records,cleared.allocated,cleared.registrations,?_,?_,.inr ⟨taken.2,?_,?_,?_⟩⟩
    · intro id
      by_cases here : id = registration.record
      · subst here
        simp [Store.onDiscard,Store.write,(frame _).1,(frame _).2.2.2]
      · simp [Store.onDiscard,Store.write,here,(frame id).1,(frame id).2.2.2]
    · intro id here
      simp [Store.onDiscard,Store.write,here,(frame id).2.1,(frame id).2.2.1]
    · simp [Store.onDiscard,Store.write]
    · simp [Store.onDiscard,Store.write]
    · simp [Store.onDiscard,Store.write,cleared.discarded,(frame _).2.1]

theorem mapSetSame {α β : Type*} (f : α → β) {l : List α} {i old} (there : l[i]? = some old) (new : α)
    (same : f new = f old) : (l.set i new).map f = l.map f := by
  induction l generalizing i with
  | nil => rfl
  | cons head rest ih =>
    cases i with
    | zero =>
      cases there
      simp [same]
    | succ i => simpa using ih there

theorem filterSet {α : Type*} (p : α → Bool) {l : List α} {i old} (there : l[i]? = some old) (new : α)
    (kept : p old = true) (out : p new = false) : (l.filter p).Perm (old::(l.set i new).filter p) := by
  induction l generalizing i with
  | nil => cases there
  | cons head rest ih =>
    cases i with
    | zero =>
      cases there
      simp [kept,out]
    | succ i =>
      have deeper := ih (i := i) there
      rw [List.set_cons_succ,List.filter_cons,List.filter_cons]
      split
      · exact (deeper.cons _).trans (.swap _ _ _)
      · exact deeper

variable {index : Nat} {registration : Registration}

theorem Settled.mem (settled : Settled s t index registration) (there : s.registrations[index]? = some registration)
    {other : Registration} (inside : other ∈ t.registrations) :
    ∃ before ∈ s.registrations, before.session = other.session ∧ before.record = other.record ∧ before.seq = other.seq ∧
      (before.settled = true → other.settled = true) := by
  rw [settled.registrations] at inside
  rcases List.mem_or_eq_of_mem_set inside with before | rfl
  · exact ⟨other,before,rfl,rfl,rfl,id⟩
  · exact ⟨registration,List.mem_of_getElem? there,rfl,rfl,rfl,fun _ => rfl⟩

theorem Settled.stays (settled : Settled s t index registration) (there : s.registrations[index]? = some registration)
    {before : Registration} (inside : before ∈ s.registrations) :
    ∃ other ∈ t.registrations, other.session = before.session ∧ other.record = before.record ∧ other.seq = before.seq ∧
      (before.settled = true → other.settled = true) := by
  obtain ⟨i,below,rfl⟩ := List.mem_iff_getElem.mp inside
  by_cases here : i = index
  · subst here
    have same : s.registrations[i] = registration := Option.some.inj ((List.getElem?_eq_getElem below).symm.trans there)
    rw [same]
    refine ⟨{ registration with settled := true },?_,rfl,rfl,rfl,fun _ => rfl⟩
    rw [settled.registrations]
    exact List.mem_set below _
  · refine ⟨s.registrations[i],?_,rfl,rfl,rfl,id⟩
    rw [settled.registrations]
    exact List.mem_iff_getElem.mpr ⟨i,by simpa using below,by simp [Ne.symm here]⟩

theorem Sound.settled (sound : Sound s) (there : s.registrations[index]? = some registration)
    (settled : Settled s t index registration) : Sound t := by
  have same {β : Type} (f : Registration → β) (blind : f { registration with settled := true } = f registration) :
      t.registrations.map f = s.registrations.map f := by
    rw [settled.registrations]
    exact mapSetSame f there _ blind
  refine ⟨settled.records ▸ sound.nodup,?_,?_,?_,?_,?_⟩
  · intro entry inside
    rw [settled.records] at inside
    rw [settled.allocated,(settled.keys _).1]
    exact sound.homes entry inside
  · intro other inside
    obtain ⟨before,inside,_,record,seq,_⟩ := settled.mem there inside
    rw [settled.allocated,(settled.keys _).2,← record,← seq]
    exact sound.placed before inside
  · have view (l : List Registration) : l.Pairwise (fun a b => a.record = b.record → a.seq < b.seq) ↔
        (l.map (fun r => (r.record,r.seq))).Pairwise (fun a b => a.1 = b.1 → a.2 < b.2) := by
      rw [List.pairwise_map]
    rw [view,same _ rfl,← view]
    exact sound.ordered
  · rw [same _ rfl]
    exact sound.unique
  · intro id current below its
    rw [settled.allocated] at below
    by_cases here : id = registration.record
    · subst here
      rcases settled.outcome with ⟨same,seq,_⟩ | ⟨_,now,seq,_⟩
      · rw [same] at its
        obtain ⟨before,inside,closed,session,record,placed⟩ := sound.currents _ current below its
        obtain ⟨other,there,session',record',seq',kept⟩ := settled.stays there inside
        exact ⟨other,there,kept closed,session'.trans session,record'.trans record,by rw [seq',placed,seq]⟩
      · rw [now] at its
        cases its
        refine ⟨{ registration with settled := true },?_,rfl,rfl,rfl,seq.symm⟩
        rw [settled.registrations]
        exact List.mem_set (List.getElem?_eq_some_iff.mp there).1 _
    · obtain ⟨same,seq⟩ := settled.others id here
      rw [same] at its
      obtain ⟨before,inside,closed,session,record,placed⟩ := sound.currents id current below its
      obtain ⟨other,there,session',record',seq',kept⟩ := settled.stays there inside
      exact ⟨other,there,kept closed,session'.trans session,record'.trans record,by rw [seq',placed,seq]⟩

def attached (s : Store) : List String :=
  s.records.flatMap (fun entry => ((s.heap entry.2).current.map (·.sessionId)).toList)

def unsettled (s : Store) : List String := (s.registrations.filter (fun r => !r.settled)).map (·.session.sessionId)

def Balanced (s : Store) : Prop :=
  (s.discarded ++ (attached s ++ unsettled s)).Perm (s.registrations.map (·.session.sessionId))

theorem attachedSplit (sound : Sound s) {key id} (found : get s.records key = some id) :
    (attached s).Perm (((s.heap id).current.map (·.sessionId)).toList ++
      (delete s.records key).flatMap (fun entry => ((s.heap entry.2).current.map (·.sessionId)).toList)) :=
  (permDelete sound.nodup found).flatMap_right _

theorem attachedOther (sound : Sound s) {key : String} {id} (found : get s.records key = some id)
    {entry} (inside : entry ∈ delete s.records key) : entry.2 ≠ id := by
  intro same
  rw [deleteEqFilter] at inside
  obtain ⟨there,other⟩ := List.mem_filter.mp inside
  have home := (sound.homes entry there).2
  rw [same,(sound.home found).2] at home
  exact (of_decide_eq_true other) home.symm

theorem Balanced.effect (balanced : Balanced s) (sound : Sound s) (effect : Effect s t) : Balanced t := by
  cases effect with
  | quiet quiet =>
    have same : attached t = attached s := by
      unfold attached
      rw [quiet.records]
      exact List.flatMap_congr (fun entry _ => by rw [(frameParts (quiet.frames entry.2)).2.1])
    rw [Balanced,same,unsettled,quiet.registrations,quiet.discarded]
    exact balanced
  | created key now absent made =>
    have fresh : key ∉ keys s.records := fun inside => by
      obtain ⟨id,found⟩ := getOfMemKeys inside
      simp [absent] at found
    have same : attached t = attached s := by
      subst made
      simp only [attached,Store.record,absent,setFresh fresh,List.flatMap_append,List.flatMap_cons,List.flatMap_nil,
        update_self,Option.map_none,Option.toList_none,List.append_nil]
      refine List.flatMap_congr (fun entry inside => ?_)
      rw [update_of_ne (Nat.ne_of_lt (sound.homes entry inside).1)]
    have rest : t.registrations = s.registrations ∧ t.discarded = s.discarded := by
      subst made
      simp [Store.record,absent]
    rw [Balanced,same,unsettled,rest.1,rest.2]
    exact balanced
  | dropped key id found free gone =>
    subst gone
    have split := attachedSplit sound found
    refine List.Perm.trans ?_ balanced
    simp only [Store.drop,Store.onDiscard,List.append_assoc]
    refine List.Perm.append_left _ ?_
    rw [← List.append_assoc]
    exact (split.append_right _).symm
  | registered session id nextSeq fresh below records allocated discarded registrations kept others =>
    have same : attached t = attached s := by
      unfold attached
      rw [records]
      exact List.flatMap_congr (fun entry _ => by rw [(kept entry.2).2.1])
    rw [Balanced,same,unsettled,registrations,discarded,List.filter_append,List.map_append,List.map_append]
    simpa [List.append_assoc,unsettled] using List.Perm.append_right [session.sessionId] balanced

theorem Sound.same (sound : Sound s) {a b : Registration} (first : a ∈ s.registrations) (second : b ∈ s.registrations)
    (named : a.session.sessionId = b.session.sessionId) : a = b :=
  List.inj_on_of_nodup_map sound.unique first second named

theorem Sound.newcomer (sound : Sound s) (inside : registration ∈ s.registrations) (unsettled_ : registration.settled = false)
    {id current} (below : id < s.allocated) (its : (s.heap id).current = some current) :
    current.sessionId ≠ registration.session.sessionId := by
  intro named
  obtain ⟨other,there,closed,session,_,_⟩ := sound.currents id current below its
  have same := sound.same there inside (by rw [session,named])
  rw [same,unsettled_] at closed
  cases closed

theorem Balanced.settled (balanced : Balanced s) (sound : Sound s) (there : s.registrations[index]? = some registration)
    (unsettled_ : registration.settled = false) (settled : Settled s t index registration)
    (kept : (t.heap registration.record).current = (s.heap registration.record).current ∨
      get s.records (s.heap registration.record).key = some registration.record) : Balanced t := by
  have names : t.registrations.map (·.session.sessionId) = s.registrations.map (·.session.sessionId) := by
    rw [settled.registrations]
    exact mapSetSame _ there _ rfl
  have open_ : (unsettled s).Perm (registration.session.sessionId::unsettled t) := by
    unfold unsettled
    rw [settled.registrations]
    exact (filterSet (fun r => !r.settled) there { registration with settled := true } (by simp [unsettled_])
      (by simp)).map (·.session.sessionId)
  have inside := List.mem_of_getElem? there
  have below := (sound.placed registration inside).1
  rw [Balanced,names]
  refine List.Perm.trans ?_ balanced
  rw [List.perm_iff_count]
  intro name
  have opened := open_.count_eq name
  rcases settled.outcome with ⟨same,_,discarded⟩ | ⟨_,now,_,discarded⟩
  · have steady : attached t = attached s := by
      unfold attached
      rw [settled.records]
      refine List.flatMap_congr (fun entry _ => ?_)
      by_cases here : entry.2 = registration.record
      · rw [here,same]
      · rw [(settled.others _ here).1]
    rw [steady,discarded]
    simp only [List.count_append,List.count_cons,List.count_nil] at opened ⊢
    omega
  · have found : get s.records (s.heap registration.record).key = some registration.record := by
      rcases kept with same | found
      · exact absurd rfl (sound.newcomer inside unsettled_ below (same.symm.trans now))
      · exact found
    have before := (attachedSplit sound found).count_eq name
    have after := (attachedSplit (sound.settled there settled) (settled.records ▸ found)).count_eq name
    rw [settled.records] at after
    have rest : (delete s.records (s.heap registration.record).key).flatMap
          (fun entry => ((t.heap entry.2).current.map (·.sessionId)).toList) =
        (delete s.records (s.heap registration.record).key).flatMap
          (fun entry => ((s.heap entry.2).current.map (·.sessionId)).toList) :=
      List.flatMap_congr (fun entry its => by rw [(settled.others _ (attachedOther sound found its)).1])
    have replaced : (s.heap registration.record).current.filter
        (fun old => old.sessionId ≠ registration.session.sessionId) = (s.heap registration.record).current := by
      cases its : (s.heap registration.record).current with
      | none => rfl
      | some old => simp [sound.newcomer inside unsettled_ below its]
    rw [rest,now] at after
    rw [discarded,replaced]
    simp only [List.count_append,List.count_cons,List.count_nil,Option.map_some,Option.toList_some] at opened before after ⊢
    omega

end Clankermux.ConversationStore
