import Clankermux.Ledger
import Clankermux.RequestRecorder

/-! The life of one request in the recorder: what its record, the writes offered for it and the
rows written of it look like together, and what each operation of the recorder does to them. -/
namespace Clankermux.RequestRecorder

inductive Write where
  | row (row : SaveRequestData)
  | settlement (usageSource : UsageSource)
  | patch (patch : UsagePatchWrite)

def Job.writes : Job → List (String × Write)
  | .saveRequest row _ => [(row.id,.row row)]
  | .markRequestUsageSource requestId usageSource => [(requestId,.settlement usageSource)]
  | .updateRequestUsage patch => [(patch.requestId,.patch patch)]
  | .shutdownBatch heldPatches unsettled =>
    heldPatches.map (fun patch => (patch.requestId,.patch patch)) ++ unsettled.map (fun requestId => (requestId,.settlement .none))

def writesIn (id : String) (entry : Job × Bool) : List (Write × Bool) :=
  (entry.1.writes.filter (fun write => write.1 == id)).map (fun write => (write.2,entry.2))

def writesOf (id : String) (enqueued : List (Job × Bool)) : List (Write × Bool) := enqueued.flatMap (writesIn id)

def persistsOf (id : String) (persists : List InternalRecord) : List InternalRecord :=
  persists.filter (fun record => record.recordMeta.requestId == id)

theorem writesOfAppend {id before after} :
    writesOf id (before ++ after) = writesOf id before ++ writesOf id after := List.flatMap_append

structure Sound (budget : Nat) (s : RequestRecorder) : Prop where
  nodup : s.records.keys.Nodup
  keyed : ∀ {id record}, s.records.get id = some record → record.recordMeta.requestId = id
  bytes : s.capturedBytesPending = (s.records.map (fun entry => entry.2.chargedBytes)).sum
  within : s.capturedBytesPending ≤ budget

/-- `t` is `s` after work on the record of `id`, which left `record`, offered `writes`, persisted
`persists` and counted `dropped` refusals. -/
structure Becomes (budget : Nat) (id : String) (s t : RequestRecorder) (record : Option InternalRecord) (writes : List (Write × Bool))
    (persists : List InternalRecord) (dropped : Nat) : Prop where
  record : t.records.get id = record
  writes : writesOf id t.enqueued = writesOf id s.enqueued ++ writes
  persists : persistsOf id t.persists = persistsOf id s.persists ++ persists
  dropped : t.metadataDropped = s.metadataDropped + dropped
  others : ∀ other, other ≠ id → t.records.get other = s.records.get other ∧
    writesOf other t.enqueued = writesOf other s.enqueued ∧ persistsOf other t.persists = persistsOf other s.persists
  grows : s.enqueued <+: t.enqueued
  sound : Sound budget t

variable {budget : Nat} {id : String} {s t u : RequestRecorder} {record old : InternalRecord} {r r' : Option InternalRecord}
  {w w' : List (Write × Bool)} {p p' : List InternalRecord} {d d' : Nat}

theorem becomesItself (sound : Sound budget s) (found : s.records.get id = r) : Becomes budget id s s r [] [] 0 := by
  constructor
  all_goals simp_all

theorem Becomes.next (first : Becomes budget id s t r w p d) (second : Becomes budget id t u r' w' p' d') :
    Becomes budget id s u r' (w ++ w') (p ++ p') (d + d') where
  record := second.record
  writes := by rw [second.writes,first.writes,List.append_assoc]
  persists := by rw [second.persists,first.persists,List.append_assoc]
  dropped := by rw [second.dropped,first.dropped,Nat.add_assoc]
  others other ne := by
    obtain ⟨record,writes,persists⟩ := first.others other ne
    obtain ⟨record',writes',persists'⟩ := second.others other ne
    exact ⟨record'.trans record,writes'.trans writes,persists'.trans persists⟩
  grows := first.grows.trans second.grows
  sound := second.sound

theorem keyedSet {records : InsertionMap String InternalRecord}
    (keyed : ∀ {id record}, records.get id = some record → record.recordMeta.requestId = id) (own : record.recordMeta.requestId = id) :
    ∀ {other another}, (records.set id record).get other = some another → another.recordMeta.requestId = other := by
  intro other another found
  rw [InsertionMap.getSet] at found
  split at found
  · next same =>
    cases found
    rw [own,same]
  · exact keyed found

theorem becomesCharged (record : InternalRecord) (sound : Sound budget s) (own : record.recordMeta.requestId = id) (pending : Nat)
    (charged : pending + ((s.records.get id).map (·.chargedBytes)).getD 0 = s.capturedBytesPending + record.chargedBytes)
    (fits : pending ≤ budget) : Becomes budget id s ({ s with capturedBytesPending := pending }.put record) (some record) [] [] 0 where
  record := by simp [put,own]
  writes := by simp [put]
  persists := by simp [put]
  dropped := rfl
  others other ne := ⟨by rw [put,own,InsertionMap.getSetOther ne],rfl,rfl⟩
  grows := List.prefix_rfl
  sound := by
    have total := @InsertionMap.sumSet String InternalRecord _ s.records id record _ _ (·.chargedBytes)
    have bytes := sound.bytes
    constructor
    · exact InsertionMap.nodupSet sound.nodup
    · rw [put,own]
      exact keyedSet sound.keyed own
    · simp only [put,own]
      omega
    · exact fits

theorem becomesPut (sound : Sound budget s) (found : s.records.get id = some old) (own : record.recordMeta.requestId = id) (freed : Nat)
    (charged : record.chargedBytes + freed = old.chargedBytes) :
    Becomes budget id s ({ s with capturedBytesPending := s.capturedBytesPending - freed }.put record) (some record) [] [] 0 := by
  have total := @InsertionMap.sumSet String InternalRecord _ s.records id record _ _ (·.chargedBytes)
  have bytes := sound.bytes
  refine becomesCharged record sound own _ ?_ ((Nat.sub_le ..).trans sound.within)
  rw [found,Option.map_some,Option.getD_some] at total ⊢
  omega

theorem becomesPutSame (record : InternalRecord) (sound : Sound budget s) (found : s.records.get id = some old) (own : record.recordMeta.requestId = id)
    (charged : record.chargedBytes = old.chargedBytes) : Becomes budget id s (s.put record) (some record) [] [] 0 :=
  becomesPut sound found own 0 charged

section
variable (sound : Sound budget s)
include sound

theorem becomesReleased (found : s.records.get id = some old) (own : record.recordMeta.requestId = id)
    (charged : record.chargedBytes = old.chargedBytes) :
    Becomes budget id s (s.releaseCapturedBodies record) (some record.bodiesReleased) [] [] 0 :=
  becomesPut sound found (show record.bodiesReleased.recordMeta.requestId = id from own) record.chargedBytes
    ((Nat.zero_add _).trans charged)

theorem becomesFreed (found : s.records.get id = some record) :
    Becomes budget id s (s.releaseBuffers record) (some record.released) [] [] 0 := by
  have own := sound.keyed found
  exact @becomesPut budget id s record.released record sound found own record.chargedBytes (Nat.zero_add _)

theorem becomesEnqueued (found : s.records.get id = r) {job write accepted}
    (alone : job.writes = [(id,write)]) : Becomes budget id s (s.enqueue job accepted) r [(write,accepted)] [] 0 where
  record := found
  writes := by simp [enqueue,writesOf,writesIn,alone]
  persists := by simp [enqueue]
  dropped := rfl
  others other ne := ⟨rfl,by simp [enqueue,writesOf,writesIn,alone,Ne.symm ne],rfl⟩
  grows := List.prefix_append ..
  sound := { sound with }

theorem becomesCounted (found : s.records.get id = r) :
    Becomes budget id s { s with metadataDropped := s.metadataDropped + 1 } r [] [] 1 where
  record := found
  writes := by simp
  persists := by simp
  dropped := rfl
  others other ne := ⟨rfl,rfl,rfl⟩
  grows := List.prefix_rfl
  sound := { sound with }

theorem becomesPersisted (found : s.records.get id = r) (own : record.recordMeta.requestId = id) :
    Becomes budget id s { s with persists := s.persists ++ [record] } r [] [record] 0 where
  record := found
  writes := by simp
  persists := by simp [persistsOf,own]
  dropped := rfl
  others other ne := ⟨rfl,rfl,by simp [persistsOf,own,Ne.symm ne]⟩
  grows := List.prefix_rfl
  sound := { sound with }

theorem becomesDropped (found : s.records.get id = some record) :
    Becomes budget id s (s.dropRecord id) none [] [] 0 := by
  have freed := becomesFreed sound found
  have same : s.dropRecord id = { s.releaseBuffers record with records := (s.releaseBuffers record).records.delete id } := by
    simp [dropRecord,found]
  rw [same]
  have total := ((InsertionMap.permDelete freed.sound.nodup freed.record).map (fun entry => entry.2.chargedBytes)).sum_eq
  constructor
  · simp
  · simpa using freed.writes
  · simpa using freed.persists
  · exact freed.dropped
  · intro other ne
    rw [InsertionMap.getDeleteOther ne]
    exact freed.others other ne
  · exact freed.grows
  · constructor
    · exact InsertionMap.nodupDelete freed.sound.nodup
    · intro other another there
      rw [InsertionMap.getDelete] at there
      split at there
      · cases there
      · exact freed.sound.keyed there
    · have bytes := freed.sound.bytes
      simp only [InternalRecord.released,List.map_cons,List.sum_cons,Nat.zero_add] at total
      exact bytes.trans total
    · exact freed.sound.within

end

def InternalRecord.written (record : InternalRecord) : InternalRecord := { record with graceTimer := false }

def InternalRecord.kept (record : InternalRecord) (now : Int) : InternalRecord :=
  { record.written.bodiesReleased with
    persistedAt := some now
    persisted := true
    patchTimer := true }

theorem persistOrderedBecomes (m : Moment) (sound : Sound budget s) (found : s.records.get id = some old)
    (own : record.recordMeta.requestId = id) (charged : record.chargedBytes = old.chargedBytes) :
    Becomes budget id s (persistOrdered m s record) (some record.bodiesReleased) [(.row (requestRow record),m.accepts id)] [record]
      (if m.accepts id then 0 else 1) := by
  have released := becomesReleased sound found own charged
  unfold persistOrdered
  dsimp only
  generalize (if m.storePayloads && !record.bodyDiscarded && m.reserves record.recordMeta.requestId
    then some (record.reqBytes.getD 0 + record.respBytes) else none) = payload
  rw [own]
  have offered := @becomesEnqueued budget id _ _ released.sound released.record (.saveRequest (requestRow record) payload)
    (.row (requestRow record)) (m.accepts id) (by simp [Job.writes,requestRow,own])
  have persisted := becomesPersisted offered.sound offered.record own
  have through := (released.next offered).next persisted
  cases accepted : m.accepts id with
  | true => simpa [accepted] using through
  | false => simpa [accepted] using through.next (becomesCounted persisted.sound persisted.record)

theorem persistBecomes (m : Moment) (sound : Sound budget s) (found : s.records.get id = some record) (fresh : record.persisted = false)
    (finished : record.transport.isSome) {graceElapsed : Bool}
    (ready : record.usage.isSome ∨ record.usageWaived = true ∨ graceElapsed = true) :
    Becomes budget id s (persistWhenReady m s id graceElapsed)
      (if record.usageWaived || record.usage.isSome then none else some (record.kept m.now))
      [(.row (requestRow record.written),m.accepts id)] [record.written] (if m.accepts id then 0 else 1) := by
  have own := sound.keyed found
  have persisted := @persistOrderedBecomes budget id s record.written record m sound found own rfl
  have waits : (record.usage.isNone && !record.usageWaived && !graceElapsed) = false := by
    rcases ready with usage | waived | grace
    · simp [Option.isNone_eq_false_iff.mpr usage]
    · simp [waived]
    · simp [grace]
  have open_ : (record.persisted || record.transport.isNone) = false := by
    rw [fresh,Option.isNone_eq_false_iff.mpr finished,Bool.or_false]
  have put := becomesPutSame { record.written.bodiesReleased with persistedAt := some m.now, persisted := true }
    persisted.sound persisted.record own rfl
  have kept := becomesPutSame (record.kept m.now) persisted.sound persisted.record own rfl
  rw [persistWhenReady,found]
  dsimp only
  rw [open_,waits,if_neg Bool.false_ne_true,if_neg Bool.false_ne_true]
  change Becomes budget id s (if record.usageWaived || record.usage.isSome
    then ((persistOrdered m s record.written).put { record.written.bodiesReleased with persistedAt := some m.now, persisted := true }).dropRecord id
    else (persistOrdered m s record.written).put (record.kept m.now)) _ _ _ _
  cases record.usageWaived || record.usage.isSome with
  | true => simpa using (persisted.next put).next (becomesDropped put.sound put.record)
  | false => simpa using persisted.next kept

theorem persistWaits (m : Moment) (found : s.records.get id = some record) {graceElapsed : Bool}
    (waits : record.persisted = true ∨ record.transport = none ∨
      record.usage = none ∧ record.usageWaived = false ∧ graceElapsed = false) :
    persistWhenReady m s id graceElapsed = s := by
  simp only [persistWhenReady,found]
  split
  · rfl
  · next closed =>
    rcases waits with persisted | open_ | ⟨usage,waived,grace⟩
    · simp [persisted] at closed
    · simp [open_] at closed
    · simp [usage,waived,grace]

theorem closeBecomes (m : Moment) (sound : Sound budget s) (found : s.records.get id = some record) (held : record.pendingPatch = none)
    (needs : needsUsageSourceSettlement record = true) :
    (closeUnresolvedUsageSource m s record).1 = m.accepts id ∧
      ∃ left, (left = record ∨ left = { record.bodiesReleased with settlementPending := true } ∨
          left = { record with settlementPending := false }) ∧
        (m.accepts id = false → left.settlementPending = true) ∧
        Becomes budget id s (closeUnresolvedUsageSource m s record).2 (some left) [(.settlement .none,m.accepts id)] []
          (if m.accepts id || record.settlementPending then 0 else 1) := by
  have own := sound.keyed found
  have offered := @becomesEnqueued budget id s _ sound found (.markRequestUsageSource id .none) _ (m.accepts id) rfl
  have closes : closeUnresolvedUsageSource m s record = if m.accepts id
      then (true,(s.enqueue (.markRequestUsageSource id .none) (m.accepts id)).put { record with settlementPending := false })
      else if record.settlementPending then (false,s.enqueue (.markRequestUsageSource id .none) (m.accepts id))
      else
        let s := (s.enqueue (.markRequestUsageSource id .none) (m.accepts id)).releaseCapturedBodies record
        (false,{ s with metadataDropped := s.metadataDropped + 1 }.put { record.bodiesReleased with settlementPending := true }) := by
    unfold closeUnresolvedUsageSource
    rw [if_neg (by simp [held]),if_neg (by simp [needs])]
    simp only [own]
  rw [closes]
  cases accepted : m.accepts id with
  | true =>
    rw [accepted] at offered
    refine ⟨rfl,{ record with settlementPending := false },.inr (.inr rfl),nofun,?_⟩
    simpa using offered.next (becomesPutSame { record with settlementPending := false } offered.sound offered.record own rfl)
  | false =>
    rw [accepted] at offered
    cases retried : record.settlementPending with
    | true => exact ⟨by simp,record,.inl rfl,fun _ => retried,by simpa using offered⟩
    | false =>
      refine ⟨by simp,{ record.bodiesReleased with settlementPending := true },.inr (.inl rfl),fun _ => rfl,?_⟩
      have released := becomesReleased offered.sound offered.record own rfl
      have counted := becomesCounted released.sound released.record
      simpa using ((offered.next released).next counted).next
        (becomesPutSame { record.bodiesReleased with settlementPending := true } counted.sound counted.record own rfl)

def InternalRecord.holding (record : InternalRecord) (summary : SlimUsageSummary) : InternalRecord :=
  { record with
    pendingPatch := some summary
    settlementPending := true
    patchTimer := false }

theorem patchBecomes (m : Moment) (sound : Sound budget s) (found : s.records.get id = some record) (summary : SlimUsageSummary) :
    ∃ left,
      (m.accepts id = true → left = none) ∧
      (m.accepts id = false → ∃ held, left = some held ∧ held.settlementPending = true ∧
        held.pendingPatch = some summary ∧ held.patchTimer = false ∧ held.persisted = record.persisted ∧
        held.recordMeta.requestId = record.recordMeta.requestId ∧ held.usageFinalizedAt = record.usageFinalizedAt ∧
        held.usage = record.usage ∧ held.usageWaived = record.usageWaived) ∧
      Becomes budget id s (patchUsage m s record summary) left [(.patch (buildUsagePatch record summary),m.accepts id)] [] 0 := by
  have own := sound.keyed found
  have offered := @becomesEnqueued budget id s _ sound found (.updateRequestUsage (buildUsagePatch record summary))
    (.patch (buildUsagePatch record summary)) (m.accepts id) (by simp [Job.writes,buildUsagePatch,own])
  simp only [patchUsage,own]
  cases accepted : m.accepts id with
  | true =>
    rw [accepted] at offered
    have put := becomesPutSame { record with patchTimer := false } offered.sound offered.record own rfl
    exact ⟨none,fun _ => rfl,nofun,by simpa using (offered.next put).next (becomesDropped put.sound put.record)⟩
  | false =>
    rw [accepted] at offered
    cases retried : record.settlementPending with
    | true =>
      refine ⟨some (record.holding summary),nofun,fun _ => ⟨_,rfl,rfl,rfl,rfl,rfl,own,rfl,rfl,rfl⟩,?_⟩
      exact offered.next (becomesPutSame (record.holding summary) offered.sound offered.record own rfl)
    | false =>
      refine ⟨some (record.bodiesReleased.holding summary),nofun,fun _ => ⟨_,rfl,rfl,rfl,rfl,rfl,own,rfl,rfl,rfl⟩,?_⟩
      have released := becomesReleased offered.sound offered.record own rfl
      exact (offered.next released).next (becomesPutSame (record.bodiesReleased.holding summary) released.sound released.record own rfl)

end Clankermux.RequestRecorder
