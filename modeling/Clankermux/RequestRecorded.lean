import Clankermux.RequestRecorderRuns

/-! Rows are written once and bytes are counted; a row's usage column is settled once. -/
namespace Clankermux.RequestRecorder
namespace Run
variable {c : RequestRecorderConfig} {run next : Run} {e : Event} {id : String}

def persisted (run : Run) (id : String) : List InternalRecord := persistsOf id run.recorder.persists

def writes (run : Run) (id : String) : List (Write × Bool) := writesOf id run.recorder.enqueued

structure Recorded (c : RequestRecorderConfig) (run : Run) : Prop where
  once : ∀ id, (run.persisted id).length ≤ 1
  -- A row is written off a record whose transport is finished,
  closed : ∀ id, ∀ record ∈ run.persisted id, record.transport.isSome ∧ id ∈ run.finished
  -- and is written where that and the usage is.
  settled : ∀ id ∈ run.finished, id ∈ run.settled → (run.persisted id).length = 1
  held : ∀ id ∈ run.begun, id ∉ run.left → run.persisted id = [] →
    ∃ record, run.recorder.records.get id = some record ∧ record.persisted = false
  bytes : run.recorder.capturedBytesPending = (run.recorder.records.map (fun entry => entry.2.chargedBytes)).sum
  budget : run.recorder.capturedBytesPending ≤ c.captureBytesBudget

structure Recording (run : Run) (e : Event) (next : Run) : Prop where
  grace : ∀ m id, e = .graceElapsed m id → id ∈ run.finished → (next.persisted id).length = 1
  -- Only the shutdown removes a record without a row, and only of an open transport.
  removes : ∀ id record, run.recorder.records.get id = some record → record.persisted = false →
    next.recorder.records.get id = none → (next.persisted id).length = 1 ∨ e = .dispose ∧ record.transport = none
  dispose : e = .dispose → next.recorder.records = [] ∧ ∀ id ∈ run.finished, (next.persisted id).length = 1

theorem Inv.standing (inv : Inv c run) (id : String) : ∃ r writes, Phase (run.notes id) r writes (run.persisted id) :=
  ⟨_,_,inv.phase id⟩

theorem recordedOf (inv : Inv c run) : Recorded c run where
  once id := by
    obtain ⟨r,writes,phase⟩ := inv.standing id
    generalize run.persisted id = rows at phase ⊢
    cases phase <;> simp
  closed id := by
    obtain ⟨r,writes,phase⟩ := inv.standing id
    generalize run.persisted id = rows at phase ⊢
    have finished : ∀ {row}, Written (run.notes id) row → ∀ record ∈ [row], record.transport.isSome ∧ id ∈ run.finished := by
      intro row written record here
      rw [List.mem_singleton.mp here]
      exact ⟨written.closed,by simpa [notes] using written.finished⟩
    cases phase with
    | absent =>
      intro record here
      cases here
    | live =>
      intro record here
      cases here
    | left =>
      intro record here
      cases here
    | window kept => exact finished kept.toWritten
    | owed _ kept => exact finished kept.toWritten
    | held _ _ kept => exact finished kept.toWritten
    | complete written => exact finished written
    | closed _ written => exact finished written
    | patched _ _ written => exact finished written
  settled id finished settled := by
    obtain ⟨r,writes,phase⟩ := inv.standing id
    generalize run.persisted id = rows at phase ⊢
    cases phase with
    | absent _ unfinished => simp [notes,finished] at unfinished
    | left _ _ unfinished => simp [notes,finished] at unfinished
    | live live =>
      have unsettled := (live.waits (by simpa [notes] using finished)).1
      simp [notes,settled] at unsettled
    | _ => rfl
  held id begun stays none_ := by
    have phase := inv.phase id
    rw [At] at phase
    rw [persisted] at none_
    rw [none_] at phase
    generalize run.recorder.records.get id = r at phase ⊢
    generalize writesOf id run.recorder.enqueued = writes at phase
    cases phase with
    | absent unbegun => simp [notes,begun] at unbegun
    | live live => exact ⟨_,rfl,live.unwritten⟩
    | left _ left => simp [notes,stays] at left
  bytes := inv.sound.bytes
  budget := inv.sound.within

theorem stepNotes (stepped : step c run e = some next) :
    (∀ id ∈ run.begun, id ∈ next.begun) ∧ (e = .dispose ∨ next.left = run.left) := by
  cases e <;> simp only [step,Option.ite_none_right_eq_some,Option.ite_none_left_eq_some,Option.some.injEq] at stepped
  case begin => exact ⟨fun id here => by simp [← stepped.2,here],.inr (by rw [← stepped.2])⟩
  case graceElapsed => exact ⟨fun id here => by rwa [← stepped.2],.inr (by rw [← stepped.2])⟩
  case patchWindowShut => exact ⟨fun id here => by rwa [← stepped.2],.inr (by rw [← stepped.2])⟩
  case dispose => exact ⟨fun id here => by rwa [← stepped.2],.inl rfl⟩
  all_goals exact ⟨fun id here => by rwa [← stepped],.inr (by rw [← stepped])⟩

theorem graceDisarms {m s} (sound : Sound c.captureBytesBudget s) {record}
    (found : (graceElapsed m s id).records.get id = some record) (unwritten : record.persisted = false) : record.graceTimer = false := by
  cases before : s.records.get id with
  | none =>
    rw [graceElapsed,before] at found
    rw [before] at found
    cases found
  | some old =>
    have own := sound.keyed before
    have put := becomesPutSame { old with graceTimer := false } sound before own rfl
    rw [graceElapsed,before] at found
    dsimp only at found
    split at found
    · rw [put.record] at found
      cases found
      rfl
    · next open_ =>
      simp only [Bool.or_eq_true,not_or,Bool.not_eq_true] at open_
      cases transport : old.transport with
      | none =>
        rw [persistWaits m put.record (.inr (.inl transport)),put.record] at found
        cases found
        rfl
      | some outcome =>
        have written := persistBecomes m put.sound put.record open_.1 (by simp [transport])
          (.inr (.inr rfl) : _ ∨ _ ∨ true = true)
        rw [written.record] at found
        split at found
        · cases found
        · cases found
          cases unwritten

theorem recordingOf (inv : Inv c run) (stepped : step c run e = some next) : Recording run e next := by
  have after := (inv.step stepped).1
  constructor
  · rintro m id rfl finished
    obtain ⟨-,⟨⟩⟩ := Option.ite_none_right_eq_some.mp stepped
    have disarmed := @graceDisarms c id m run.recorder inv.sound
    have phase := after.phase id
    rw [At] at phase
    rw [persisted]
    generalize (graceElapsed m run.recorder id).records.get id = r at phase disarmed
    generalize writesOf id (graceElapsed m run.recorder id).enqueued = writes at phase
    generalize persistsOf id (graceElapsed m run.recorder id).persists = persists at phase ⊢
    cases phase with
    | absent _ unfinished => simp [notes,finished] at unfinished
    | left _ _ unfinished => simp [notes,finished] at unfinished
    | live live =>
      have armed := (live.waits (by simpa [notes] using finished)).2
      rw [disarmed rfl live.unwritten] at armed
      cases armed
    | _ => rfl
  · intro id record found unwritten gone
    obtain ⟨live,-,-⟩ := liveOf found unwritten (inv.phase id)
    have begun : id ∈ run.begun := by simpa [notes] using live.begun
    have stays : id ∉ run.left := by simpa [notes] using live.stays
    have phase := after.phase id
    rw [At,gone] at phase
    rw [persisted]
    generalize writesOf id next.recorder.enqueued = writes at phase
    generalize persistsOf id next.recorder.persists = persists at phase ⊢
    cases phase with
    | absent unbegun => simp [notes,(stepNotes stepped).1 id begun] at unbegun
    | left _ left =>
      rcases (stepNotes stepped).2 with rfl | same
      · refine .inr ⟨rfl,?_⟩
        simp only [step,Option.ite_none_right_eq_some] at stepped
        cases over_ : (run.notes id).finished with
        | false =>
          rw [live.finished] at over_
          simpa using over_
        | true =>
          have unsettled := (live.waits over_).1
          simp only [notes,decide_eq_true_eq] at over_
          simp [notes,stepped.1 id over_] at unsettled
      · simp [notes,same,stays] at left
    | _ => exact .inl rfl
  · rintro rfl
    obtain ⟨premise,⟨⟩⟩ := Option.ite_none_right_eq_some.mp stepped
    refine ⟨rfl,fun id finished => ?_⟩
    have same : (dispose run.recorder).persists = run.recorder.persists := by
      rw [dispose]
      split <;> rfl
    rw [persisted]
    rw [same]
    exact (recordedOf inv).settled id finished (premise id finished)

/-- In every run the rows and the bytes are right, and each step keeps them so. -/
theorem requestsRecorded (c : RequestRecorderConfig) (run : Run) (reach : (runs c).Reachable run) :
    Recorded c run ∧ ∀ e next, (runs c).step run e = some next → Recording run e next :=
  ⟨recordedOf (reachableInv reach),fun _ _ stepped => recordingOf (reachableInv reach) stepped⟩

def idle : Moment := ⟨0,true,fun _ => true,fun _ => true,fun _ => true⟩

def full : Moment := ⟨0,true,fun _ => false,fun _ => true,fun _ => true⟩

def small : RequestRecorderConfig := ⟨10,2,1000,100,8,4⟩

def served : List Event :=
  [.begin idle ⟨"r",some 6⟩,.captureResponseChunk idle "r" 9,.finishTransport idle "r" .success,.markUsageUnavailable idle "r"]

theorem oneRow : ∃ run, (runs small).run start served = some run ∧ (run.persisted "r").length = 1 ∧ Recorded small run :=
  ⟨_,rfl,by decide +kernel,(requestsRecorded small _ (Machine.runReachable served rfl rfl)).1⟩

/-- A shutdown removes the record of an open request, whose row is never written. -/
theorem openRequestDropped : ∃ run next, (runs small).Reachable run ∧ (runs small).step run .dispose = some next ∧
    (run.recorder.records.get "r").any (fun record => !record.persisted) = true ∧ next.recorder.records.get "r" = none ∧
      next.persisted "r" = [] :=
  ⟨_,_,Machine.runReachable [.begin idle ⟨"r",some 6⟩] rfl rfl,rfl,by decide +kernel,by decide +kernel,by decide +kernel⟩

def Write.settles : Write → Bool
  | .row _ => false
  | _ => true

def settlings (run : Run) (id : String) : List (Write × Bool) := (run.writes id).filter (fun write => Write.settles write.1 && write.2)

structure Settled (run : Run) : Prop where
  once : ∀ id row accepted, (.row row,accepted) ∈ run.writes id → row.usageSource = none →
    (run.settlings id).length = if (run.recorder.records.get id).isSome then 0 else 1
  ordered : ∀ id row accepted, (.row row,accepted) ∈ run.writes id →
    ∃ rest, run.writes id = (.row row,accepted)::rest ∧ ∀ write ∈ rest, Write.settles write.1 = true
  truthful : ∀ id, (.settlement .none,true) ∈ run.writes id → id ∉ run.taken
  held : ∀ id record, run.recorder.records.get id = some record → record.pendingPatch.isSome → id ∈ run.taken
  retained : ∀ id write, (write,false) ∈ run.writes id → Write.settles write = true → run.settlings id = [] →
    ∃ record, run.recorder.records.get id = some record ∧ record.settlementPending = true
  -- One for each row that was refused, and one for each request of which a settlement ever was.
  dropped : run.recorder.metadataDropped =
    (run.begun.map (fun id => ((run.writes id).any refusedRow).toNat + ((run.writes id).any refusedSettlement).toNat)).sum
  snapshot : ∀ id row accepted, (.row row,accepted) ∈ run.writes id → ∃ record, run.persisted id = [record] ∧ row = requestRow record

structure Settling (run : Run) (e : Event) (next : Run) : Prop where
  grows : run.recorder.enqueued <+: next.recorder.enqueued
  retained : ∀ id record, run.recorder.records.get id = some record → record.settlementPending = true →
    (∃ left, next.recorder.records.get id = some left ∧ left.settlementPending = true ∧
      left.pendingPatch.map (buildUsagePatch left) = record.pendingPatch.map (buildUsagePatch record)) ∨
        (next.settlings id).length = 1
  summaries : ∀ m id summary record, e = .attachUsageSummary m id summary → run.recorder.records.get id = some record →
    record.settlementPending = true → next.recorder = run.recorder

theorem requestRowSource {row : InternalRecord} : (requestRow row).usageSource = none ↔ row.usage = none ∧ row.usageWaived = false := by
  obtain ⟨_,_,_,_,_,usage,_,waived,_⟩ := row
  cases usage with
  | none => cases waived <;> simp [requestRow,deriveUsageSource]
  | some summary =>
    simp only [requestRow,deriveUsageSource]
    split
    · split <;> simp
    · simp
variable {persists : List InternalRecord} {accepted : Bool} {row : SaveRequestData} {writes : List (Write × Bool)}
  {r : Option InternalRecord} {n : Notes} {write : Write} {count : Nat}

theorem memRetries {write other : Write × Bool}
    (here : other ∈ (.row row,accepted)::List.replicate count write) : other = (.row row,accepted) ∨ other = write := by
  rcases List.mem_cons.mp here with same | later
  · exact .inl same
  · exact .inr (List.eq_of_mem_replicate later)

theorem memSettled {write other last : Write × Bool}
    (here : other ∈ (.row row,accepted)::List.replicate count write ++ [last]) :
    other = (.row row,accepted) ∨ other = write ∨ other = last := by
  rcases List.mem_append.mp here with before | after
  · rcases memRetries before with same | same
    · exact .inl same
    · exact .inr (.inl same)
  · exact .inr (.inr (List.mem_singleton.mp after))

theorem settlingsNone :
    ((.row row,accepted)::List.replicate count (write,false)).filter (fun write => Write.settles write.1 && write.2) = [] := by
  rw [List.filter_eq_nil_iff]
  intro other here
  rcases memRetries here with rfl | rfl
  · simp [Write.settles]
  · simp

theorem settlingsOne (settles : Write.settles write = true) :
    ((.row row,accepted)::List.replicate count (write,false) ++ [(write,true)]).filter
      (fun write => Write.settles write.1 && write.2) = [(write,true)] := by
  rw [List.filter_append,settlingsNone]
  simp [settles]

def retry : Write → Option UsagePatchWrite
  | .patch patch => some patch
  | _ => none

theorem phaseRetry (phase : Phase n r writes persists) (second : writes[1]? = some (write,false)) :
    (∃ record, r = some record ∧ record.settlementPending = true ∧ record.pendingPatch.map (buildUsagePatch record) = retry write) ∨
      (writes.filter (fun write => Write.settles write.1 && write.2)).length = 1 := by
  cases phase with
  | absent => simp at second
  | live => simp at second
  | left => simp at second
  | window => simp at second
  | complete => simp at second
  | owed retries kept owed unheld =>
    simp only [List.getElem?_cons_succ,List.replicate_succ,List.getElem?_cons_zero,Option.some.injEq,Prod.mk.injEq,and_true] at second
    subst second
    exact .inl ⟨_,rfl,owed,by simp [unheld,retry]⟩
  | held retries summary kept owed held =>
    simp only [List.getElem?_cons_succ,List.replicate_succ,List.getElem?_cons_zero,Option.some.injEq,Prod.mk.injEq,and_true] at second
    subst second
    exact .inl ⟨_,rfl,owed,by simp [held,retry]⟩
  | closed => exact .inr (by rw [settlingsOne rfl]; rfl)
  | patched => exact .inr (by rw [settlingsOne rfl]; rfl)

theorem retryOf {record : InternalRecord}
    (phase : Phase n (some record) writes persists) (owed : record.settlementPending = true) :
    ∃ write, writes[1]? = some (write,false) ∧ record.pendingPatch.map (buildUsagePatch record) = retry write := by
  cases phase with
  | live live => simp [live.unowed] at owed
  | window _ unowed => simp [unowed] at owed
  | owed retries kept owed unheld => exact ⟨.settlement .none,rfl,by simp [unheld,retry]⟩
  | held retries summary kept owed held => exact ⟨_,rfl,by simp [held,retry]⟩

structure PhaseSettled (n : Notes) (r : Option InternalRecord) (writes : List (Write × Bool)) (persists : List InternalRecord) : Prop where
  once : ∀ row accepted, (.row row,accepted) ∈ writes → row.usageSource = none →
    (writes.filter (fun write => Write.settles write.1 && write.2)).length = if r.isSome then 0 else 1
  ordered : ∀ row accepted, (.row row,accepted) ∈ writes →
    ∃ rest, writes = (.row row,accepted)::rest ∧ ∀ write ∈ rest, Write.settles write.1 = true
  truthful : (.settlement .none,true) ∈ writes → n.taken = false
  held : ∀ record, r = some record → record.pendingPatch.isSome → n.taken = true
  retained : ∀ write, (write,false) ∈ writes → Write.settles write = true →
    writes.filter (fun write => Write.settles write.1 && write.2) = [] → ∃ record, r = some record ∧ record.settlementPending = true
  snapshot : ∀ row accepted, (.row row,accepted) ∈ writes → ∃ record, persists = [record] ∧ row = requestRow record

theorem unwrittenSettled
    (held : ∀ record, r = some record → record.pendingPatch.isSome → n.taken = true) : PhaseSettled n r [] persists where
  once _ _ here := by cases here
  ordered _ _ here := by cases here
  truthful here := by cases here
  held := held
  retained _ here := by cases here
  snapshot _ _ here := by cases here

theorem waitingSettled {row record : InternalRecord} (count : Nat)
    (settles : Write.settles write = true) (owed : 0 < count → record.settlementPending = true)
    (held : record.pendingPatch.isSome → n.taken = true) :
    PhaseSettled n (some record) ((.row (requestRow row),accepted)::List.replicate count (write,false)) [row] := by
  have row_ : ∀ {other a}, ((.row other,a) : Write × Bool) ∈ (.row (requestRow row),accepted)::List.replicate count (write,false) →
      other = requestRow row ∧ a = accepted := by
    intro other a here
    rcases memRetries here with same | same
    · simpa using same
    · cases same
      cases settles
  constructor
  · intro other a here source
    rw [settlingsNone]
    rfl
  · intro other a here
    obtain ⟨rfl,rfl⟩ := row_ here
    exact ⟨_,rfl,fun w its => by rw [List.eq_of_mem_replicate its]; exact settles⟩
  · intro here
    rcases memRetries here with same | same <;> cases same
  · intro other same
    cases same
    exact held
  · intro w here its none_
    refine ⟨record,rfl,owed ?_⟩
    cases count with
    | succ count => exact Nat.succ_pos count
    | zero =>
      obtain rfl : w = .row (requestRow row) := by simpa using congrArg Prod.fst (List.mem_singleton.mp here)
      cases its
  · intro other a here
    exact ⟨row,rfl,(row_ here).1⟩

theorem doneSettled {row : InternalRecord} (count : Nat)
    (settles : Write.settles write = true) (untaken : write = .settlement .none → n.taken = false) :
    PhaseSettled n none ((.row (requestRow row),accepted)::List.replicate count (write,false) ++ [(write,true)]) [row] := by
  have row_ : ∀ {other a}, ((.row other,a) : Write × Bool) ∈
      (.row (requestRow row),accepted)::List.replicate count (write,false) ++ [(write,true)] → other = requestRow row ∧ a = accepted := by
    intro other a here
    rcases memSettled here with same | same | same
    · simpa using same
    · cases same
      cases settles
    · cases same
      cases settles
  constructor
  · intro other a here source
    rw [settlingsOne settles]
    rfl
  · intro other a here
    obtain ⟨rfl,rfl⟩ := row_ here
    refine ⟨List.replicate count (write,false) ++ [(write,true)],rfl,fun w its => ?_⟩
    rcases List.mem_append.mp its with before | after
    · rw [List.eq_of_mem_replicate before]
      exact settles
    · rw [List.mem_singleton.mp after]
      exact settles
  · intro here
    rcases memSettled here with same | same | same
    · cases same
    · cases same
    · cases same
      exact untaken rfl
  · intro other same
    cases same
  · intro w here its none_
    rw [settlingsOne settles] at none_
    cases none_
  · intro other a here
    exact ⟨row,rfl,(row_ here).1⟩

theorem completeSettled {row : InternalRecord} (settled : (row.usage.isSome || row.usageWaived) = true) :
    PhaseSettled n none [(.row (requestRow row),accepted)] [row] := by
  have only : ∀ {other}, other ∈ [((.row (requestRow row),accepted) : Write × Bool)] → other = (.row (requestRow row),accepted) :=
    List.mem_singleton.mp
  constructor
  · intro other a here source
    cases only here
    rw [requestRowSource] at source
    simp [source.1,source.2] at settled
  · intro other a here
    cases only here
    exact ⟨[],rfl,fun w its => by cases its⟩
  · intro here
    cases only here
  · intro other same
    cases same
  · intro w here its
    cases only here
    cases its
  · intro other a here
    cases only here
    exact ⟨row,rfl,rfl⟩

theorem phaseSettled (phase : Phase n r writes persists) : PhaseSettled n r writes persists := by
  cases phase with
  | absent => exact unwrittenSettled fun record same => by cases same
  | left => exact unwrittenSettled fun record same => by cases same
  | live live => exact unwrittenSettled fun record same its => by cases same; simp [live.unheld] at its
  | @window row record accepted kept unowed unheld =>
    have waiting := @waitingSettled accepted n (.settlement .none) row record 0 rfl (fun its => absurd its (Nat.lt_irrefl 0))
      fun its => by simp [unheld] at its
    exact waiting
  | owed retries kept owed unheld => exact waitingSettled (retries + 1) rfl (fun _ => owed) fun its => by simp [unheld] at its
  | held retries summary kept owed held disarmed taken => exact waitingSettled (retries + 1) rfl (fun _ => owed) fun _ => taken
  | closed retries written usage waived untaken => exact doneSettled retries rfl fun _ => untaken
  | patched retries patch written usage waived taken => exact doneSettled retries rfl fun same => by cases same
  | complete written settled taken => exact completeSettled settled

theorem settledOf (inv : Inv c run) : Settled run where
  once id := (phaseSettled (inv.phase id)).once
  ordered id := (phaseSettled (inv.phase id)).ordered
  truthful id here := by simpa [notes] using (phaseSettled (inv.phase id)).truthful here
  held id record found its := by simpa [notes] using (phaseSettled (inv.phase id)).held record found its
  retained id := (phaseSettled (inv.phase id)).retained
  dropped := inv.dropped
  snapshot id := (phaseSettled (inv.phase id)).snapshot

theorem settlingOf (inv : Inv c run) (stepped : step c run e = some next) : Settling run e next := by
  obtain ⟨after,grows⟩ := inv.step stepped
  constructor
  · exact grows
  · intro id record found owed
    have phase := inv.phase id
    rw [At,found] at phase
    obtain ⟨write,second,same⟩ := retryOf phase owed
    rw [same]
    obtain ⟨more,added⟩ := grows
    have second' : (writesOf id next.recorder.enqueued)[1]? = some (write,false) := by
      rw [← added,writesOfAppend]
      rw [List.getElem?_append_left (List.getElem?_eq_some_iff.mp second).1]
      exact second
    exact phaseRetry (after.phase id) second'
  · rintro m id summary record rfl found owed
    cases stepped
    rw [attachUsageSummary,found]
    dsimp only
    rw [owed,if_pos rfl]

/-- In every run a row's usage column is settled once and truthfully, and each step keeps it so. -/
theorem usageSettled (c : RequestRecorderConfig) (run : Run) (reach : (runs c).Reachable run) :
    Settled run ∧ ∀ e next, (runs c).step run e = some next → Settling run e next :=
  ⟨settledOf (reachableInv reach),fun _ _ stepped => settlingOf (reachableInv reach) stepped⟩

def refused : List Event :=
  [.begin idle ⟨"r",none⟩,.finishTransport idle "r" .success,.graceElapsed idle "r",.patchWindowShut full "r",.sweep full,
    .markUsageUnavailable idle "r",.dispose]

theorem oneSettlement : ∃ run, (runs small).run start refused = some run ∧ run.recorder.metadataDropped = 1 ∧
    (run.settlings "r").length = 1 ∧ Settled run :=
  ⟨_,rfl,by decide +kernel,by decide +kernel,(usageSettled small _ (Machine.runReachable refused rfl rfl)).1⟩

end Run
end Clankermux.RequestRecorder
