import Clankermux.RequestRecorderPhases

/-! Runs of the request recorder: every order of its entry points, its timers and its sweeps,
with any answers of its collaborators. -/
namespace Clankermux.RequestRecorder

inductive Event where
  | begin (m : Moment) (recordMeta : RecordMeta)
  | captureResponseChunk (m : Moment) (requestId : String) (byteLength : Nat)
  | finishTransport (m : Moment) (requestId : String) (outcome : TransportOutcome)
  | attachUsageSummary (m : Moment) (requestId : String) (summary : SlimUsageSummary)
  | markUsageUnavailable (m : Moment) (requestId : String)
  | graceElapsed (m : Moment) (requestId : String)
  | patchWindowShut (m : Moment) (requestId : String)
  | sweep (m : Moment)
  | dispose

/-- The recorder beside what has happened to the requests so far. `taken` are the requests a
summary of which the recorder took; `left` are those whose transport was open at a dispose. -/
structure Run where
  recorder : RequestRecorder
  begun : List String
  finished : List String
  settled : List String
  taken : List String
  left : List String

namespace Run

def start : Run := ⟨RequestRecorder.start,[],[],[],[],[]⟩

def notes (run : Run) (id : String) : Notes where
  begun := decide (id ∈ run.begun)
  finished := decide (id ∈ run.finished)
  settled := decide (id ∈ run.settled)
  taken := decide (id ∈ run.taken)
  left := decide (id ∈ run.left)

def unwritten (s : RequestRecorder) : List String :=
  (s.records.filter (fun entry => !entry.2.persisted)).map (·.1)

@[grind] def step (c : RequestRecorderConfig) (run : Run) : Event → Option Run
  | .begin m recordMeta =>
    if recordMeta.requestId ∈ run.begun then none
    else some
      { run with
        recorder := begin c m run.recorder recordMeta
        begun := run.begun ++ [recordMeta.requestId] }
  | .captureResponseChunk m requestId byteLength =>
    some { run with recorder := captureResponseChunk c m run.recorder requestId byteLength }
  | .finishTransport m requestId outcome =>
    some
      { run with
        recorder := finishTransport m run.recorder requestId outcome
        finished := if requestId ∈ run.begun ∧ requestId ∉ run.left then requestId::run.finished else run.finished }
  | .attachUsageSummary m requestId summary =>
    some
      { run with
        recorder := attachUsageSummary m run.recorder requestId summary
        settled := if requestId ∈ run.begun then requestId::run.settled else run.settled
        taken := if takes run.recorder requestId then requestId::run.taken else run.taken }
  | .markUsageUnavailable m requestId =>
    some
      { run with
        recorder := markUsageUnavailable m run.recorder requestId
        settled := if requestId ∈ run.begun then requestId::run.settled else run.settled }
  | .graceElapsed m requestId =>
    if (run.recorder.records.get requestId).any (·.graceTimer)
    then some { run with recorder := graceElapsed m run.recorder requestId } else none
  | .patchWindowShut m requestId =>
    if (run.recorder.records.get requestId).any (·.patchTimer)
    then some { run with recorder := patchWindowShut m run.recorder requestId } else none
  | .sweep m => some { run with recorder := sweep c m run.recorder }
  | .dispose =>
    if ∀ id ∈ run.finished, id ∈ run.settled
    then some
      { run with
        recorder := dispose run.recorder
        left := run.left ++ unwritten run.recorder }
    else none

def runs (c : RequestRecorderConfig) : Machine Run Event where
  init := (· = start)
  step := step c

structure Inv (c : RequestRecorderConfig) (run : Run) : Prop where
  sound : Sound c.captureBytesBudget run.recorder
  phase : ∀ id, At (run.notes id) id run.recorder
  begun : run.begun.Nodup
  dropped : run.recorder.metadataDropped = (run.begun.map (fun id => droppedOf (writesOf id run.recorder.enqueued))).sum

variable {c : RequestRecorderConfig} {m : Moment} {run run' : Run} {id : String} {s t : RequestRecorder}

theorem startInv : Inv c start where
  sound := ⟨List.nodup_nil,nofun,rfl,Nat.zero_le _⟩
  phase _ := .absent rfl rfl rfl rfl rfl
  begun := List.nodup_nil
  dropped := rfl

theorem sumChange {l : List String} {f g : String → Nat} (nodup : l.Nodup) (member : id ∈ l) (same : ∀ other, other ≠ id → g other = f other) :
    (l.map g).sum + f id = (l.map f).sum + g id := by
  induction l with
  | nil => cases member
  | cons head rest ih =>
    obtain ⟨fresh,nodup⟩ := List.nodup_cons.mp nodup
    simp only [List.map_cons,List.sum_cons]
    rcases List.mem_cons.mp member with rfl | later
    · have others : rest.map g = rest.map f := List.map_congr_left fun other its => same other fun equal => fresh (equal ▸ its)
      rw [others]
      omega
    · have apart : g head = f head := same head fun equal => fresh (equal ▸ later)
      have tail := ih nodup later
      omega

theorem unknown {n : Notes} (phase : At n id s) (unbegun : n.begun = false) : s.records.get id = none ∧
    n = ⟨false,false,false,false,false⟩ ∧ writesOf id s.enqueued = [] ∧ persistsOf id s.persists = [] := by
  rw [At] at phase
  generalize s.records.get id = r at phase ⊢
  generalize writesOf id s.enqueued = writes at phase ⊢
  generalize persistsOf id s.persists = persists at phase ⊢
  cases phase with
  | absent begun finished settled taken stays =>
    obtain ⟨b,f,e,t,l⟩ := n
    obtain ⟨rfl,rfl,rfl,rfl,rfl⟩ : b = false ∧ f = false ∧ e = false ∧ t = false ∧ l = false := ⟨begun,finished,settled,taken,stays⟩
    exact ⟨rfl,rfl,rfl,rfl⟩
  | live live => simp [live.begun] at unbegun
  | left begun => simp [begun] at unbegun
  | window kept => simp [kept.begun] at unbegun
  | owed _ kept => simp [kept.begun] at unbegun
  | held _ _ kept => simp [kept.begun] at unbegun
  | complete written => simp [written.begun] at unbegun
  | closed _ written => simp [written.begun] at unbegun
  | patched _ _ written => simp [written.begun] at unbegun

theorem Inv.handled (inv : Inv c run) {n : Notes} (handled : Handled c.captureBytesBudget n id run.recorder run'.recorder)
    (own : run'.notes id = n) (others : ∀ other, other ≠ id → run'.notes other = run.notes other) (begun : run'.begun = run.begun) :
    Inv c run' := by
  obtain ⟨record,writes,persists,dropped,becomes,phase,drops⟩ := handled.becomes
  constructor
  · exact becomes.sound
  · intro other
    by_cases same : other = id
    · subst same
      rw [own]
      exact handled.at
    · obtain ⟨records,writes,persists⟩ := becomes.others other same
      rw [others other same,At,records,writes,persists]
      exact inv.phase other
  · rw [begun]
    exact inv.begun
  · rw [begun]
    have before := inv.dropped
    have after := becomes.dropped
    by_cases member : id ∈ run.begun
    · have change := @sumChange id run.begun (fun id => droppedOf (writesOf id run.recorder.enqueued))
        (fun id => droppedOf (writesOf id run'.recorder.enqueued)) inv.begun member
        (fun other ne => congrArg droppedOf (becomes.others other ne).2.1)
      omega
    · have unbegun : n.begun = false := by
        rw [← own]
        simpa [notes,begun] using member
      have none_ : writesOf id run'.recorder.enqueued = [] := (unknown handled.at unbegun).2.2.1
      rw [none_,droppedOfNil] at drops
      have same : run.begun.map (fun id => droppedOf (writesOf id run'.recorder.enqueued)) =
          run.begun.map (fun id => droppedOf (writesOf id run.recorder.enqueued)) :=
        List.map_congr_left fun other its => congrArg droppedOf (becomes.others other (fun equal => member (equal ▸ its))).2.1
      rw [same]
      omega

theorem Inv.worked (inv : Inv c run) (handled : Handled c.captureBytesBudget (run.notes id) id run.recorder t) :
    Inv c { run with recorder := t } := @Inv.handled c run { run with recorder := t } id inv _ handled rfl (fun _ _ => rfl) rfl

theorem Inv.leads (inv : Inv c run) {n : Notes} (handled : Handled c.captureBytesBudget n id run.recorder run'.recorder)
    (own : run'.notes id = n) (others : ∀ other, other ≠ id → run'.notes other = run.notes other) (begun : run'.begun = run.begun) :
    Inv c run' ∧ run.recorder.enqueued <+: run'.recorder.enqueued := ⟨inv.handled handled own others begun,handled.grows⟩

theorem Inv.works (inv : Inv c run) (handled : Handled c.captureBytesBudget (run.notes id) id run.recorder t) :
    Inv c { run with recorder := t } ∧ run.recorder.enqueued <+: t.enqueued := ⟨inv.worked handled,handled.grows⟩

theorem Inv.evict (m : Moment) (ids : List String) (excess removed : Nat) (inv : Inv c run) :
    Inv c { run with recorder := RequestRecorder.evict m ids excess removed run.recorder } ∧
      run.recorder.enqueued <+: (RequestRecorder.evict m ids excess removed run.recorder).enqueued := by
  induction ids generalizing run excess removed with
  | nil => exact ⟨inv,List.prefix_rfl⟩
  | cons id rest ih =>
    have through : ∀ {t} excess removed, Handled c.captureBytesBudget (run.notes id) id run.recorder t →
        Inv c { run with recorder := RequestRecorder.evict m rest excess removed t } ∧
          run.recorder.enqueued <+: (RequestRecorder.evict m rest excess removed t).enqueued := fun excess removed handled =>
      ⟨(ih excess removed (inv.worked handled)).1,handled.grows.trans (ih excess removed (inv.worked handled)).2⟩
    rw [RequestRecorder.evict]
    split
    · exact ⟨inv,List.prefix_rfl⟩
    · cases found : run.recorder.records.get id with
      | none => exact ih excess removed inv
      | some record =>
        have own := inv.sound.keyed found
        dsimp only
        split
        · exact ih excess removed inv
        · cases persisted : record.persisted with
          | true =>
            have closed := closeHandled m inv.sound found persisted (inv.phase id)
            generalize closeUnresolvedUsageSource m run.recorder record = out at closed ⊢
            obtain ⟨drop,left⟩ := out
            cases drop with
            | true => exact through excess (removed + 1) closed
            | false => exact through (excess - 1) removed closed
          | false =>
            rw [if_neg Bool.false_ne_true]
            split
            · obtain ⟨live,-,-⟩ := liveOf found persisted (inv.phase id)
              have live' : Live (run.notes id) { record.released with bodyDiscarded := true } :=
                { live with unwritten := persisted }
              have freed := becomesFreed inv.sound found
              have put := becomesPutSame { record.released with bodyDiscarded := true } freed.sound freed.record own rfl
              exact through excess removed (liveHandled found persisted (inv.phase id) (freed.next put) live')
            · exact ih excess removed inv

theorem Inv.sweepAll (m : Moment) (overBudget : Bool) (ids : List String) (inv : Inv c run) :
    Inv c { run with recorder := ids.foldl (sweepOne c m overBudget) run.recorder } ∧
      run.recorder.enqueued <+: (ids.foldl (sweepOne c m overBudget) run.recorder).enqueued := by
  induction ids generalizing run with
  | nil => exact ⟨inv,List.prefix_rfl⟩
  | cons id rest ih =>
    have handled := sweepHandled c m overBudget inv.sound (inv.phase id)
    have next := ih (inv.worked handled)
    exact ⟨next.1,handled.grows.trans next.2⟩

theorem Inv.opened (inv : Inv c run) {record : InternalRecord} {charged : Nat} (fresh : record.recordMeta.requestId ∉ run.begun)
    (open_ : record.persisted = false ∧ record.settlementPending = false ∧ record.pendingPatch = none ∧ record.transport = none ∧
      record.usage = none ∧ record.usageWaived = false ∧ record.patchTimer = false) (bytes : record.chargedBytes = charged)
    (fits : run.recorder.capturedBytesPending + charged ≤ c.captureBytesBudget) :
    Inv c
      { run with
        recorder := { run.recorder with capturedBytesPending := run.recorder.capturedBytesPending + charged }.put record
        begun := run.begun ++ [record.recordMeta.requestId] } := by
  obtain ⟨absent,notes,writes,persists⟩ := unknown (inv.phase record.recordMeta.requestId) (by simpa [Run.notes] using fresh)
  have becomes := becomesCharged record inv.sound rfl _ (by rw [absent,bytes]; rfl) fits
  simp only [Run.notes,Notes.mk.injEq] at notes
  constructor
  · exact becomes.sound
  · intro other
    by_cases same : other = record.recordMeta.requestId
    · subst same
      rw [At,becomes.record,becomes.writes,becomes.persists,writes,persists]
      obtain ⟨-,unfinished,unsettled,untaken,stays⟩ := notes
      obtain ⟨unwritten,unowed,unheld,transport,usage,waived,disarmed⟩ := open_
      exact .live ⟨by simp [Run.notes],by simp [Run.notes,stays],unwritten,unowed,unheld,by simp [Run.notes,unfinished,transport],
        by simp [Run.notes,unsettled,usage,waived],by simp [Run.notes,untaken,usage],by simp [Run.notes,unfinished],disarmed⟩
    · obtain ⟨records,writes,persists⟩ := becomes.others other same
      have still : Run.notes { run with begun := run.begun ++ [record.recordMeta.requestId] } other = run.notes other := by
        simp [Run.notes,same]
      have before := inv.phase other
      rw [← still] at before
      rw [At,records,writes,persists]
      exact before
  · exact List.nodup_append.mpr ⟨inv.begun,by simp,fun a here b its => by
      rw [List.mem_singleton.mp its]
      exact fun same => fresh (same ▸ here)⟩
  · have none_ : droppedOf (writesOf record.recordMeta.requestId run.recorder.enqueued) = 0 := by rw [writes]; rfl
    simpa [put,none_] using inv.dropped

theorem Inv.begin (m : Moment) (recordMeta : RecordMeta) (inv : Inv c run) (fresh : recordMeta.requestId ∉ run.begun) :
    Inv c
      { run with
        recorder := RequestRecorder.begin c m run.recorder recordMeta
        begun := run.begun ++ [recordMeta.requestId] } ∧
      run.recorder.enqueued <+: (RequestRecorder.begin c m run.recorder recordMeta).enqueued := by
  obtain ⟨absent,-⟩ := unknown (inv.phase recordMeta.requestId) (by simpa [Run.notes] using fresh)
  rw [RequestRecorder.begin,absent,if_neg (by simp)]
  refine Inv.evict m _ _ _ (Inv.opened inv fresh ⟨rfl,rfl,rfl,rfl,rfl,rfl,rfl⟩ rfl ?_)
  split
  · next fits =>
    simp only [Bool.and_eq_true,decide_eq_true_eq] at fits
    exact fits.2
  · exact inv.sound.within

theorem Inv.captured (m : Moment) (requestId : String) (byteLength : Nat) (inv : Inv c run) :
    Inv c { run with recorder := captureResponseChunk c m run.recorder requestId byteLength } ∧
      run.recorder.enqueued <+: (captureResponseChunk c m run.recorder requestId byteLength).enqueued := by
  cases found : run.recorder.records.get requestId with
  | none =>
    rw [captureResponseChunk,found]
    exact ⟨inv,List.prefix_rfl⟩
  | some record =>
    have own := inv.sound.keyed found
    rw [captureResponseChunk,found]
    dsimp only
    split
    · exact ⟨inv,List.prefix_rfl⟩
    · next takes =>
      simp only [Bool.or_eq_true,not_or,Bool.not_eq_true] at takes
      split
      · exact ⟨inv,List.prefix_rfl⟩
      · next fits =>
        simp only [Bool.or_eq_true,decide_eq_true_eq,not_or,not_lt] at fits
        obtain ⟨live,-,-⟩ := liveOf found takes.1.1 (inv.phase requestId)
        generalize min (c.maxResponseBodyBytes - record.respBytes) byteLength = take at fits ⊢
        have becomes := becomesCharged
          { record with
            respBytes := record.respBytes + take
            chargedBytes := record.chargedBytes + take } inv.sound own (run.recorder.capturedBytesPending + take) (by simp [found]; omega) fits.2
        exact inv.works (liveHandled found takes.1.1 (inv.phase requestId) becomes
          { live with })

def batchOf (record : InternalRecord) : List (Write × Bool) :=
  match record.pendingPatch with
  | some summary => [(.patch (buildUsagePatch record summary),true)]
  | none => if needsUsageSourceSettlement record then [(.settlement .none,true)] else []

theorem memUnwritten (nodup : s.records.keys.Nodup) :
    id ∈ unwritten s ↔ ∃ record, s.records.get id = some record ∧ record.persisted = false := by
  simp only [unwritten,List.mem_map,List.mem_filter,Bool.not_eq_true']
  constructor
  · rintro ⟨⟨key,record⟩,⟨here,fresh⟩,rfl⟩
    exact ⟨record,InsertionMap.getOfMem nodup here,fresh⟩
  · rintro ⟨record,found,fresh⟩
    exact ⟨(id,record),⟨InsertionMap.memOfGet found,fresh⟩,rfl⟩

theorem taggedOf {records : InsertionMap String InternalRecord} {β : Type} (f : String × InternalRecord → List β) (tag : β → Bool)
    (nodup : records.keys.Nodup) (tagged : ∀ entry ∈ records, ∀ b ∈ f entry, tag b = decide (entry.1 = id)) :
    (records.flatMap f).filter tag = ((records.get id).map (fun record => f (id,record))).getD [] := by
  induction records with
  | nil => rfl
  | cons entry rest ih =>
    obtain ⟨key,record⟩ := entry
    obtain ⟨fresh,nodup⟩ := List.nodup_cons.mp nodup
    have tail := ih nodup fun entry here => tagged entry (.tail _ here)
    have head := tagged (key,record) (.head _)
    rw [List.flatMap_cons,List.filter_append,tail]
    by_cases same : key = id
    · subst same
      have absent : InsertionMap.get rest key = none := by
        cases found : InsertionMap.get rest key with
        | none => rfl
        | some other => exact absurd (InsertionMap.memKeysOfGet found) fresh
      rw [List.filter_eq_self.mpr fun b here => by simpa using head b here]
      simp [InsertionMap.get,absent]
    · rw [List.filter_eq_nil_iff.mpr fun b here => by simp [head b here,same]]
      simp [InsertionMap.get,same]

theorem batchWrites (sound : Sound c.captureBytesBudget s) :
    writesOf id (dispose s).enqueued = writesOf id s.enqueued ++ ((s.records.get id).map batchOf).getD [] := by
  have keyed : ∀ entry ∈ s.records, entry.2.recordMeta.requestId = entry.1 := fun entry here =>
    sound.keyed (InsertionMap.getOfMem sound.nodup here)
  have held := @taggedOf id s.records _ (fun entry => (entry.2.pendingPatch.map (buildUsagePatch entry.2)).toList)
    (fun patch => patch.requestId == id) sound.nodup (by
      intro entry here patch its
      obtain ⟨summary,-,rfl⟩ := Option.map_eq_some_iff.mp (Option.mem_toList.mp its)
      rw [buildUsagePatch,keyed entry here]
      rfl)
  have unsettled := @taggedOf id s.records _
    (fun entry => if entry.2.pendingPatch.isNone && needsUsageSourceSettlement entry.2 then [entry.2.recordMeta.requestId] else [])
    (fun requestId => requestId == id) sound.nodup (by
      intro entry here requestId its
      split at its
      · rw [List.mem_singleton.mp its,keyed entry here]
        rfl
      · cases its)
  have flat : ∀ records : List (String × InternalRecord),
      (records.filter (fun entry => entry.2.pendingPatch.isNone && needsUsageSourceSettlement entry.2)).map
        (fun entry => entry.2.recordMeta.requestId) =
      records.flatMap (fun entry => if entry.2.pendingPatch.isNone && needsUsageSourceSettlement entry.2
        then [entry.2.recordMeta.requestId] else []) := by
    intro records
    induction records with
    | nil => rfl
    | cons entry rest ih =>
      rw [List.filter_cons,List.flatMap_cons,← ih]
      split <;> rfl
  rw [← flat] at unsettled
  rw [← List.filterMap_eq_flatMap_toList] at held
  have offered : writesOf id (dispose s).enqueued = writesOf id s.enqueued ++ writesIn id
      (.shutdownBatch (s.records.filterMap (fun entry => entry.2.pendingPatch.map (buildUsagePatch entry.2)))
        ((s.records.filter (fun entry => entry.2.pendingPatch.isNone && needsUsageSourceSettlement entry.2)).map
          (fun entry => entry.2.recordMeta.requestId)),true) := by
    rw [dispose]
    split
    · next empty =>
      simp only [Bool.and_eq_true,List.isEmpty_iff] at empty
      rw [empty.1,empty.2]
      simp [writesIn,Job.writes]
    · simp [enqueue,writesOf]
  rw [offered]
  congr 1
  generalize s.records.filterMap (fun entry => entry.2.pendingPatch.map (buildUsagePatch entry.2)) = heldPatches at held ⊢
  generalize (s.records.filter (fun entry => entry.2.pendingPatch.isNone && needsUsageSourceSettlement entry.2)).map
    (fun entry => entry.2.recordMeta.requestId) = ids at unsettled ⊢
  simp only [writesIn,Job.writes,List.filter_append,List.filter_map,Function.comp_def,held,unsettled]
  cases found : s.records.get id with
  | none => rfl
  | some record =>
    have own := sound.keyed found
    simp only [Option.map_some,batchOf]
    cases record.pendingPatch with
    | some summary => simp
    | none =>
      cases needsUsageSourceSettlement record with
      | true => simp
      | false => simp

theorem Inv.disposed (inv : Inv c run) (premise : ∀ id ∈ run.finished, id ∈ run.settled) :
    Inv c
      { run with
        recorder := dispose run.recorder
        left := run.left ++ unwritten run.recorder } := by
  have persists : (dispose run.recorder).persists = run.recorder.persists := by
    rw [dispose]
    split <;> rfl
  have dropped : (dispose run.recorder).metadataDropped = run.recorder.metadataDropped := by
    rw [dispose]
    split <;> rfl
  have each : ∀ id, droppedOf (writesOf id (dispose run.recorder).enqueued) = droppedOf (writesOf id run.recorder.enqueued) ∧
      Phase (Run.notes { run with left := run.left ++ unwritten run.recorder } id) none
        (writesOf id (dispose run.recorder).enqueued) (persistsOf id run.recorder.persists) := by
    intro id
    have phase := inv.phase id
    have notes : ∀ {left}, decide (id ∈ run.left ++ unwritten run.recorder) = left →
        Run.notes { run with left := run.left ++ unwritten run.recorder } id = { run.notes id with left := left } := by
      rintro left rfl
      rfl
    have stays : (∀ record, run.recorder.records.get id = some record → record.persisted = true) →
        Run.notes { run with left := run.left ++ unwritten run.recorder } id = run.notes id := by
      intro persisted
      refine notes ?_
      have absent : id ∉ unwritten run.recorder := by
        rw [memUnwritten inv.sound.nodup]
        rintro ⟨record,found,fresh⟩
        rw [persisted record found] at fresh
        cases fresh
      simp [absent]
    rw [batchWrites inv.sound]
    rw [At] at phase
    generalize found : run.recorder.records.get id = r at phase stays
    generalize writesOf id run.recorder.enqueued = writes at phase ⊢
    generalize persistsOf id run.recorder.persists = persists at phase ⊢
    have gone : r = none → writes ++ (r.map batchOf).getD [] = writes ∧
        Run.notes { run with left := run.left ++ unwritten run.recorder } id = run.notes id := by
      rintro rfl
      exact ⟨List.append_nil _,stays fun record same => by cases same⟩
    have kept : ∀ {row record}, Kept (run.notes id) row record → r = some record →
        Run.notes { run with left := run.left ++ unwritten run.recorder } id = run.notes id := by
      rintro row record kept rfl
      exact stays fun other same => by cases same; exact kept.persisted
    cases phase with
    | @live record live =>
      have quiet : batchOf record = [] := by simp [batchOf,live.unheld,needsUsageSourceSettlement,live.unwritten]
      have unfinished : (run.notes id).finished = false := by
        cases over_ : (run.notes id).finished with
        | false => rfl
        | true =>
          have unsettled := (live.waits over_).1
          rw [Run.notes,decide_eq_true_eq] at over_
          simp [Run.notes,premise id over_] at unsettled
      have left : id ∈ unwritten run.recorder := (memUnwritten inv.sound.nodup).mpr ⟨record,found,live.unwritten⟩
      rw [Option.map_some,Option.getD_some,quiet]
      exact ⟨rfl,.left live.begun (by simp [Run.notes,left]) unfinished⟩
    | @window row record accepted kept' unowed unheld untaken =>
      have batch : batchOf record = [(.settlement .none,true)] := by simp [batchOf,unheld,kept'.needs]
      rw [Option.map_some,Option.getD_some,batch,kept kept' rfl]
      exact ⟨droppedOfAppend rfl rfl,.closed 0 kept'.toWritten kept'.rowUsage kept'.rowWaived untaken⟩
    | @owed row record accepted retries kept' owed unheld untaken =>
      have batch : batchOf record = [(.settlement .none,true)] := by simp [batchOf,unheld,kept'.needs]
      rw [Option.map_some,Option.getD_some,batch,kept kept' rfl]
      exact ⟨droppedOfAppend rfl rfl,.closed (retries + 1) kept'.toWritten kept'.rowUsage kept'.rowWaived untaken⟩
    | @held row record accepted retries summary kept' owed held disarmed taken =>
      have batch : batchOf record = [(.patch (buildUsagePatch record summary),true)] := by simp [batchOf,held]
      rw [Option.map_some,Option.getD_some,batch,kept kept' rfl]
      exact ⟨droppedOfAppend rfl rfl,.patched (retries + 1) _ kept'.toWritten kept'.rowUsage kept'.rowWaived taken⟩
    | absent begun finished settled taken unleft =>
      rw [(gone rfl).1,(gone rfl).2]
      exact ⟨rfl,.absent begun finished settled taken unleft⟩
    | complete written settled taken =>
      rw [(gone rfl).1,(gone rfl).2]
      exact ⟨rfl,.complete written settled taken⟩
    | closed retries written usage waived untaken =>
      rw [(gone rfl).1,(gone rfl).2]
      exact ⟨rfl,.closed retries written usage waived untaken⟩
    | patched retries patch written usage waived taken =>
      rw [(gone rfl).1,(gone rfl).2]
      exact ⟨rfl,.patched retries patch written usage waived taken⟩
    | left begun left unfinished =>
      rw [(gone rfl).1,(gone rfl).2]
      exact ⟨rfl,.left begun left unfinished⟩
  constructor
  · exact ⟨List.nodup_nil,(fun found => by cases found),rfl,Nat.zero_le _⟩
  · intro id
    have phase := (each id).2
    rw [← persists] at phase
    exact phase
  · exact inv.begun
  · rw [dropped,inv.dropped]
    exact congrArg List.sum (List.map_congr_left fun id _ => (each id).1.symm)

theorem Inv.step {e : Event} (inv : Inv c run) (stepped : step c run e = some run') :
    Inv c run' ∧ run.recorder.enqueued <+: run'.recorder.enqueued := by
  cases e with
  | begin m recordMeta =>
    simp only [Run.step] at stepped
    split at stepped
    · cases stepped
    · next fresh =>
      cases stepped
      exact inv.begin m recordMeta fresh
  | captureResponseChunk m requestId byteLength =>
    cases stepped
    exact inv.captured m requestId byteLength
  | finishTransport m requestId outcome =>
    cases stepped
    refine @Inv.leads c run _ requestId inv (Run.notes
      { run with
        finished := if requestId ∈ run.begun ∧ requestId ∉ run.left then requestId::run.finished else run.finished } requestId)
      (finishHandled m inv.sound (inv.phase requestId) outcome rfl rfl rfl rfl ?_) rfl (fun other ne => ?_) rfl
    · by_cases begun : requestId ∈ run.begun <;> by_cases left : requestId ∈ run.left <;> simp [Run.notes,begun,left]
    · split <;> simp [Run.notes,ne]
  | attachUsageSummary m requestId summary =>
    cases stepped
    refine @Inv.leads c run _ requestId inv (Run.notes
      { run with
        settled := if requestId ∈ run.begun then requestId::run.settled else run.settled
        taken := if takes run.recorder requestId then requestId::run.taken else run.taken } requestId)
      (attachHandled m inv.sound (inv.phase requestId) summary rfl rfl rfl ?_ ?_) rfl (fun other ne => ?_) rfl
    · by_cases begun : requestId ∈ run.begun <;> simp [Run.notes,begun]
    · cases took : takes run.recorder requestId <;> simp [Run.notes]
    · split <;> split <;> simp [Run.notes,ne]
  | markUsageUnavailable m requestId =>
    cases stepped
    refine @Inv.leads c run _ requestId inv (Run.notes
      { run with settled := if requestId ∈ run.begun then requestId::run.settled else run.settled } requestId)
      (markHandled m inv.sound (inv.phase requestId) rfl rfl rfl ?_ rfl) rfl (fun other ne => ?_) rfl
    · by_cases begun : requestId ∈ run.begun <;> simp [Run.notes,begun]
    · split <;> simp [Run.notes,ne]
  | graceElapsed m requestId =>
    simp only [Run.step] at stepped
    split at stepped
    · cases stepped
      exact inv.works (graceHandled m inv.sound (inv.phase requestId))
    · cases stepped
  | patchWindowShut m requestId =>
    simp only [Run.step] at stepped
    split at stepped
    · next armed =>
      cases stepped
      refine inv.works (shutHandled m inv.sound (inv.phase requestId) fun record found => ?_)
      simpa [found] using armed
    · cases stepped
  | sweep m =>
    cases stepped
    exact inv.sweepAll m _ _
  | dispose =>
    simp only [Run.step] at stepped
    split at stepped
    · next premise =>
      cases stepped
      refine ⟨inv.disposed premise,?_⟩
      rw [dispose]
      split
      · exact List.prefix_rfl
      · exact List.prefix_append ..
    · cases stepped

theorem reachableInv (reach : (runs c).Reachable run) : Inv c run :=
  reach.invariant (fun s start => by cases start; exact startInv) fun _ _ _ inv stepped => (inv.step stepped).1

end Run
end Clankermux.RequestRecorder
