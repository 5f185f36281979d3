import Clankermux.RequestRecorderLife

/-! The phases of a request: recorded, written and open to a late summary, held for a write
that was refused, done. Each operation of the recorder leads from phase to phase. -/
namespace Clankermux.RequestRecorder

structure Notes where
  begun : Bool
  finished : Bool
  settled : Bool
  taken : Bool
  left : Bool

structure Live (n : Notes) (record : InternalRecord) : Prop where
  begun : n.begun = true
  stays : n.left = false
  unwritten : record.persisted = false
  unowed : record.settlementPending = false
  unheld : record.pendingPatch = none
  finished : n.finished = record.transport.isSome
  settled : n.settled = (record.usage.isSome || record.usageWaived)
  taken : n.taken = record.usage.isSome
  waits : n.finished = true → n.settled = false ∧ record.graceTimer = true
  disarmed : record.patchTimer = false

structure Written (n : Notes) (row : InternalRecord) : Prop where
  begun : n.begun = true
  stays : n.left = false
  finished : n.finished = true
  closed : row.transport.isSome

structure Kept (n : Notes) (row record : InternalRecord) : Prop extends Written n row where
  persisted : record.persisted = true
  rowUsage : row.usage = none
  rowWaived : row.usageWaived = false
  usage : record.usage = none
  waived : record.usageWaived = false

inductive Phase (n : Notes) : Option InternalRecord → List (Write × Bool) → List InternalRecord → Prop where
  | absent (begun : n.begun = false) (finished : n.finished = false) (settled : n.settled = false) (taken : n.taken = false)
      (stays : n.left = false) : Phase n none [] []
  | live {record} (live : Live n record) : Phase n (some record) [] []
  | window {row record accepted} (kept : Kept n row record) (unowed : record.settlementPending = false)
      (unheld : record.pendingPatch = none) (untaken : n.taken = false) :
      Phase n (some record) [(.row (requestRow row),accepted)] [row]
  | owed {row record accepted} (retries : Nat) (kept : Kept n row record) (owed : record.settlementPending = true)
      (unheld : record.pendingPatch = none) (untaken : n.taken = false) :
      Phase n (some record) ((.row (requestRow row),accepted)::List.replicate (retries + 1) (.settlement .none,false)) [row]
  | held {row record accepted} (retries : Nat) (summary : SlimUsageSummary) (kept : Kept n row record)
      (owed : record.settlementPending = true) (held : record.pendingPatch = some summary) (disarmed : record.patchTimer = false)
      (taken : n.taken = true) :
      Phase n (some record)
        ((.row (requestRow row),accepted)::List.replicate (retries + 1) (.patch (buildUsagePatch record summary),false)) [row]
  | complete {row accepted} (written : Written n row) (settled : (row.usage.isSome || row.usageWaived) = true)
      (taken : n.taken = row.usage.isSome) : Phase n none [(.row (requestRow row),accepted)] [row]
  | closed {row accepted} (retries : Nat) (written : Written n row) (usage : row.usage = none) (waived : row.usageWaived = false)
      (untaken : n.taken = false) :
      Phase n none ((.row (requestRow row),accepted)::List.replicate retries (.settlement .none,false) ++ [(.settlement .none,true)])
        [row]
  | patched {row accepted} (retries : Nat) (patch : UsagePatchWrite) (written : Written n row) (usage : row.usage = none)
      (waived : row.usageWaived = false) (taken : n.taken = true) :
      Phase n none ((.row (requestRow row),accepted)::List.replicate retries (.patch patch,false) ++ [(.patch patch,true)]) [row]
  | left (begun : n.begun = true) (left : n.left = true) (unfinished : n.finished = false) : Phase n none [] []

def refusedRow : Write × Bool → Bool
  | (.row _,false) => true
  | _ => false

def refusedSettlement : Write × Bool → Bool
  | (.settlement _,false) => true
  | _ => false

def droppedOf (writes : List (Write × Bool)) : Nat := (writes.any refusedRow).toNat + (writes.any refusedSettlement).toNat

structure Handled (budget : Nat) (n : Notes) (id : String) (s t : RequestRecorder) : Prop where
  becomes : ∃ record writes persists dropped, Becomes budget id s t record writes persists dropped ∧
    Phase n record (writesOf id t.enqueued) (persistsOf id t.persists) ∧
    dropped + droppedOf (writesOf id s.enqueued) = droppedOf (writesOf id t.enqueued)

def At (n : Notes) (id : String) (s : RequestRecorder) : Prop :=
  Phase n (s.records.get id) (writesOf id s.enqueued) (persistsOf id s.persists)

variable {budget : Nat} {n n' : Notes} {id : String} {s t u : RequestRecorder} {record old : InternalRecord}
  {w w' : List (Write × Bool)} {p p' : List InternalRecord} {d d' : Nat} {m : Moment}

theorem Handled.at (handled : Handled budget n id s t) : At n id t := by
  obtain ⟨record,writes,persists,dropped,becomes,phase,-⟩ := handled.becomes
  rw [At,becomes.record]
  exact phase

theorem Handled.grows (handled : Handled budget n id s t) : s.enqueued <+: t.enqueued := by
  obtain ⟨record,writes,persists,dropped,becomes,-⟩ := handled.becomes
  exact becomes.grows

theorem Handled.next (first : Handled budget n id s t) (second : Handled budget n' id t u) : Handled budget n' id s u := by
  obtain ⟨_,writes,persists,dropped,before,_,drops⟩ := first.becomes
  obtain ⟨record,writes',persists',dropped',after,phase,drops'⟩ := second.becomes
  exact ⟨record,writes ++ writes',persists ++ persists',dropped + dropped',before.next after,phase,by omega⟩

theorem handledItself (sound : Sound budget s) (phase : At n id s) : Handled budget n id s s :=
  ⟨s.records.get id,[],[],0,becomesItself sound rfl,phase,Nat.zero_add _⟩

theorem Becomes.handled {r} (becomes : Becomes budget id s t r [] [] 0)
    (phase : Phase n r (writesOf id s.enqueued) (persistsOf id s.persists)) : Handled budget n id s t := by
  have writes := becomes.writes
  have persists := becomes.persists
  rw [List.append_nil] at writes persists
  exact ⟨r,[],[],0,becomes,by rwa [writes,persists],by rw [writes,Nat.zero_add]⟩

theorem Becomes.handledWrite {r write}
    (becomes : Becomes budget id s t r [write] [] d) (phase : Phase n r (writesOf id s.enqueued ++ [write]) (persistsOf id s.persists))
    (drops : d + droppedOf (writesOf id s.enqueued) = droppedOf (writesOf id s.enqueued ++ [write])) :
    Handled budget n id s t := by
  have persists := becomes.persists
  rw [List.append_nil] at persists
  exact ⟨r,[write],[],d,becomes,by rwa [becomes.writes,persists],by rwa [becomes.writes]⟩

@[simp] theorem droppedOfNil : droppedOf [] = 0 := rfl

@[simp] theorem droppedOfAppend {row accepted write writes}
    (unrefused : refusedSettlement write = false) (other : refusedRow write = false) :
    droppedOf ((.row row,accepted)::writes ++ [write]) = droppedOf ((.row row,accepted)::writes) := by
  simp [droppedOf,unrefused,other]

theorem liveOf (found : s.records.get id = some record) (unwritten : record.persisted = false) (phase : At n id s) :
    Live n record ∧ writesOf id s.enqueued = [] ∧ persistsOf id s.persists = [] := by
  rw [At,found] at phase
  generalize ws : writesOf id s.enqueued = writes at phase
  generalize ps : persistsOf id s.persists = persists at phase
  cases phase with
  | live live => exact ⟨live,rfl,rfl⟩
  | window kept => simp [kept.persisted] at unwritten
  | owed _ kept => simp [kept.persisted] at unwritten
  | held _ _ kept => simp [kept.persisted] at unwritten

theorem persistHandled (sound : Sound budget s) (found : s.records.get id = some record) (fresh : writesOf id s.enqueued = [])
    (unwritten : persistsOf id s.persists = []) (open_ : record.persisted = false) (unowed : record.settlementPending = false)
    (unheld : record.pendingPatch = none) (finished : record.transport.isSome) {graceElapsed}
    (ready : record.usage.isSome ∨ record.usageWaived = true ∨ graceElapsed = true)
    (begun : n.begun = true) (stays : n.left = false) (over_ : n.finished = true) (taken : n.taken = record.usage.isSome) :
    Handled budget n id s (persistWhenReady m s id graceElapsed) := by
  have becomes := persistBecomes m sound found open_ finished ready
  refine ⟨_,_,_,_,becomes,?_,?_⟩
  · rw [becomes.writes,becomes.persists,fresh,unwritten,List.nil_append,List.nil_append]
    have written : Written n record.written := ⟨begun,stays,over_,finished⟩
    cases done : record.usageWaived || record.usage.isSome with
    | true => exact .complete written (by rw [Bool.or_comm]; exact done) taken
    | false =>
      obtain ⟨waived,usage⟩ := Bool.or_eq_false_iff.mp done
      have usage : record.usage = none := by simpa using usage
      exact .window ⟨written,rfl,usage,waived,usage,waived⟩ unowed unheld (by rw [taken,usage]; rfl)
  · rw [becomes.writes,fresh]
    cases m.accepts id <;> rfl

theorem Kept.closing {row left} (kept : Kept n row record)
    (same : left = record ∨ left = { record.bodiesReleased with settlementPending := true } ∨
      left = { record with settlementPending := false }) : Kept n row left ∧ left.pendingPatch = record.pendingPatch := by
  rcases same with rfl | rfl | rfl
  · exact ⟨kept,rfl⟩
  · exact ⟨{ kept with },rfl⟩
  · exact ⟨{ kept with },rfl⟩

theorem Kept.needs {row} (kept : Kept n row record) : needsUsageSourceSettlement record = true := by
  simp [needsUsageSourceSettlement,kept.persisted,kept.usage,kept.waived]

theorem replicateAnd {α : Type} (count : Nat) (a b : α) :
    b::List.replicate count a ++ [a] = b::List.replicate (count + 1) a := by
  rw [List.cons_append,← List.replicate_succ']

theorem closeHandled (m : Moment) (sound : Sound budget s) (found : s.records.get id = some record) (persisted : record.persisted = true)
    (phase : At n id s) :
    Handled budget n id s (if (closeUnresolvedUsageSource m s record).1 then (closeUnresolvedUsageSource m s record).2.dropRecord id
      else (closeUnresolvedUsageSource m s record).2) := by
  have itself := handledItself sound phase
  rw [At,found] at phase
  generalize ws : writesOf id s.enqueued = writes at phase
  generalize ps : persistsOf id s.persists = persists at phase
  cases phase with
  | live live => simp [live.unwritten] at persisted
  | @window row _ accepted kept unowed unheld untaken =>
    obtain ⟨answer,left,same,owed,becomes⟩ := closeBecomes m sound found unheld kept.needs
    rw [answer]
    rw [unowed,Bool.or_false] at becomes
    obtain ⟨kept',unheld'⟩ := kept.closing same
    cases taken : m.accepts id with
    | true =>
      rw [taken] at becomes
      refine (becomes.next (becomesDropped becomes.sound becomes.record)).handledWrite ?_ ?_
      · rw [ws,ps]
        exact .closed 0 kept.toWritten kept.rowUsage kept.rowWaived untaken
      · rw [ws]
        exact Nat.zero_add _
    | false =>
      rw [taken] at becomes
      refine becomes.handledWrite ?_ ?_
      · rw [ws,ps]
        exact .owed 0 kept' (owed taken) (unheld'.trans unheld) untaken
      · rw [ws]
        cases accepted <;> rfl
  | @owed row _ accepted retries kept pending unheld untaken =>
    obtain ⟨answer,left,same,owed,becomes⟩ := closeBecomes m sound found unheld kept.needs
    rw [answer]
    rw [pending,Bool.or_true,if_pos rfl] at becomes
    obtain ⟨kept',unheld'⟩ := kept.closing same
    cases taken : m.accepts id with
    | true =>
      rw [taken] at becomes
      refine (becomes.next (becomesDropped becomes.sound becomes.record)).handledWrite ?_ ?_
      · rw [ws,ps]
        exact .closed (retries + 1) kept.toWritten kept.rowUsage kept.rowWaived untaken
      · rw [ws,droppedOfAppend rfl rfl]
        exact Nat.zero_add _
    | false =>
      rw [taken] at becomes
      refine becomes.handledWrite ?_ ?_
      · rw [ws,ps,replicateAnd]
        exact .owed (retries + 1) kept' (owed taken) (unheld'.trans unheld) untaken
      · rw [ws]
        cases accepted <;> simp [droppedOf]
  | held retries summary kept owed held =>
    have kept_ : closeUnresolvedUsageSource m s record = (false,s) := by simp [closeUnresolvedUsageSource,held]
    simpa [kept_] using itself

theorem patchHandled (m : Moment) (sound : Sound budget s) (found : s.records.get id = some record) (persisted : record.persisted = true)
    (phase : At n id s) (summary : SlimUsageSummary)
    (patches : record.settlementPending = false ∨ record.pendingPatch = some summary)
    (begun : n'.begun = n.begun) (stays : n'.left = n.left) (finished : n'.finished = n.finished) (taken : n'.taken = true) :
    Handled budget n' id s (patchUsage m s record summary) := by
  obtain ⟨left,dropped,holds,becomes⟩ := patchBecomes m sound found summary
  rw [At,found] at phase
  generalize ws : writesOf id s.enqueued = writes at phase
  generalize ps : persistsOf id s.persists = persists at phase
  have written : ∀ {row}, Written n row → Written n' row := fun written =>
    ⟨begun.trans written.begun,stays.trans written.stays,finished.trans written.finished,written.closed⟩
  have keeps : ∀ {row held}, Kept n row record → held.persisted = record.persisted →
      held.usage = record.usage → held.usageWaived = record.usageWaived → Kept n' row held :=
    fun kept persisted usage waived => ⟨written kept.toWritten,persisted.trans kept.persisted,kept.rowUsage,kept.rowWaived,
      usage.trans kept.usage,waived.trans kept.waived⟩
  have patched : ∀ {held}, held.recordMeta.requestId = record.recordMeta.requestId →
      held.usageFinalizedAt = record.usageFinalizedAt → buildUsagePatch held summary = buildUsagePatch record summary := by
    intro held requestId finalized
    simp [buildUsagePatch,requestId,finalized]
  cases phase with
  | live live => simp [live.unwritten] at persisted
  | @window row _ accepted kept unowed unheld untaken =>
    cases took : m.accepts id with
    | true =>
      rw [took,dropped took] at becomes
      refine becomes.handledWrite ?_ ?_
      · rw [ws,ps]
        exact .patched 0 _ (written kept.toWritten) kept.rowUsage kept.rowWaived taken
      · rw [ws]
        cases accepted <;> rfl
    | false =>
      obtain ⟨held,same,owed,holds,disarmed,persisted,requestId,finalized,usage,waived⟩ := holds took
      rw [took,same] at becomes
      refine becomes.handledWrite ?_ ?_
      · rw [ws,ps,← patched requestId finalized]
        exact .held 0 summary (keeps kept persisted usage waived) owed holds disarmed taken
      · rw [ws]
        cases accepted <;> rfl
  | owed retries kept owed unheld => simp [owed,unheld] at patches
  | @held row _ accepted retries other kept owed holding disarmed _ =>
    obtain rfl : other = summary := by simpa [owed,holding] using patches
    cases took : m.accepts id with
    | true =>
      rw [took,dropped took] at becomes
      refine becomes.handledWrite ?_ ?_
      · rw [ws,ps]
        exact .patched (retries + 1) _ (written kept.toWritten) kept.rowUsage kept.rowWaived taken
      · rw [ws,droppedOfAppend rfl rfl]
        exact Nat.zero_add _
    | false =>
      obtain ⟨held,same,owed,holds,disarmed,persisted,requestId,finalized,usage,waived⟩ := holds took
      rw [took,same] at becomes
      refine becomes.handledWrite ?_ ?_
      · rw [ws,ps,replicateAnd,← patched requestId finalized]
        exact .held (retries + 1) other (keeps kept persisted usage waived) owed holds disarmed taken
      · rw [ws]
        cases accepted <;> simp [droppedOf]

theorem At.renote (phase : At n id s) (unlive : ∀ record, s.records.get id = some record → record.persisted = true)
    (begun : n'.begun = n.begun) (stays : n'.left = n.left) (taken : n'.taken = n.taken)
    (finished : n'.finished = (n.finished || n.begun && !n.left) ∨ n'.finished = n.finished)
    (settled : n.begun = false → n'.settled = n.settled) : At n' id s := by
  obtain ⟨b,f,e,t,l⟩ := n
  obtain ⟨b',f',e',t',l'⟩ := n'
  obtain rfl : b' = b := begun
  obtain rfl : l' = l := stays
  obtain rfl : t' = t := taken
  have written : ∀ {row}, Written ⟨b',f,e,t',l'⟩ row → Written ⟨b',f',e',t',l'⟩ row := by
    rintro row ⟨begun,stays,over_,closed⟩
    refine ⟨begun,stays,?_,closed⟩
    simp only at begun stays over_ finished ⊢
    simpa [begun,stays,over_] using finished
  have keeps : ∀ {row record}, Kept ⟨b',f,e,t',l'⟩ row record → Kept ⟨b',f',e',t',l'⟩ row record := fun kept =>
    ⟨written kept.toWritten,kept.persisted,kept.rowUsage,kept.rowWaived,kept.usage,kept.waived⟩
  rw [At] at phase ⊢
  generalize found : s.records.get id = r at phase unlive
  generalize writesOf id s.enqueued = writes at phase ⊢
  generalize persistsOf id s.persists = persists at phase ⊢
  cases phase with
  | absent begun over_ unsettled untaken stays =>
    simp only at begun over_ unsettled untaken stays finished settled
    exact .absent begun (by simpa [begun,over_] using finished) ((settled begun).trans unsettled) untaken stays
  | live live => exact absurd (unlive _ rfl) (by simp [live.unwritten])
  | window kept unowed unheld untaken => exact .window (keeps kept) unowed unheld untaken
  | owed retries kept owed unheld untaken => exact .owed retries (keeps kept) owed unheld untaken
  | held retries summary kept owed held disarmed taken => exact .held retries summary (keeps kept) owed held disarmed taken
  | complete row settled taken => exact .complete (written row) settled taken
  | closed retries row usage waived untaken => exact .closed retries (written row) usage waived untaken
  | patched retries patch row usage waived taken => exact .patched retries patch (written row) usage waived taken
  | left begun left unfinished =>
    simp only at begun left unfinished finished
    exact .left begun left (by simpa [left,unfinished] using finished)

theorem disarmHandled (sound : Sound budget s) (found : s.records.get id = some old) (persisted : old.persisted = true)
    (phase : At n id s) (grace patch : Bool) (fewer : patch = true → old.patchTimer = true) :
    Handled budget n id s (s.put { old with graceTimer := grace, patchTimer := patch }) := by
  have own := sound.keyed found
  refine (becomesPutSame { old with graceTimer := grace, patchTimer := patch } sound found own rfl).handled ?_
  rw [At,found] at phase
  have keeps : ∀ {row}, Kept n row old → Kept n row { old with graceTimer := grace, patchTimer := patch } := fun kept =>
    { kept with }
  generalize writesOf id s.enqueued = writes at phase ⊢
  generalize persistsOf id s.persists = persists at phase ⊢
  cases phase with
  | live live => simp [live.unwritten] at persisted
  | window kept unowed unheld untaken => exact .window (keeps kept) unowed unheld untaken
  | owed retries kept owed unheld untaken => exact .owed retries (keeps kept) owed unheld untaken
  | held retries summary kept owed held disarmed taken =>
    have off : patch = false := by
      cases patch with
      | false => rfl
      | true => simp [disarmed] at fewer
    exact .held retries summary (keeps kept) owed held off taken

theorem liveHandled {record} (found : s.records.get id = some old)
    (unwritten : old.persisted = false) (phase : At n id s) (becomes : Becomes budget id s t (some record) [] [] 0)
    (live : Live n' record) : Handled budget n' id s t := by
  obtain ⟨_,writes,persists⟩ := liveOf found unwritten phase
  refine becomes.handled ?_
  rw [writes,persists]
  exact .live live

theorem readyHandled (m : Moment) (found : s.records.get id = some old) (unwritten : old.persisted = false)
    (phase : At n id s) {record} (becomes : Becomes budget id s t (some record) [] [] 0) {graceElapsed}
    (open_ : record.persisted = false) (unowed : record.settlementPending = false) (unheld : record.pendingPatch = none)
    (begun : n'.begun = n.begun) (stays : n'.left = n.left) (finished : n'.finished = record.transport.isSome)
    (taken : n'.taken = record.usage.isSome)
    (waits : (record.transport.isSome && (record.usage.isSome || record.usageWaived || graceElapsed)) = false → Live n' record) :
    Handled budget n' id s (persistWhenReady m t id graceElapsed) := by
  obtain ⟨live,writes,persists⟩ := liveOf found unwritten phase
  have fresh : writesOf id t.enqueued = [] := by rw [becomes.writes,writes,List.append_nil]
  have unpersisted : persistsOf id t.persists = [] := by rw [becomes.persists,persists,List.append_nil]
  cases ready : record.transport.isSome && (record.usage.isSome || record.usageWaived || graceElapsed) with
  | true =>
    simp only [Bool.and_eq_true,Bool.or_eq_true] at ready
    have handled := @persistHandled budget n' id t record m becomes.sound becomes.record fresh unpersisted open_ unowed unheld
      ready.1 graceElapsed (by rcases ready.2 with (usage | waived) | grace; exacts [.inl usage,.inr (.inl waived),.inr (.inr grace)])
      (begun.trans live.begun) (stays.trans live.stays) (finished.trans ready.1) taken
    obtain ⟨left,writes',persists',dropped,written,phase',drops⟩ := handled.becomes
    have through := becomes.next written
    rw [List.nil_append,List.nil_append,Nat.zero_add] at through
    exact ⟨left,writes',persists',dropped,through,phase',by rw [writes]; rwa [fresh] at drops⟩
  | false =>
    have still : persistWhenReady m t id graceElapsed = t := by
      refine persistWaits m becomes.record (.inr ?_)
      cases over_ : record.transport with
      | none => exact .inl rfl
      | some outcome =>
        simp only [over_,Option.isSome_some,Bool.true_and,Bool.or_eq_false_iff] at ready
        exact .inr ⟨by simpa using ready.1.1,ready.1.2,ready.2⟩
    rw [still]
    exact liveHandled found unwritten phase becomes (waits ready)

theorem finishHandled (m : Moment) (sound : Sound budget s) (phase : At n id s) (outcome : TransportOutcome)
    (begun : n'.begun = n.begun) (stays : n'.left = n.left) (settled : n'.settled = n.settled) (taken : n'.taken = n.taken)
    (finished : n'.finished = (n.finished || n.begun && !n.left)) : Handled budget n' id s (finishTransport m s id outcome) := by
  cases found : s.records.get id with
  | none =>
    rw [finishTransport,found]
    exact handledItself sound (phase.renote (by simp [found]) begun stays taken (.inl finished) fun _ => settled)
  | some record =>
    cases unwritten : record.persisted with
    | true =>
      simp only [finishTransport,found,unwritten]
      refine handledItself sound (phase.renote ?_ begun stays taken (.inl finished) fun _ => settled)
      intro other same
      rw [found] at same
      cases same
      exact unwritten
    | false =>
      obtain ⟨live,-,-⟩ := liveOf found unwritten phase
      have over_ : n'.finished = true := by simp [finished,live.begun,live.stays]
      have own := sound.keyed found
      rw [finishTransport,found]
      dsimp only
      rw [if_neg (by simp [unwritten])]
      cases transport : record.transport with
      | none =>
        refine readyHandled m found unwritten phase
          (becomesPutSame { record with transport := some outcome, graceTimer := true } sound found own rfl) unwritten live.unowed
          live.unheld begun stays over_ (taken.trans live.taken) fun waits => ?_
        have unsettled : n'.settled = false := by
          rw [settled,live.settled]
          simpa using waits
        exact ⟨begun.trans live.begun,stays.trans live.stays,unwritten,live.unowed,live.unheld,over_,settled.trans live.settled,
          taken.trans live.taken,fun _ => ⟨unsettled,rfl⟩,live.disarmed⟩
      | some first =>
        refine readyHandled m found unwritten phase (becomesItself sound found) unwritten live.unowed live.unheld begun stays
          (by rw [over_,transport]; rfl) (taken.trans live.taken) fun waits => ?_
        have before : n.finished = true := by rw [live.finished,transport]; rfl
        exact ⟨begun.trans live.begun,stays.trans live.stays,unwritten,live.unowed,live.unheld,by rw [over_,transport]; rfl,
          settled.trans live.settled,taken.trans live.taken,fun _ => ⟨settled.trans (live.waits before).1,(live.waits before).2⟩,live.disarmed⟩

def takes (s : RequestRecorder) (requestId : String) : Bool :=
  match s.records.get requestId with
  | none => false
  | some record => !record.settlementPending

theorem attachHandled (m : Moment) (sound : Sound budget s) (phase : At n id s) (summary : SlimUsageSummary)
    (begun : n'.begun = n.begun) (stays : n'.left = n.left) (finished : n'.finished = n.finished)
    (settled : n'.settled = (n.settled || n.begun)) (taken : n'.taken = (n.taken || takes s id)) :
    Handled budget n' id s (attachUsageSummary m s id summary) := by
  have unsettled : n.begun = false → n'.settled = n.settled := fun unknown => by rw [settled,unknown,Bool.or_false]
  cases found : s.records.get id with
  | none =>
    rw [attachUsageSummary,found]
    refine handledItself sound (phase.renote (by simp [found]) begun stays ?_ (.inr finished) unsettled)
    simp [taken,takes,found]
  | some record =>
    have own := sound.keyed found
    rw [attachUsageSummary,found]
    dsimp only
    cases owed : record.settlementPending with
    | true =>
      refine handledItself sound (phase.renote ?_ begun stays (by simp [taken,takes,found,owed]) (.inr finished) unsettled)
      intro other same
      obtain rfl : record = other := by simpa [found] using same
      rw [At,found] at phase
      generalize writesOf id s.enqueued = writes at phase
      generalize persistsOf id s.persists = persists at phase
      cases phase with
      | live live => simp [live.unowed] at owed
      | window kept => exact kept.persisted
      | owed _ kept => exact kept.persisted
      | held _ _ kept => exact kept.persisted
    | false =>
      have took : n'.taken = true := by simp [taken,takes,found,owed]
      generalize (if (record.usageFinalizedAt.isNone && summary.usage.namesModel) = true then some m.now
        else record.usageFinalizedAt) = finalizedAt
      cases persisted : record.persisted with
      | true =>
        have put := becomesPutSame { record with usageFinalizedAt := finalizedAt } sound found own rfl
        have stamped : Handled budget n id s (s.put { record with usageFinalizedAt := finalizedAt }) := by
          refine put.handled ?_
          rw [At,found] at phase
          generalize writesOf id s.enqueued = writes at phase ⊢
          generalize persistsOf id s.persists = persists at phase ⊢
          cases phase with
          | live live => simp [live.unwritten] at persisted
          | window kept unowed unheld untaken =>
            exact .window { kept with } unowed unheld untaken
          | owed _ _ pending => simp [pending] at owed
          | held _ _ _ pending => simp [pending] at owed
        have patched := @patchHandled budget n n' id _ { record with usageFinalizedAt := finalizedAt } m put.sound put.record persisted
          stamped.at summary (.inl owed) begun stays finished took
        rw [persisted,owed] at stamped
        exact stamped.next (by rwa [persisted,owed] at patched)
      | false =>
        obtain ⟨live,-,-⟩ := liveOf found persisted phase
        refine readyHandled m found persisted phase
          (becomesPutSame
            { record with
              usageFinalizedAt := finalizedAt
              settlementPending := false
              persisted := false
              usage := some summary } sound found own rfl) rfl rfl live.unheld begun stays
          (finished.trans live.finished) took fun waits => ?_
        have unfinished : record.transport.isSome = false := by simpa using waits
        exact ⟨begun.trans live.begun,stays.trans live.stays,rfl,rfl,live.unheld,finished.trans live.finished,
          by simp [settled,live.begun],took,fun over_ => by simp [finished,live.finished,unfinished] at over_,live.disarmed⟩

theorem markHandled (m : Moment) (sound : Sound budget s) (phase : At n id s) (begun : n'.begun = n.begun) (stays : n'.left = n.left)
    (finished : n'.finished = n.finished) (settled : n'.settled = (n.settled || n.begun)) (taken : n'.taken = n.taken) :
    Handled budget n' id s (markUsageUnavailable m s id) := by
  have unsettled : n.begun = false → n'.settled = n.settled := fun unknown => by rw [settled,unknown,Bool.or_false]
  cases found : s.records.get id with
  | none =>
    rw [markUsageUnavailable,found]
    exact handledItself sound (phase.renote (by simp [found]) begun stays taken (.inr finished) unsettled)
  | some record =>
    have own := sound.keyed found
    rw [markUsageUnavailable,found]
    dsimp only
    cases persisted : record.persisted with
    | true =>
      refine handledItself sound (phase.renote ?_ begun stays taken (.inr finished) unsettled)
      intro other same
      obtain rfl : record = other := by simpa [found] using same
      exact persisted
    | false =>
      obtain ⟨live,-,-⟩ := liveOf found persisted phase
      refine readyHandled m found persisted phase
        (becomesPutSame
          { record with
            persisted := false
            usageWaived := true } sound found own rfl) rfl live.unowed live.unheld begun stays
        (finished.trans live.finished) (taken.trans live.taken) fun waits => ?_
      have unfinished : record.transport.isSome = false := by simpa using waits
      exact ⟨begun.trans live.begun,stays.trans live.stays,rfl,live.unowed,live.unheld,finished.trans live.finished,
        by simp [settled,live.begun],taken.trans live.taken,fun over_ => by simp [finished,live.finished,unfinished] at over_,live.disarmed⟩

theorem graceHandled (m : Moment) (sound : Sound budget s) (phase : At n id s) : Handled budget n id s (graceElapsed m s id) := by
  cases found : s.records.get id with
  | none =>
    rw [graceElapsed,found]
    exact handledItself sound phase
  | some record =>
    have own := sound.keyed found
    rw [graceElapsed,found]
    dsimp only
    cases persisted : record.persisted with
    | true =>
      have disarmed := disarmHandled sound found persisted phase false record.patchTimer fun armed => armed
      rwa [persisted] at disarmed
    | false =>
      obtain ⟨live,-,-⟩ := liveOf found persisted phase
      have becomes := becomesPutSame { record with persisted := false, graceTimer := false } sound found own rfl
      have still : n.finished = false → Live n { record with persisted := false, graceTimer := false } := fun unfinished =>
        { live with unwritten := rfl, waits := fun over_ => by simp [unfinished] at over_ }
      cases usage : record.usage with
      | some summary =>
        rw [usage] at becomes still
        refine liveHandled found persisted phase becomes (still ?_)
        cases over_ : n.finished with
        | false => rfl
        | true =>
          have unsettled := (live.waits over_).1
          simp [live.settled,usage] at unsettled
      | none =>
        rw [usage] at becomes still
        refine readyHandled m found persisted phase becomes rfl live.unowed live.unheld rfl rfl live.finished
          (by rw [live.taken,usage]) fun waits => still ?_
        rw [live.finished]
        simpa using waits

theorem shutHandled (m : Moment) (sound : Sound budget s) (phase : At n id s)
    (armed : ∀ record, s.records.get id = some record → record.patchTimer = true) :
    Handled budget n id s (patchWindowShut m s id) := by
  cases found : s.records.get id with
  | none =>
    rw [patchWindowShut,found]
    exact handledItself sound phase
  | some record =>
    have persisted : record.persisted = true := by
      cases persisted : record.persisted with
      | true => rfl
      | false =>
        have disarmed := (liveOf found persisted phase).1.disarmed
        rw [armed record found] at disarmed
        cases disarmed
    have own := sound.keyed found
    have disarmed := disarmHandled sound found persisted phase record.graceTimer false nofun
    have put := becomesPutSame { record with patchTimer := false } sound found own rfl
    have closed := @closeHandled budget n id _ { record with patchTimer := false } m put.sound put.record persisted disarmed.at
    rw [patchWindowShut,found]
    dsimp only
    refine disarmed.next ?_
    generalize closeUnresolvedUsageSource m (s.put { record with patchTimer := false }) { record with patchTimer := false } = out at closed ⊢
    obtain ⟨drop,left⟩ := out
    cases drop with
    | true => exact closed
    | false => exact closed

theorem sweepHandled (c : RequestRecorderConfig) (m : Moment) (overBudget : Bool) (sound : Sound budget s) (phase : At n id s) :
    Handled budget n id s (sweepOne c m overBudget s id) := by
  have itself := handledItself sound phase
  cases found : s.records.get id with
  | none =>
    rw [sweepOne,found]
    exact itself
  | some record =>
    have own := sound.keyed found
    rw [sweepOne,found]
    dsimp only
    cases persisted : record.persisted with
    | true =>
      rw [if_pos rfl]
      split
      · exact itself
      · split
        · exact itself
        · cases held : record.pendingPatch with
          | some summary =>
            exact patchHandled m sound found persisted phase summary (.inr held) rfl rfl rfl (by
              rw [At,found] at phase
              generalize writesOf id s.enqueued = writes at phase
              generalize persistsOf id s.persists = persists at phase
              cases phase with
              | live live => simp [live.unheld] at held
              | window _ _ unheld => simp [unheld] at held
              | owed _ _ _ unheld => simp [unheld] at held
              | held _ _ _ _ _ _ taken => exact taken)
          | none =>
            have closed := closeHandled m sound found persisted phase
            generalize closeUnresolvedUsageSource m s record = out at closed ⊢
            obtain ⟨drop,left⟩ := out
            cases drop with
            | true => exact closed
            | false => exact closed
    | false =>
      rw [if_neg Bool.false_ne_true]
      obtain ⟨live,-,-⟩ := liveOf found persisted phase
      split
      · exact itself
      · cases transport : record.transport with
        | none =>
          have freed := becomesFreed sound found
          have live' : Live n { record.released with bodyDiscarded := true } :=
             { live with unwritten := persisted }
          have put := becomesPutSame { record.released with bodyDiscarded := true } freed.sound freed.record own rfl
          have handled := liveHandled found persisted phase (freed.next put) live'
          simpa [InternalRecord.released,transport,persisted] using handled
        | some outcome =>
          refine readyHandled m found persisted phase
            (becomesPutSame
              { record with
                transport := some outcome
                persisted := false
                usageWaived := true } sound found own rfl) rfl live.unowed live.unheld rfl rfl
            (by rw [live.finished,transport]) live.taken fun waits => ?_
          simp at waits

end Clankermux.RequestRecorder
