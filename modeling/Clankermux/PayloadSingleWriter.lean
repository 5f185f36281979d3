import Clankermux.PayloadLeads

/-! A payload is never outstanding on two workers: in every run a write goes to a
generation only after every other generation the payload was written to has been
terminated. -/
namespace Clankermux.PayloadWriteClient
open InsertionMap

variable {c d : Client} {id : Nat} {g : GenerationState}

structure Activating (c : Client) (id : Nat) : Prop where
  only : c.jobs = [.spawned .activate id true]
  sound : ({ c with jobs := [] } : Client).control.Sound
  idle : c.active = none
  still : c.rotation = none
  quiet : ∀ id w, c.control.workers id = some w → w.status ≠ .starting
  ready : c.hasStatus id .ready = true

def Held (c : Client) : Prop := c.control.Sound ∨ ∃ id, Activating c id

structure Advances (c d : Client) : Prop where
  held : Held d
  steps : Handover.Steps c.control.handover d.control.handover

theorem Leads.advances (h : Leads c d) : Advances c d := ⟨.inl h.sound,h.steps⟩

theorem readyClient (found : c.generation id = some g) (begun : g.status = .starting) (listening : g.onReady = true)
    (unfinished : g.finished = false) :
    handleMessage c id .ready = { ((c.setGeneration id { g with status := .ready }).setGeneration id
        { g with status := .ready,finished := true,readyTimer := none }).setGeneration id
        { g with status := .ready,finished := true,readyTimer := none,onReady := false } with
      spawning := false
      respawnAttempts := 0
      jobs := c.jobs ++ [Job.spawned g.purpose id true] } := by
  let ready := c.setGeneration id { g with status := .ready }
  have there : ready.generation id = some { g with status := .ready } := by
    simp [ready,Client.setGeneration,Client.generation]
  let finished : GenerationState := { g with status := .ready,finished := true,readyTimer := none }
  have settled : finish ready id true "" none =
      { ready.setGeneration id finished with
        spawning := false,respawnAttempts := 0,jobs := ready.jobs ++ [Job.spawned g.purpose id true] } := by
    simp [finish,there,unfinished,Client.setGeneration,Client.enqueue,finished]
  have last : (finish ready id true "" none).generation id = some finished := by
    rw [settled]
    simp [Client.setGeneration,Client.generation]
  have same : handleMessage c id .ready = (finish ready id true "" none).modifyGeneration id
      (fun g => { g with onReady := false }) := by
    simp only [handleMessage,found,if_pos begun,if_pos listening]
    rfl
  rw [same,Client.modifyGeneration,last,settled]
  rfl

theorem readyWorker (found : c.generation id = some g) (begun : g.status = .starting) (listening : g.onReady = true)
    (unfinished : g.finished = false) :
    (handleMessage c id .ready).control =
      (c.control.settled id ⟨.ready,g.purpose,true,false,g.onClosed.isSome⟩).push (.spawned g.purpose id true) := by
  rw [readyClient found begun listening unfinished]
  calc _ = { (((c.setGeneration id { g with status := .ready }).setGeneration id
          { g with status := .ready,finished := true,readyTimer := none }).setGeneration id
          { g with status := .ready,finished := true,readyTimer := none,onReady := false }).control with
        spawning := false,jobs := c.jobs ++ [Job.spawned g.purpose id true] } := rfl
    _ = _ := by
        rw [setGenerationControl,setGenerationControl,setGenerationControl]
        simp only [Control.put,Function.update_idem]
        rfl

theorem readyAdvances (h : c.control.Sound) (free : c.jobs = []) (found : c.generation id = some g)
    (begun : g.status = .starting) : Advances c (handleMessage c id .ready) := by
  have its := workersGeneration found
  have s := h.starting id _ its begun
  have control := readyWorker found begun s.listening s.unfinished
  let v : Worker := ⟨.ready,g.purpose,true,false,g.onClosed.isSome⟩
  have settled : (c.control.settled id v).Sound := h.settle its begun (by simp) (by simp) rfl rfl
  have quiet : ∀ other w, (c.control.settled id v).workers other = some w → w.status ≠ .starting := by
    intro other w its' starting
    exact absurd (settled.starting other w its' starting).spawning Bool.false_ne_true
  refine ⟨?_,control ▸ .refl⟩
  cases purpose : g.purpose with
  | rotate =>
    left
    rw [control]
    refine settled.push ⟨by simp [purpose],fun p other ok its' => ?_,by simp⟩
    cases its'
    exact ⟨h.fresh id _ its,fun w found' => quiet id w found'⟩
  | activate =>
    right
    refine ⟨id,?_,?_,?_,?_,?_,?_⟩
    · have jobs := congrArg Control.jobs control
      simpa [Client.control,Control.settled,Control.push,Control.put,free,purpose] using jobs
    · have emptied : ({ handleMessage c id .ready with jobs := [] } : Client).control =
          { (handleMessage c id .ready).control with jobs := [] } := rfl
      rw [emptied,control]
      exact settled.jobs [] (by simp)
    · have active := congrArg Control.active control
      exact active.trans (s.activate purpose).1
    · have rotation := congrArg Control.rotation control
      exact rotation.trans (s.activate purpose).2
    · intro other w its'
      rw [control] at its'
      exact quiet other w its'
    · have worker_ : (handleMessage c id .ready).control.workers id = some v := by
        rw [control]
        simp [Control.push,Control.settled,Control.put,v]
      cases last : (handleMessage c id .ready).generation id with
      | none => simp [Client.control,last] at worker_
      | some g' =>
        have same : worker g' = v := by simpa [Client.control,last] using worker_
        have status : g'.status = .ready := congrArg Worker.status same
        simp [Client.hasStatus,last,status]

theorem startedOf (h : c.control.Sound) (found : c.generation id = some g) (settled : g.finished = true) :
    ∀ w, c.control.workers id = some w → w.status ≠ .starting := by
  intro w its begun
  cases (workersGeneration found).symm.trans its
  have unfinished := (h.starting id _ its begun).unfinished
  rw [show (worker g).finished = g.finished from rfl,settled] at unfinished
  cases unfinished

theorem modifyLeads (h : c.control.Sound) (f : GenerationState → GenerationState)
    (status : ∀ g, (f g).status = g.status) (finished : ∀ g, (f g).finished = g.finished)
    (closing : ∀ g, (f g).onClosed.isSome → g.onClosed.isSome)
    (begun : ∀ g, c.generation id = some g → g.status = .starting → worker (f g) = worker g) :
    Leads c (c.modifyGeneration id f) := by
  unfold Client.modifyGeneration
  split
  · rename_i g found
    have its := workersGeneration found
    refine ⟨?_,by rw [setGenerationControl]; exact .refl⟩
    rw [setGenerationControl]
    by_cases starting : g.status = .starting
    · rw [begun g found starting,putSame its]
      exact h
    · have same : (worker (f g)).status = (worker g).status := status g
      refine h.put its starting (same ▸ starting) (fun dead => .inl (same ▸ dead)) (fun dead => same ▸ dead) (finished g)
        (fun waiting => ?_)
      rw [same]
      exact h.parted id _ its (closing g waiting)
  · exact .frame h rfl

theorem finishSettles (c : Client) (id : Nat) (detail : String) (errorClass : Option ErrorClass) :
    ∀ w, (finish c id false detail errorClass).control.workers id = some w → w.finished = true := by
  intro w its
  cases found : c.generation id with
  | none =>
    have absent : c.control.workers id = none := by simp [Client.control,found]
    simp only [finish,found] at its
    cases absent.symm.trans its
  | some g =>
    by_cases done : g.finished = true
    · simp only [finish,found,if_pos done] at its
      cases (workersGeneration found).symm.trans its
      exact done
    · let settled : GenerationState := { g with finished := true,readyTimer := none }
      let marked : Client := { c.setGeneration id settled with spawning := false }
      have there : marked.generation id = some settled := by simp [marked,Client.setGeneration,Client.generation]
      have same : (finish c id false detail errorClass).control.workers = (killGeneration marked id).control.workers := by
        have control : ∀ d : Client, d.control = (killGeneration marked id).control →
            (d.enqueue (.spawned g.purpose id false)).control.workers = (killGeneration marked id).control.workers :=
          fun d same => (rfl : _ = d.control.workers).trans (congrArg Control.workers same)
        simp only [finish,found,if_neg done,Bool.false_eq_true,if_false]
        split
        · exact control _ (onWriterFatalControl _ _)
        · exact control _ (onSpawnFailureControl _)
      rw [same] at its
      by_cases dead : g.status = .dead
      · have still : killGeneration marked id = marked := by simp only [killGeneration,there]; exact if_pos dead
        rw [still] at its
        cases (workersGeneration there).symm.trans its
        rfl
      · rw [killGenerationControl there dead] at its
        simp only [Control.terminate,Control.put,Function.update_self] at its
        cases its
        rfl

theorem handleErrorHeard (found : c.generation id = some g) (detail : String) (errorClass : ErrorClass) :
    handleMessage c id (.error detail errorClass) = (if g.onReady then finish c id false detail (some errorClass) else c).modifyGeneration id
      (fun g => { g with onReady := false }) := by
  simp only [handleMessage,found]

theorem messageAdvances (h : c.control.Sound) (free : c.jobs = []) (id : Nat) (response : Response) :
    Advances c (handleMessage c id response) := by
  cases response with
  | ready =>
    cases found : c.generation id with
    | none =>
      have same : handleMessage c id .ready = c := by simp only [handleMessage,found]
      rw [same]
      exact (Leads.frame h rfl).advances
    | some g =>
      by_cases begun : g.status = .starting
      · exact readyAdvances h free found begun
      · have same : handleMessage c id .ready = c := by simp only [handleMessage,found,if_neg begun]
        rw [same]
        exact (Leads.frame h rfl).advances
  | ack generation results => exact (handleAckLeads h id generation results).advances
  | closed =>
    have done := closeDoneLeads h id
    refine (done.trans (modifyLeads done.sound (fun g => { g with onClosed := none }) (fun _ => rfl) (fun _ => rfl) (fun _ its => (by cases its)) (fun g found begun => ?_))).advances
    have open_ : g.onClosed.isSome = false := (done.sound.starting id _ (workersGeneration found) begun).open_
    simp [worker,open_]
  | error detail errorClass =>
    refine Leads.advances ?_
    cases found : c.generation id with
    | none =>
      have same : handleMessage c id (.error detail errorClass) = c := by simp only [handleMessage,found]
      rw [same]
      exact .frame h rfl
    | some g =>
      rw [handleErrorHeard found]
      split
      · have failed := finishFailedLeads id h detail (some errorClass)
        refine failed.trans (modifyLeads failed.sound _ (fun _ => rfl) (fun _ => rfl) (fun _ its => its) (fun g' found' begun => ?_))
        have its := workersGeneration found'
        have finished := finishSettles c id detail (some errorClass) _ its
        cases finished.symm.trans (failed.sound.starting id _ its begun).unfinished
      · rename_i listening
        refine modifyLeads h _ (fun _ => rfl) (fun _ => rfl) (fun _ its => its) (fun g' found' _ => ?_)
        cases found.symm.trans found'
        simp [worker,eq_false_of_ne_true listening]

theorem onTransportErrorLeads (h : c.control.Sound) (id : Nat) (detail : String) : Leads c (onTransportError c id detail) := by
  unfold onTransportError
  split
  · exact .frame h rfl
  rename_i g found
  split
  · rename_i settled
    exact onGenerationDiedLeads h (startedOf h found settled)
  · exact finishFailedLeads _ h detail none

theorem timerControl (found : c.generation id = some g) (g' : GenerationState) (same : worker g' = worker g) :
    (c.setGeneration id g').control = c.control := by
  rw [setGenerationControl,same,putSame (workersGeneration found)]

section
variable (h : c.control.Sound)
include h

theorem onRetryTimerLeads (seq : Nat) (e : RegistryEntry) : Leads c (onRetryTimer c seq e) := by
  unfold onRetryTimer
  simp only
  split
  · exact .via h (fun h => .frame h (expireControl _ seq)) rfl
  · refine .via h (fun h => ?_) rfl (d := (c.setEntry seq { e with retryTimer := none }).setEntry seq
      { e with state := .buffered,retryTimer := none })
    have ensured := ensureActiveGenerationLeads h
    exact ensured.trans (trySendLeads ensured.sound seq)

theorem onRespawnTimerLeads : Leads c (onRespawnTimer c) := by
  unfold onRespawnTimer
  simp only
  split
  · exact .via h maybeRotateLeads rfl
  · exact .via h ensureActiveGenerationLeads rfl

theorem fenceLeads : Leads c (fence c) := by
  unfold fence
  split
  · exact .frame h rfl
  rename_i id fed
  let counted : Client := { c with stats.fences := c.stats.fences + 1 }
  have same : counted.control = c.control := rfl
  have killed : Leads c (killGeneration counted id) :=
    .via h (killGenerationLeads · (fun w its => h.activeStarted fed (same ▸ its))) same
  refine killed.trans (.frame killed.sound ?_)
  exact scheduleRespawnControl _

theorem runWatchdogLeads : Leads c (runWatchdog c) := by
  unfold runWatchdog
  split
  · exact .frame h rfl
  split
  · simp only
    split
    · exact .via h flushBufferedLeads rfl
    · exact .frame h rfl
  · simp only
    split
    · exact fenceLeads h
    split
    · exact .frame h rfl
    · exact .frame h rfl

theorem onWatchdogTimerLeads : Leads c (onWatchdogTimer c) := by
  have ran : Leads c (runWatchdog { c with watchdogTimer := none }) := .via h runWatchdogLeads rfl
  unfold onWatchdogTimer
  simp only
  split
  · exact ran
  · exact ran.trans (.frame ran.sound rfl)

end

structure Killed (x y : Control) : Prop where
  rest : y = { x with active := y.active,workers := y.workers,log := y.log }
  active : ∀ id, y.active = some id → x.active = some id
  known : ∀ id, x.Known id ↔ y.Known id
  lasting : ∀ id w v, x.workers id = some w → w.status = .dead → y.workers id = some v → v.status = .dead
  past : ∀ id w, y.workers id = some w → w.status = .dead → .terminated id ∈ y.log
  kept : ∀ entry ∈ x.log, entry ∈ y.log

theorem Killed.trans {x y z} (first : Killed x y) (second : Killed y z) : Killed x z where
  rest := by
    have both := second.rest
    rw [first.rest] at both
    exact both
  active id fed := first.active id (second.active id fed)
  known id := (first.known id).trans (second.known id)
  lasting id w v its dead last := by
    obtain ⟨u,mid⟩ := (first.known id).mp ⟨w,its⟩
    exact second.lasting id u v mid (first.lasting id w u its dead mid) last
  past := second.past
  kept entry member := second.kept entry (first.kept entry member)

theorem killGenerationKilled (past : ∀ id w, c.control.workers id = some w → w.status = .dead →
    .terminated id ∈ c.control.log) (id : Nat) :
    Killed c.control (killGeneration c id).control ∧
      ∀ w, (killGeneration c id).control.workers id = some w → w.status = .dead := by
  have still : killGeneration c id = c → Killed c.control (killGeneration c id).control := by
    intro same
    rw [same]
    refine ⟨rfl,fun _ fed => fed,fun _ => Iff.rfl,fun other w v its dead its' => ?_,past,fun _ member => member⟩
    cases its.symm.trans its'
    exact dead
  cases found : c.generation id with
  | none =>
    have same : killGeneration c id = c := by simp only [killGeneration,found]
    refine ⟨still same,fun w its => ?_⟩
    rw [same] at its
    simp [Client.control,found] at its
  | some g =>
    have its := workersGeneration found
    obtain ⟨w,last,gone⟩ := killGenerationDead found
    refine ⟨?_,fun v its' => by cases Option.some.inj (last.symm.trans its'); exact gone⟩
    by_cases dead : g.status = .dead
    · exact still (by simp only [killGeneration,found,if_pos dead])
    rw [killGenerationControl found dead]
    refine ⟨rfl,?_,?_,?_,?_,fun _ member => .tail _ member⟩
    · intro other fed
      simp only [Control.terminate] at fed
      split at fed
      · cases fed
      · exact fed
    · intro other
      by_cases same : other = id
      · subst same
        simp [Control.Known,Control.terminate,Control.put,its]
      · simp [Control.Known,Control.terminate,Control.put,Function.update_of_ne same]
    · intro other u v first gone' second
      rcases Control.putCases second with ⟨_,rfl⟩ | ⟨_,old⟩
      · rfl
      · cases first.symm.trans old
        exact gone'
    · intro other u second gone'
      rcases Control.putCases second with ⟨rfl,_⟩ | ⟨_,old⟩
      · exact .head _
      · exact .tail _ (past other u old gone')

theorem killEach (past : ∀ id w, c.control.workers id = some w → w.status = .dead → .terminated id ∈ c.control.log)
    (ids : List Nat) : Killed c.control (ids.foldl killGeneration c).control ∧
      (∀ id ∈ ids, ∀ w, (ids.foldl killGeneration c).control.workers id = some w → w.status = .dead) ∧
      Handover.Steps c.control.handover (ids.foldl killGeneration c).control.handover := by
  induction ids generalizing c with
  | nil =>
    refine ⟨⟨rfl,fun _ fed => fed,fun _ => Iff.rfl,fun id w v its dead its' => ?_,past,fun _ member => member⟩,by simp,.refl⟩
    cases its.symm.trans its'
    exact dead
  | cons id rest ih =>
    obtain ⟨first,gone⟩ := killGenerationKilled past id
    obtain ⟨second,all,steps⟩ := ih first.past
    refine ⟨first.trans second,fun other member w last => ?_,(killGenerationSteps c id).trans steps⟩
    rcases List.mem_cons.mp member with rfl | inside
    · obtain ⟨u,mid⟩ := (second.known other).mpr ⟨w,last⟩
      exact second.lasting other u w mid (gone u mid) last
    · exact all other inside w last

theorem abandonControl (c : Client) (seq : Nat) : (abandon c seq).control = c.control :=
  settleControl { c with stats.abandoned := c.stats.abandoned + 1 } seq .abandoned none none

theorem foldControl {α : Type} {f} (each : ∀ c a, (f c a).control = c.control) (c : Client)
    (l : List α) : (l.foldl f c).control = c.control := by
  induction l generalizing c with
  | nil => rfl
  | cons a rest ih => exact (ih (f c a)).trans (each c a)

theorem finalizeLeads (h : c.control.Sound) : Leads c (finalize c) := by
  obtain ⟨killed,all,steps⟩ := killEach h.dead (keys c.generations)
  have gone : ∀ id w, (killAll c).control.workers id = some w → w.status = .dead := by
    intro id w its
    obtain ⟨u,known⟩ := (killed.known id).mpr ⟨w,its⟩
    have member : id ∈ keys c.generations := by
      cases found : c.generation id with
      | none => simp [Client.control,found] at known
      | some g => exact memKeysOfGet found
    exact all id member w its
  have jobs : (killAll c).control.jobs = c.jobs := congrArg Control.jobs killed.rest
  have rotation : (killAll c).control.rotation = c.rotation := congrArg Control.rotation killed.rest
  have next : (killAll c).control.nextGeneration = c.nextGeneration := congrArg Control.nextGeneration killed.rest
  let quieted : Client := { killAll c with active := none }
  have control : (finalize c).control =
      { (killAll c).control with active := none,returned := true,jobs := c.jobs ++ [Job.caller] } := by
    have abandoned : ((keys quieted.unacked).foldl abandon quieted).control = quieted.control :=
      foldControl abandonControl quieted _
    have last : (finalize c).control = { ((keys quieted.unacked).foldl abandon quieted).control with
        returned := true,jobs := ((keys quieted.unacked).foldl abandon quieted).control.jobs ++ [Job.caller] } := rfl
    rw [last,abandoned,← jobs]
    rfl
  have dropped : Handover.Step (killAll c).control.handover (finalize c).control.handover := by
    rw [control]
    refine .drop (fun id fed => ?_)
    obtain ⟨w,its⟩ := (killed.known id).mp (h.known id (killed.active id fed))
    exact killed.past id w its (gone id w its)
  refine ⟨?_,steps.tail dropped⟩
  rw [control]
  constructor
  · intro id fed
    cases fed
  · intro r rotating
    exact (killed.known _).mp (h.retiring r (rotation.symm.trans rotating))
  · exact fun _ => rfl
  · exact fun r rotating => h.older r (rotation.symm.trans rotating)
  · exact killed.past
  · intro id w its
    obtain ⟨u,known⟩ := (killed.known id).mpr ⟨w,its⟩
    exact next ▸ h.fresh id u known
  · intro id w its begun
    rw [gone id w its] at begun
    cases begun
  · intro id w other v its _ begun
    rw [gone id w its] at begun
    cases begun
  · exact fun _ _ _ _ => .inr rfl
  · exact fun _ => gone
  · exact fun id w its _ => .inr (gone id w its)
  · intro id member
    have old : Job.spawned .activate id true ∈ c.jobs := by simpa using member
    exact h.quiet id old
  · intro purpose id ok member
    have old : Job.spawned purpose id ok ∈ c.jobs := by simpa using member
    refine ⟨next ▸ (h.spawned purpose id ok old).1,fun w its begun => ?_⟩
    rw [gone id w its] at begun
    cases begun
  · intro id member
    have old : Job.closed .rotate id ∈ c.jobs := by simpa using member
    exact killed.kept _ (h.closed id old)

theorem setPhaseControl (phase : DisposePhase) (running : c.control.returned = false) (unfinished : phase ≠ .returned) :
    (setPhase c phase).control = c.control := by
  calc (setPhase c phase).control = { c.control with returned := some phase == some .returned } := rfl
    _ = { c.control with returned := c.control.returned } := by rw [running]; simp [unfinished]

section
variable (h : c.control.Sound)
include h

theorem handOverEach (fed : c.active = some id) (seqs : List Nat) :
    Leads c (seqs.foldl (handOverEntry id) c) ∧ (seqs.foldl (handOverEntry id) c).active = some id ∧
      (seqs.foldl (handOverEntry id) c).control.returned = c.control.returned := by
  induction seqs generalizing c with
  | nil => exact ⟨.frame h rfl,fed,rfl⟩
  | cons seq rest ih =>
    have step : Leads c (handOverEntry id c seq) ∧ (handOverEntry id c seq).control.active = some id ∧
        (handOverEntry id c seq).control.returned = c.control.returned := by
      unfold handOverEntry
      split
      · exact ⟨.frame h rfl,fed,rfl⟩
      rename_i e _
      split
      · exact ⟨.frame h rfl,fed,rfl⟩
      unfold sendDuringDispose
      let sent : Client := c.setEntry seq (handed { e with state := .buffered,generation := none } id c.now)
      have posted := writeLeads h fed (d := sent) rfl seq e.timestamp c.now c.retentionMs
      have control := writeControl (c := c) (d := sent) rfl id seq e.timestamp c.now c.retentionMs
      have active := (congrArg Control.active control).trans fed
      have returned := congrArg Control.returned control
      simp only
      split
      · exact ⟨posted.trans (.frame posted.sound rfl),active,returned⟩
      · exact ⟨posted,active,returned⟩
    obtain ⟨first,active,returned⟩ := step
    obtain ⟨second,last,same⟩ := ih first.sound active
    exact ⟨first.trans second,last,same.trans returned⟩

section
variable (running : c.control.returned = false)
include running

theorem handOverLeads : Leads c (handOver c) := by
  unfold handOver
  split
  · exact finalizeLeads h
  rename_i id its
  have fed : c.active = some id := (Option.filter_eq_some_iff.mp its).1
  obtain ⟨moved,active,returned⟩ := handOverEach h fed (keys c.unacked)
  have phased := moved.trans (.frame moved.sound (setPhaseControl .closing (returned.trans running) (by simp)))
  refine phased.trans (closeGenerationLeads phased.sound ?_ (.inl ?_) .dispose)
  · intro g found
    exact phased.sound.activeStarted active (workersGeneration found)
  · obtain ⟨w,known⟩ := phased.sound.known id active
    cases found : (setPhase ((keys c.unacked).foldl (handOverEntry id) c) .closing).generation id with
    | none => simp [Client.control,found] at known
    | some g => rfl

theorem raceDeadlineLeads (race : Race) :
    Leads c (raceDeadline c race) := by
  unfold raceDeadline
  split
  · have phased : Leads c (setPhase c (.racing race true)) := .frame h (setPhaseControl _ running (by simp))
    exact phased.trans (pushLeads phased.sound _ ⟨by simp,by simp,by simp⟩)
  · exact .frame h (setPhaseControl _ running (by simp))

theorem awaitRotationLeads : Leads c (awaitRotation c) := by
  unfold awaitRotation
  split
  · exact raceDeadlineLeads h running _
  · exact handOverLeads h running

theorem awaitSpawnLeads : Leads c (awaitSpawn c) := by
  unfold awaitSpawn
  split
  · split
    · exact awaitRotationLeads h running
    · exact raceDeadlineLeads h running _
  · exact awaitRotationLeads h running

end

theorem disposeLeads (deadlineMs : Int) : Leads c (dispose c deadlineMs) := by
  unfold dispose
  split
  · exact .frame h rfl
  rename_i running
  have open_ : c.control.returned = false := notReturned (eq_false_of_ne_true running)
  refine .via h (fun h => awaitSpawnLeads h rfl) ?_
  calc _ = { c.control with returned := false } := rfl
    _ = { c.control with returned := c.control.returned } := by rw [open_]

end

theorem racingRunning {race settled} (racing : c.phase = some (.racing race settled)) :
    c.control.returned = false := by
  show (c.phase == some .returned) = false
  rw [racing]
  rfl

theorem settleRaceLeads (h : c.control.Sound) (race : Race) : Leads c (settleRace c race) := by
  unfold settleRace
  split
  · rename_i racing
    have phased : Leads c (setPhase c (.racing race true)) := .frame h (setPhaseControl _ (racingRunning racing) (by simp))
    exact phased.trans (pushLeads phased.sound _ ⟨by simp,by simp,by simp⟩)
  · exact .frame h rfl

theorem resumeDisposeLeads (h : c.control.Sound) : Leads c (resumeDispose c) := by
  unfold resumeDispose
  split
  · exact awaitRotationLeads h (racingRunning ‹_›)
  · exact handOverLeads h (racingRunning ‹_›)
  · exact .frame h rfl

theorem runOpLeads (h : c.control.Sound) (op : Op) : Leads c (runOp c op) := by
  cases op with
  | publish input => exact publishLeads h input
  | publishReserved input => exact publishReservedLeads h input
  | beginDisposeDrain => exact .frame h rfl
  | dispose deadlineMs => exact disposeLeads h deadlineMs
  | setRetention retentionMs => exact .frame h rfl

theorem runTaskAdvances (h : c.control.Sound) (free : c.jobs = []) {action} (ran : runTask c action = some d) :
    Advances c d := by
  cases taskRan ran with
  | enter => exact (pushLeads h _ ⟨by simp,by simp,by simp⟩).advances
  | message response => exact messageAdvances h free _ response
  | transportError id detail => exact (onTransportErrorLeads h id detail).advances
  | @readyTimeout id g found =>
    exact (Leads.via h (finishFailedLeads _ · _ none) (timerControl found { g with readyTimer := none } rfl)).advances
  | @closeTimeout id g found =>
    exact (Leads.via h (closeDoneLeads · id) (timerControl found { g with closeTimer := none } rfl)).advances
  | retryTimeout found => exact (onRetryTimerLeads h _ _).advances
  | respawnTimeout => exact (onRespawnTimerLeads h).advances
  | watchdogTimeout => exact (onWatchdogTimerLeads h).advances
  | @raceTimeout race racing =>
    have phased : Leads c (setPhase c (.racing race true)) := .frame h (setPhaseControl _ (racingRunning racing) (by simp))
    exact (phased.trans (pushLeads phased.sound _ ⟨by simp,by simp,by simp⟩)).advances

theorem runJobLeads {job rest} (h : c.control.Sound) (queued : c.jobs = job::rest) :
    Leads c (runJob { c with jobs := rest } job) := by
  have popped : Leads c { c with jobs := rest } := by
    refine ⟨h.jobs rest (fun other member => .inl ?_),.refl⟩
    show other ∈ c.jobs
    rw [queued]
    exact .tail _ member
  have head : job ∈ c.control.jobs := by
    show job ∈ c.jobs
    rw [queued]
    exact .head _
  refine popped.trans ?_
  cases job with
  | caller => exact .frame popped.sound rfl
  | spawned purpose id ok =>
    cases purpose with
    | activate => exact resumeActivationLeads _ popped.sound ok (fun done => absurd (done ▸ head) (h.quiet id))
    | rotate => exact resumeRotationSpawnedLeads popped.sound ok (h.spawned _ id ok head).2
  | clearSpawnInFlight chain =>
    simp only [runJob]
    split
    · exact .frame popped.sound rfl
    · exact .frame popped.sound rfl
  | closed waiter id =>
    cases waiter with
    | rotate => exact resumeRotationClosedLeads popped.sound (h.closed id head)
    | dispose => exact finalizeLeads popped.sound
  | raced race => exact settleRaceLeads popped.sound race
  | disposeResume => exact resumeDisposeLeads popped.sound

theorem stepAdvances {ev} (h : Held c) (stepped : step c ev = some d) : Advances c d := by
  rcases h with sound | ⟨id,activating⟩
  · have begun : (begin_ c ev).control = c.control := rfl
    have from_ : ∀ {d}, Advances (begin_ c ev) d → Advances c d := fun a => ⟨a.held,begun ▸ a.steps⟩
    unfold step at stepped
    split at stepped
    · rename_i free
      exact from_ (runTaskAdvances (c := begin_ c ev) sound free stepped)
    · cases stepped
      exact from_ (runOpLeads (c := begin_ c ev) sound _).advances
    · rename_i rest again queued _
      cases stepped
      refine from_ (Leads.advances ⟨?_,.refl⟩)
      refine Control.Sound.jobs (x := (begin_ c ev).control) sound _ (fun other member => ?_)
      rcases List.mem_append.mp member with old | new
      · left
        show other ∈ c.jobs
        rw [queued]
        exact .tail _ old
      · rw [List.eq_of_mem_replicate new]
        exact .inr ⟨by simp,by simp,by simp⟩
    · cases stepped
    · rename_i job rest _ queued _
      cases stepped
      exact from_ (runJobLeads (c := begin_ c ev) sound queued).advances
    · cases stepped
  · have begun : ({ begin_ c ev with jobs := [] } : Client).control.handover = c.control.handover := rfl
    have settled : d = runJob { begin_ c ev with jobs := [] } (.spawned .activate id true) := by
      unfold step at stepped
      rw [activating.only] at stepped
      split at stepped <;> simp_all
    subst settled
    have resumed := resumeActivationLeads (c := { begin_ c ev with jobs := [] }) id activating.sound true
      (fun _ => ⟨?_,activating.idle,activating.still,activating.quiet⟩)
    · exact ⟨.inl resumed.sound,begun ▸ resumed.steps⟩
    · have ready := activating.ready
      cases found : c.generation id with
      | none => simp [Client.hasStatus,found] at ready
      | some g => exact ⟨_,workersGeneration (c := c) found⟩

theorem startSound (rotationByteBudget : Nat) (retentionMs : Option Int) (now : Int) :
    (Client.start rotationByteBudget retentionMs now).control.Sound := by
  constructor <;> simp [Client.control,Client.start,Client.generation]

def SingleWriter (trace : List Effect) : Prop :=
  ∀ newer older generation seq timestamp now retentionMs,
    trace = newer ++ .write generation seq timestamp now retentionMs::older →
    ∀ other timestamp' now' retentionMs', .write other seq timestamp' now' retentionMs' ∈ older →
      other ≠ generation → .terminated other ∈ older

theorem singleWriterOf {trace} (separated : Handover.Separated (trace.filterMap logged)) :
    SingleWriter trace := by
  intro newer older generation seq timestamp now retentionMs split other timestamp' now' retentionMs' earlier ne
  have written : .wrote other seq ∈ older.filterMap logged := List.mem_filterMap.mpr ⟨_,earlier,rfl⟩
  have past : HandoverEntry.terminated other ∈ older.filterMap logged :=
    separated (newer.filterMap logged) _ generation seq (by simp [split,logged]) other seq written ne
  obtain ⟨effect,member,its⟩ := List.mem_filterMap.mp past
  cases effect with
  | terminated id =>
    cases its
    exact member
  | init | write | close | settled => cases its

theorem payloadSingleWriter (reach : machine.Reachable c) : SingleWriter c.trace := by
  obtain ⟨start,⟨rotationByteBudget,retentionMs,now,rfl⟩,run⟩ := reach
  have held : Held c ∧ Handover.Steps
      (Client.start rotationByteBudget retentionMs now).control.handover c.control.handover := by
    refine run.keeps (P := fun d => Held d ∧ Handover.Steps _ d.control.handover)
      ⟨.inl (startSound rotationByteBudget retentionMs now),.refl⟩ ?_
    intro d ev e before _ stepped
    have advanced := stepAdvances before.1 stepped
    exact ⟨advanced.held,before.2.trans advanced.steps⟩
  refine singleWriterOf (held.2.exclusive ⟨fun _ => rfl,?_⟩ ?_).2
  · intro w k member
    cases member
  · intro newer older w k split
    simp [Control.handover,Client.control,Client.start] at split

def immediate (action : Action) : Event := ⟨0,[],action⟩

def rotatedOut : List Event :=
  [immediate .enter,immediate (.op (.publish ⟨"a",0,100,100⟩)),immediate (.op (.publish ⟨"b",0,100,100⟩)),
    immediate (.leave 0),immediate (.message 1 .ready),immediate .job,immediate .job,
    immediate (.message 2 .ready),immediate .job,immediate (.message 1 .closed),immediate .job]

theorem payloadSingleWriterRotated : ∃ c, machine.run (.start 150 none 0) rotatedOut = some c ∧
    .write 1 1 0 0 none ∈ c.trace ∧ .write 2 1 0 0 none ∈ c.trace ∧ SingleWriter c.trace :=
  ⟨_,rfl,by decide,by decide,payloadSingleWriter
    (Machine.runReachable (s := .start 150 none 0) rotatedOut ⟨150,none,0,rfl⟩ rfl)⟩

end Clankermux.PayloadWriteClient
