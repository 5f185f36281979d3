import Clankermux.PayloadControl

/-! Every function of the client moves its control soundly and along the steps of a
hand-over. -/
namespace Clankermux.PayloadWriteClient
open InsertionMap

structure Leads (c d : Client) : Prop where
  sound : d.control.Sound
  steps : Handover.Steps c.control.handover d.control.handover

variable {c d e : Client} {id seq : Nat} {g : GenerationState}

theorem Leads.frame (h : c.control.Sound) (same : d.control = c.control) : Leads c d :=
  ⟨same ▸ h,same ▸ .refl⟩

theorem Leads.trans (first : Leads c d) (second : Leads d e) : Leads c e :=
  ⟨second.sound,first.steps.trans second.steps⟩

theorem Leads.via (h : c.control.Sound) (rest : d.control.Sound → Leads d e) (same : d.control = c.control) :
    Leads c e :=
  (Leads.frame h same).trans (rest (same ▸ h))

theorem Leads.foldl {α : Type} {f : Client → α → Client} (each : ∀ c a, c.control.Sound → Leads c (f c a))
    (h : c.control.Sound) (l : List α) : Leads c (l.foldl f c) := by
  induction l generalizing c with
  | nil => exact .frame h rfl
  | cons a rest ih =>
    have first := each c a h
    exact first.trans (ih first.sound)

theorem workersGeneration (found : c.generation id = some g) : c.control.workers id = some (worker g) := by
  simp [Client.control,found]

theorem setGenerationControl (c : Client) (id : Nat) (g : GenerationState) :
    (c.setGeneration id g).control = c.control.put id (worker g) := by
  have workers : (c.setGeneration id g).control.workers = (c.control.put id (worker g)).workers := by
    funext other
    by_cases same : other = id
    · subst same
      simp [Client.control,Client.setGeneration,Client.generation,Control.put]
    · simp [Client.control,Client.setGeneration,Client.generation,Control.put,getSetOther same,
        Function.update_of_ne same]
  calc (c.setGeneration id g).control
      = { c.control with workers := (c.setGeneration id g).control.workers } := rfl
    _ = c.control.put id (worker g) := by rw [workers]; rfl

theorem putSame {x : Control} {w} (found : x.workers id = some w) : x.put id w = x := by
  have same : Function.update x.workers id (some w) = x.workers := by rw [← found,Function.update_eq_self]
  simp only [Control.put,same]

theorem modifyGenerationControl {f : GenerationState → GenerationState} (same : ∀ g, worker (f g) = worker g) :
    (c.modifyGeneration id f).control = c.control := by
  unfold Client.modifyGeneration
  split
  · rename_i g found
    rw [setGenerationControl,same,putSame (workersGeneration found)]
  · rfl

theorem callControl (c : Client) : c.call.2.control = c.control := by
  unfold Client.call
  split <;> rfl

theorem scheduleRespawnControl (c : Client) : (scheduleRespawn c).control = c.control := by
  unfold scheduleRespawn
  repeat' split
  all_goals rfl

theorem onWriterFatalControl (c : Client) (detail : String) : (onWriterFatal c detail).control = c.control := by
  unfold onWriterFatal
  split <;> rfl

theorem onSpawnFailureControl (c : Client) : (onSpawnFailure c).control = c.control := by
  exact scheduleRespawnControl _

theorem settleControl (c : Client) (seq : Nat) (outcome : SettlementOutcome) (errorClass : Option ErrorClass)
    (detail : Option String) : (settle c seq outcome errorClass detail).control = c.control := by
  unfold settle
  split <;> rfl

theorem expireControl (c : Client) (seq : Nat) : (expire c seq).control = c.control := by
  unfold expire
  rw [settleControl]
  rfl

theorem killGenerationControl (found : c.generation id = some g) (alive : g.status ≠ .dead) :
    (killGeneration c id).control = c.control.terminate id (worker g) := by
  let dead : GenerationState := { g with status := .dead,readyTimer := none,closeTimer := none }
  rw [killGenerationEq found alive]
  calc ({ c.setGeneration id dead with
        active := if c.active = some id then none else c.active,trace := .terminated id::c.trace } : Client).control
      = { (c.setGeneration id dead).control with
          active := if c.active = some id then none else c.active
          log := .terminated id::c.control.log } := rfl
    _ = c.control.terminate id (worker g) := by rw [setGenerationControl]; rfl

theorem killGenerationSteps (c : Client) (id : Nat) :
    Handover.Steps c.control.handover (killGeneration c id).control.handover := by
  cases found : c.generation id with
  | none => simp only [killGeneration,found]; exact .refl
  | some g =>
    by_cases dead : g.status = .dead
    · simp only [killGeneration,found,if_pos dead]; exact .refl
    · rw [killGenerationControl found dead]
      exact .single (.terminate id)

theorem killGenerationLeads (h : c.control.Sound) (started : ∀ w, c.control.workers id = some w → w.status ≠ .starting) :
    Leads c (killGeneration c id) := by
  refine ⟨?_,killGenerationSteps c id⟩
  cases found : c.generation id with
  | none => simpa only [killGeneration,found] using h
  | some g =>
    by_cases dead : g.status = .dead
    · simpa only [killGeneration,found,if_pos dead] using h
    · rw [killGenerationControl found dead]
      exact h.terminate (workersGeneration found) (started _ (workersGeneration found))

theorem killGenerationTerminates (h : c.control.Sound) (found : c.generation id = some g) :
    .terminated id ∈ (killGeneration c id).control.log := by
  by_cases dead : g.status = .dead
  · have past := h.dead id _ (workersGeneration found) dead
    simpa only [killGeneration,found,if_pos dead] using past
  · rw [killGenerationControl found dead]
    exact .head _

theorem killGenerationDead (found : c.generation id = some g) :
    ∃ w, (killGeneration c id).control.workers id = some w ∧ w.status = .dead := by
  by_cases dead : g.status = .dead
  · exact ⟨worker g,by simpa only [killGeneration,found,if_pos dead] using workersGeneration found,dead⟩
  · exact ⟨{ worker g with status := .dead },by simp [killGenerationControl found dead,Control.terminate,Control.put],rfl⟩

theorem onGenerationDiedLeads (h : c.control.Sound)
    (started : ∀ w, c.control.workers id = some w → w.status ≠ .starting) : Leads c (onGenerationDied c id) := by
  unfold onGenerationDied
  have killed := killGenerationLeads h started
  simp only
  split
  · exact killed
  · exact killed.trans (.frame killed.sound (scheduleRespawnControl _))

theorem pushLeads (h : c.control.Sound) (job : Job) (ok : c.control.Pushable job) : Leads c (c.enqueue job) :=
  ⟨h.push ok,.refl⟩

theorem finishFailedLeads (id : Nat) (h : c.control.Sound) (detail : String) (errorClass : Option ErrorClass) :
    Leads c (finish c id false detail errorClass) := by
  unfold finish
  split
  · exact .frame h rfl
  rename_i g found
  split
  · exact .frame h rfl
  rename_i unfinished
  have its := workersGeneration found
  let settled : GenerationState := { g with finished := true,readyTimer := none }
  let done : Client := { c.setGeneration id settled with spawning := false }
  have there : done.generation id = some settled := by simp [done,Client.setGeneration,Client.generation]
  have doneControl : done.control = { c.control.put id (worker settled) with spawning := false } := by
    calc done.control = { (c.setGeneration id settled).control with spawning := false } := rfl
      _ = _ := by rw [setGenerationControl]
  have unchanged : done.control.handover = c.control.handover := by rw [doneControl]; rfl
  -- The kill comes right behind, so the two are one move of the control.
  have killed : Leads c (killGeneration done id) := by
    refine ⟨?_,unchanged ▸ killGenerationSteps done id⟩
    rcases h.unfinished id _ its (eq_false_of_ne_true unfinished) with starting | returned
    · have alive : settled.status ≠ .dead := by
        intro dead
        have both : GenerationStatus.starting = .dead := starting.symm.trans dead
        cases both
      rw [killGenerationControl there alive,doneControl]
      simp only [Control.terminate,Control.put,Function.update_idem]
      exact (Control.Sound.logs _ h).settle (v := { worker settled with status := .dead }) its starting (by simp)
        (fun _ => .head _) rfl rfl
    · have dead : settled.status = .dead := h.past returned id _ its
      have still : killGeneration done id = done := by simp only [killGeneration,there,if_pos dead]
      rw [still,doneControl]
      exact h.settleReturned its returned dead
  have failed : ∀ c' : Client, c'.control = (killGeneration done id).control →
      Leads c (c'.enqueue (.spawned g.purpose id false)) := by
    intro c' same
    have moved := killed.trans (.frame killed.sound same)
    refine moved.trans (pushLeads moved.sound _ ⟨by simp,?_,by simp⟩)
    intro purpose other ok its'
    cases its'
    obtain ⟨w,there,past⟩ := killGenerationDead there
    rw [same]
    refine ⟨killed.sound.fresh id w there,fun v its' starting => ?_⟩
    cases there.symm.trans its'
    rw [past] at starting
    cases starting
  simp only [Bool.false_eq_true,if_false]
  split
  · exact failed _ (onWriterFatalControl _ _)
  · exact failed _ (onSpawnFailureControl _)

theorem spawnGenerationLeads (h : c.control.Sound) (none : ∀ id w, c.control.workers id = some w → w.status ≠ .starting)
    (running : c.control.returned = false) (purpose : Purpose)
    (activate : purpose = .activate → c.control.active = .none ∧ c.control.rotation = .none)
    (rotate : purpose = .rotate → ∃ r, c.control.rotation = some r ∧ r.replacement = c.control.nextGeneration ∧
      r.spawned = false) : Leads c (spawnGeneration c purpose) := by
  unfold spawnGeneration
  let asked : Client := { c with spawning := true,nextGeneration := c.nextGeneration + 1 }
  simp only
  split
  · -- The transport could not be made: the id is used up, and nothing lives under it.
    have absent : c.control.workers c.nextGeneration = .none := by
      cases there : c.control.workers c.nextGeneration with
      | none => rfl
      | some w => exact absurd (h.fresh _ w there) (Nat.lt_irrefl _)
    have moved := h.pointers none c.active false c.rotation h.known h.retiring h.alone h.older
    have counted : Control.Sound { c.control with spawning := false,nextGeneration := c.nextGeneration + 1 } :=
      { moved with
        fresh := fun other w its => Nat.lt_succ_of_lt (h.fresh other w its)
        starting := fun other w its begun => absurd begun (none other w its)
        spawned := fun purpose other ok member =>
          ⟨Nat.lt_succ_of_lt (h.spawned purpose other ok member).1,(h.spawned purpose other ok member).2⟩ }
    have called : ({ asked.call.2 with spawning := false } : Client).control =
        { c.control with spawning := false,nextGeneration := c.nextGeneration + 1 } :=
      congrArg (fun x : Control => { x with spawning := false }) (callControl asked)
    have failed := (onSpawnFailureControl { asked.call.2 with spawning := false }).trans called
    have first : Leads c (onSpawnFailure { asked.call.2 with spawning := false }) :=
      ⟨failed ▸ counted,failed ▸ .refl⟩
    refine first.trans (pushLeads first.sound _ ⟨by simp,?_,by simp⟩)
    intro p other ok its
    cases its
    rw [failed]
    exact ⟨Nat.lt_succ_self _,fun w its => absurd (absent.symm.trans its) (by simp)⟩
  · let begun := asked.call.2.setGeneration c.nextGeneration (newGeneration purpose)
    have started : begun.control = c.control.start purpose := by
      rw [setGenerationControl,callControl]
      rfl
    have posted : (begun.post (.init c.nextGeneration)).2.control = c.control.start purpose :=
      (callControl _).trans started
    have first : Leads c (begun.post (.init c.nextGeneration)).2 :=
      ⟨posted ▸ h.start none running activate rotate,posted ▸ .refl⟩
    split
    · exact first.trans (finishFailedLeads _ first.sound _ _)
    · exact first

theorem notReturned (running : c.disposed = false) : c.control.returned = false := by
  have absent : c.disposal = none := by simpa [Client.disposed] using running
  simp [Client.control,Client.phase,absent]

theorem ensureActiveGenerationLeads (h : c.control.Sound) : Leads c (ensureActiveGeneration c) := by
  unfold ensureActiveGeneration
  split
  · exact .frame h rfl
  rename_i running
  split
  · exact .frame h rfl
  rename_i idle
  split
  · exact .frame h rfl
  simp only [Bool.or_eq_true,not_or,Bool.not_eq_true] at running idle
  obtain ⟨⟨inactive,unspawned⟩,still⟩ := idle
  have active : c.active = none := by simpa using inactive
  have rotation : c.rotation = none := by simpa [Client.rotating] using still
  have quiet : ∀ id w, c.control.workers id = some w → w.status ≠ .starting := by
    intro id w its begun
    cases (h.starting id w its begun).spawning.symm.trans unspawned
  have spawned := spawnGenerationLeads h quiet (notReturned running.1) .activate
    (fun _ => ⟨active,rotation⟩) (by simp)
  exact spawned.trans (.frame spawned.sound rfl)

theorem rotateLeads (h : c.control.Sound) (running : c.disposed = false) (fed : c.active = some id)
    (exists_ : c.generation id = some g) : Leads c (rotate c id) := by
  unfold rotate
  split
  · exact .frame h rfl
  rename_i still
  have free : c.rotation = none := by simpa [Client.rotating] using still
  have quiet : ∀ other w, c.control.workers other = some w → w.status ≠ .starting :=
    fun other w its => h.noneStarting (show c.control.active.isSome by simp [Client.control,fed]) its
  let retiring : Client := { c with active := none,rotation := some ⟨id,c.nextGeneration,false⟩ }
  have below : id < c.nextGeneration := h.fresh id _ (workersGeneration exists_)
  have moved : Leads c retiring := by
    refine ⟨h.pointers quiet none c.spawning (some ⟨id,c.nextGeneration,false⟩) (by simp) ?_ (fun _ => rfl) ?_,?_⟩
    · intro r its
      cases its
      exact ⟨_,workersGeneration exists_⟩
    · intro r its
      cases its
      exact below
    · have free_ : c.control.handover.outgoing = none := by
        show c.rotation.map _ = none
        rw [free]; rfl
      exact .single (.retire id fed free_)
  exact moved.trans (spawnGenerationLeads moved.sound quiet (notReturned running) _ (by simp)
    (fun _ => ⟨_,rfl,rfl,rfl⟩))

theorem maybeRotateLeads (h : c.control.Sound) : Leads c (maybeRotate c) := by
  unfold maybeRotate
  split
  · exact .frame h rfl
  rename_i running
  split
  · exact .frame h rfl
  split
  · exact .frame h rfl
  rename_i id fed
  split
  · rename_i past
    cases found : c.generation id with
    | none => simp [found] at past
    | some g =>
      simp only [Bool.or_eq_true,not_or,Bool.not_eq_true] at running
      exact rotateLeads h running.1.1 fed found
  · exact .frame h rfl

theorem readyActiveSome (its : readyActive c = some id) :
    c.active = some id ∧ c.hasStatus id .ready = true ∧ c.rotation = none := by
  obtain ⟨fed,ready⟩ := Option.filter_eq_some_iff.mp its
  simp only [Bool.and_eq_true,Client.rotating] at ready
  exact ⟨fed,ready.1,by simpa using ready.2⟩

theorem writeControl (same : d.control = c.control) (id seq : Nat) (timestamp now : Int) (retentionMs : Option Int) :
    (d.post (.write id seq timestamp now retentionMs)).2.control =
      { c.control with log := .wrote id seq::c.control.log } := by
  calc (d.post (.write id seq timestamp now retentionMs)).2.control
      = { d.control with log := .wrote id seq::d.control.log } := callControl _
    _ = _ := by rw [same]

section
variable (h : c.control.Sound)
include h

theorem writeLeads (fed : c.active = some id) (same : d.control = c.control) (seq : Nat)
    (timestamp now : Int) (retentionMs : Option Int) :
    Leads c (d.post (.write id seq timestamp now retentionMs)).2 := by
  have posted := writeControl same id seq timestamp now retentionMs
  refine ⟨?_,posted ▸ .single (.write id seq fed)⟩
  rw [posted]
  exact { h with
    dead := fun other w its past => .tail _ (h.dead other w its past)
    starting := fun other w its begun =>
      have s := h.starting other w its begun
      { s with }
    closed := fun other member => .tail _ (h.closed other member) }

theorem trySendLeads (seq : Nat) : Leads c (trySend c seq) := by
  unfold trySend
  split
  · exact .frame h rfl
  rename_i e _
  split
  · exact .frame h rfl
  split
  · exact .frame h rfl
  rename_i id its
  have fed := (readyActiveSome its).1
  let sent : RegistryEntry := { handed e id c.now with everSent := true }
  let handed_ : Client := ((c.setEntry seq sent).post (.write id seq e.timestamp c.now c.retentionMs)).2
  have posted : Leads c handed_ :=
    writeLeads h fed (d := c.setEntry seq sent) rfl seq e.timestamp c.now c.retentionMs
  simp only
  split
  · have started : ∀ w, handed_.control.workers id = some w → w.status ≠ .starting := by
      intro w found
      rw [show handed_.control = _ from writeControl rfl id seq e.timestamp c.now c.retentionMs] at found
      exact h.activeStarted fed found
    exact posted.trans (.via posted.sound (onGenerationDiedLeads · started) rfl)
  · have charged : (handed_.modifyGeneration id
        (fun g => { g with publishedBytes := g.publishedBytes + e.transportBytes })).control = handed_.control :=
      modifyGenerationControl (fun _ => rfl)
    have moved := posted.trans (.frame posted.sound charged)
    exact moved.trans (maybeRotateLeads moved.sound)

theorem sendOrReplayLeads (seq : Nat) (e : RegistryEntry) : Leads c (sendOrReplay c seq e) := by
  unfold sendOrReplay
  split
  · exact .via h (trySendLeads · seq) rfl
  · exact trySendLeads h seq

theorem flushBufferedLeads : Leads c (flushBuffered c) := by
  unfold flushBuffered
  split
  · exact .frame h rfl
  split
  · exact .frame h rfl
  refine .foldl (fun c seq h => ?_) h _
  unfold flushEntry
  split
  · exact .frame h rfl
  split
  · exact .frame h rfl
  split
  · exact .frame h rfl
  split
  · exact .frame h (expireControl c seq)
  · exact sendOrReplayLeads h seq _

theorem replayToActiveLeads : Leads c (replayToActive c) := by
  refine .foldl (fun c seq h => ?_) h _
  unfold replayEntry
  split
  · exact .frame h rfl
  rename_i e _
  split
  · exact .frame h rfl
  split
  · exact .frame h (expireControl c seq)
  · exact .via h (sendOrReplayLeads · seq e) rfl

end

theorem registerControl (c : Client) (input : EntryInput) : (register c input).control = c.control := by
  unfold register startWatchdog
  simp only
  split <;> rfl

theorem publishLeads (h : c.control.Sound) (input : EntryInput) : Leads c (publish c input).2 := by
  unfold publish
  split
  · exact .frame h rfl
  · have registered : Leads c (register c input) := .frame h (registerControl c input)
    have ensured := registered.trans (ensureActiveGenerationLeads registered.sound)
    exact ensured.trans (trySendLeads ensured.sound _)

theorem publishReservedLeads (h : c.control.Sound) (input : EntryInput) : Leads c (publishReserved c input).2 := by
  have registered : Leads c (register c input) := .frame h (registerControl c input)
  unfold publishReserved
  split
  · exact .frame h rfl
  split
  · exact registered
  · have ensured := registered.trans (ensureActiveGenerationLeads registered.sound)
    exact ensured.trans (trySendLeads ensured.sound _)

theorem handleResultControl (id ackGeneration : Nat) (c : Client) (result : Ack) :
    (handleResult id ackGeneration c result).control = c.control := by
  unfold handleResult
  split
  · rfl
  split
  · rfl
  split
  · exact settleControl _ _ _ _ _
  split
  · rfl
  · exact onWriterFatalControl c _
  · exact settleControl _ _ _ _ _

theorem handleAckLeads (h : c.control.Sound) (id ackGeneration : Nat) (results : List Ack) :
    Leads c (handleAck c id ackGeneration results) := by
  have resumed : (resumeAdmission { c with lastAckAt := c.now }).control = c.control := by
    unfold resumeAdmission
    split <;> rfl
  have started : Leads c (resumeAdmission { c with lastAckAt := c.now }) := .frame h resumed
  have handled := started.trans (.foldl (fun c result h => .frame h (handleResultControl id ackGeneration c result))
    started.sound results)
  unfold handleAck
  simp only
  split
  · exact handled.trans (flushBufferedLeads handled.sound)
  · exact handled

theorem closeDoneLeads (h : c.control.Sound) (id : Nat) : Leads c (closeDone c id) := by
  unfold closeDone
  split
  · exact .frame h rfl
  rename_i g found
  split
  · exact .frame h rfl
  rename_i waiter waiting
  split
  · exact .frame h rfl
  have its := workersGeneration found
  let settled : GenerationState := { g with closeSettled := true,closeTimer := none }
  have same : (c.setGeneration id settled).control = c.control := by
    rw [setGenerationControl]
    exact putSame its
  have there : (c.setGeneration id settled).generation id = some settled := by
    simp [Client.setGeneration,Client.generation]
  have first : Leads c (c.setGeneration id settled) := .frame h same
  have started : ∀ w, (c.setGeneration id settled).control.workers id = some w → w.status ≠ .starting := by
    intro w found' begun
    rw [same] at found'
    cases its.symm.trans found'
    have closed := (h.starting id _ its begun).open_
    simp [worker,waiting] at closed
  have killed := first.trans (killGenerationLeads first.sound started)
  exact killed.trans (pushLeads killed.sound _ ⟨by simp,by simp,fun _ its' => by
    cases its'
    exact killGenerationTerminates first.sound there⟩)

theorem closeGenerationLeads (h : c.control.Sound) (started : ∀ g, c.generation id = some g → g.status ≠ .starting)
    {deadlineMs : Int} (known : (c.generation id).isSome ∨ 0 < deadlineMs) (waiter : CloseWaiter) :
    Leads c (closeGeneration c id deadlineMs waiter) := by
  cases found : c.generation id with
  | none =>
    have grace : 0 < deadlineMs := known.resolve_left (by simp [found])
    have posted : Leads c (c.post (.close id)).2 := .frame h (callControl { c with trace := .close id::c.trace })
    have same : closeGeneration c id deadlineMs waiter =
        if (c.post (.close id)).1 = true then closeDone (c.post (.close id)).2 id else (c.post (.close id)).2 := by
      simp [closeGeneration,Client.hasStatus,Client.modifyGeneration,found,Int.not_le.mpr grace]
    rw [same]
    split
    · exact posted.trans (closeDoneLeads posted.sound id)
    · exact posted
  | some g =>
  have its := workersGeneration found
  have begun : ∀ w, c.control.workers id = some w → w.status ≠ .starting := by
    intro w found'
    cases its.symm.trans found'
    exact started g found
  unfold closeGeneration
  split
  · rename_i past
    have dead : g.status = .dead := by simpa [Client.hasStatus,found] using past
    exact pushLeads h _ ⟨by simp,by simp,fun _ its' => by cases its'; exact h.dead id _ its dead⟩
  rename_i alive
  have alive : g.status ≠ .dead := by simpa [Client.hasStatus,found] using alive
  split
  · have killed := killGenerationLeads h begun
    exact killed.trans (pushLeads killed.sound _ ⟨by simp,by simp,fun _ its' => by
      cases its'
      exact killGenerationTerminates h found⟩)
  · let closing : GenerationState :=
      { g with onClosed := some waiter,closeSettled := false,status := .closing,closeTimer := some deadlineMs }
    have moved : Leads c (c.setGeneration id closing) := by
      refine ⟨?_,by rw [setGenerationControl]; exact .refl⟩
      rw [setGenerationControl]
      exact h.put its (started g found) (by simp [worker]) (by simp [worker])
        (fun dead => absurd dead alive) rfl (fun _ => .inl rfl)
    have same : c.modifyGeneration id (fun g => { g with onClosed := some waiter,closeSettled := false
                                                         status := .closing,closeTimer := some deadlineMs }) =
        c.setGeneration id closing := by
      simp only [Client.modifyGeneration,found]
      rfl
    simp only [same]
    have posted := moved.trans (.frame moved.sound
      (callControl { c.setGeneration id closing with trace := .close id::c.trace }))
    split
    · exact posted.trans (closeDoneLeads posted.sound id)
    · exact posted

theorem racedByLeads (h : c.control.Sound) (race : Race) : Leads c (racedBy c race) := by
  unfold racedBy
  split
  · exact pushLeads h _ ⟨by simp,by simp,by simp⟩
  · exact .frame h rfl

theorem resumeActivationLeads (id : Nat) (h : c.control.Sound) (ok : Bool)
    (free : ok = true → c.control.Known id ∧ c.active = none ∧ c.rotation = none ∧
      ∀ id w, c.control.workers id = some w → w.status ≠ .starting) :
    Leads c (resumeActivation c id ok) := by
  have activated : Leads c (if ok = true then flushBuffered { c with active := some id } else c) := by
    split
    · rename_i done
      obtain ⟨known,idle,still,quiet⟩ := free done
      have fed : Leads c { c with active := some id } := by
        refine ⟨h.pointers quiet (some id) c.spawning c.rotation (fun _ its => Option.some.inj its ▸ known) h.retiring
          (fun rotating => ?_) h.older,?_⟩
        · rw [still] at rotating; cases rotating
        · have outgoing : c.control.handover.outgoing = none := by
            show c.rotation.map _ = none
            rw [still]; rfl
          have next : Handover.Step c.control.handover ({ c with active := some id } : Client).control.handover := by
            have promoted := Handover.Step.promote (h := c.control.handover) id idle (fun o its => by
              rw [outgoing] at its; cases its)
            rw [← outgoing] at promoted
            exact promoted
          exact .single next
      exact fed.trans (flushBufferedLeads fed.sound)
    · exact .frame h rfl
  have pushed := activated.trans (pushLeads activated.sound (.clearSpawnInFlight id) ⟨by simp,by simp,by simp⟩)
  exact pushed.trans (racedByLeads pushed.sound _)

theorem endRotationLeads {r : Rotation} (ended : Leads c { d with rotation := none }) : Leads c (endRotation d r) := by
  unfold endRotation
  simp only
  split
  · have replayed := ended.trans (replayToActiveLeads ended.sound)
    exact replayed.trans (racedByLeads replayed.sound _)
  · exact ended.trans (racedByLeads ended.sound _)

theorem resumeRotationSpawnedLeads (h : c.control.Sound) (ok : Bool)
    (started : ∀ w, c.control.workers id = some w → w.status ≠ .starting) :
    Leads c (resumeRotationSpawned c id ok) := by
  unfold resumeRotationSpawned
  split
  · exact .frame h rfl
  rename_i r rotating
  split
  · exact .frame h rfl
  rename_i mine
  simp only [not_or,Decidable.not_not] at mine
  obtain ⟨rfl,waiting⟩ := mine
  have idle : c.active = none := h.alone (show c.rotation.isSome by simp [rotating])
  have quiet := h.quietRotating rotating (.inr started)
  have older := h.older r rotating
  split
  · have spawned : Leads c { c with rotation := some { r with spawned := true } } := by
      refine ⟨h.pointers quiet c.active c.spawning _ h.known (fun r' its => by cases its; exact h.retiring r rotating)
        (fun _ => idle) (fun r' its => by cases its; exact older),?_⟩
      have same : ({ c with rotation := some { r with spawned := true } } : Client).control.handover =
          c.control.handover := by
        simp [Control.handover,Client.control,rotating]
      rw [same]
    refine spawned.trans (closeGenerationLeads spawned.sound ?_ (.inr (by decide)) .rotate)
    intro g found
    exact quiet _ _ (workersGeneration found)
  · refine endRotationLeads ?_
    split
    · rename_i dead
      refine ⟨h.pointers quiet c.active c.spawning none h.known (by simp) (by simp) (by simp),.single (.forget (fun o its => ?_))⟩
      have same : o = r.outgoing := by simpa [Control.handover,Client.control,rotating] using its.symm
      subst same
      cases found : c.generation r.outgoing with
      | none => simp [Client.hasStatus,found] at dead
      | some g =>
        have its : g.status = .dead := by simpa [Client.hasStatus,found] using dead
        exact h.dead _ _ (workersGeneration found) its
    · refine ⟨h.pointers quiet (some r.outgoing) c.spawning none
        (fun _ its => Option.some.inj its ▸ h.retiring r rotating) (by simp) (by simp) (by simp),.single (.restore r.outgoing idle ?_)⟩
      simp [Control.handover,Client.control,rotating]

theorem resumeRotationClosedLeads (h : c.control.Sound) (past : .terminated id ∈ c.control.log) :
    Leads c (resumeRotationClosed c id) := by
  unfold resumeRotationClosed
  split
  · exact .frame h rfl
  rename_i r rotating
  split
  · exact .frame h rfl
  rename_i mine
  simp only [not_or,Decidable.not_not,Bool.not_eq_true',Bool.not_eq_false] at mine
  obtain ⟨rfl,spawned⟩ := mine
  have idle : c.active = none := h.alone (show c.rotation.isSome by simp [rotating])
  have quiet := h.quietRotating rotating (.inl spawned)
  have outgoing : ∀ o, c.control.handover.outgoing = some o → .terminated o ∈ c.control.handover.log := by
    intro o its
    have same : o = r.outgoing := by simpa [Control.handover,Client.control,rotating] using its.symm
    exact same ▸ past
  split
  · refine endRotationLeads ?_
    let dropped : Client := { c with active := none }
    have same : ({ scheduleRespawn dropped with rotation := none } : Client).control =
        { c.control with active := none,rotation := none } :=
      congrArg (fun x : Control => { x with rotation := none }) (scheduleRespawnControl dropped)
    refine ⟨same ▸ h.pointers quiet none c.spawning none (by simp) (by simp) (by simp) (by simp),?_⟩
    rw [same]
    have forgot := Handover.Step.forget outgoing
    have unchanged : ({ c.control.handover with outgoing := none } : Handover Nat Nat) =
        ({ c.control with active := none,rotation := none } : Control).handover := by
      simp [Control.handover,Client.control,idle]
    exact .single (unchanged ▸ forgot)
  · rename_i ready
    have known : c.control.Known r.replacement := by
      cases found : c.generation r.replacement with
      | none => simp [Client.hasStatus,found] at ready
      | some g => exact ⟨_,workersGeneration found⟩
    exact endRotationLeads ⟨h.pointers quiet (some r.replacement) c.spawning none
      (fun _ its => Option.some.inj its ▸ known) (by simp) (by simp) (by simp),
      .single (.promote r.replacement idle outgoing)⟩

end Clankermux.PayloadWriteClient
