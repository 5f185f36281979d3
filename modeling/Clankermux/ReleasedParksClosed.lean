import Clankermux.ReleasedParks

/-! A close is final where nothing else that is under way writes over it. -/
namespace Clankermux.ReleasedParks

structure Retried (w : World) : Prop where
  stays : w.entry.state = .reconciling ∧ w.entry.pending = some .close
  pass : w.work = false → (step w .reconcile).map World.queue = some (w.queue ++ [.retry false])
  sends : ∀ closing rest, w.queue = .retry closing::rest → w.running = none →
    (step w .start).bind World.running = some ⟨.retry closing,.retryClose,none⟩

structure Final (w : World) : Prop where
  unclaimable : w.closed = true → w.entry.held = true → w.entry.state ≠ .released
  retried : w.closed = true → w.entry.held = true → Retried w
  resolved : w.resolved = true → w.entry.held = false ∨ w.db.finished = true
  file : w.file = false → w.confirmed = true
  agrees : w.entry.held = true → w.entry.state = .released → w.db.leased = true → w.db.row = some .released

def replaces (entry : ReleasedEntry) : Await → Answer → Bool
  | .unclaim _,_ => true
  | .forget,answer => answer ≠ .ok true
  | .retryUnclaim _,.ok _ => true
  | .resyncFind,.row (some .released) => true
  | .resyncFind,.row (some (.claimed .own (some claimId))) => entry.claimId = some claimId
  | _,_ => false

def overwrites (w : World) : Event → Bool
  | .resume => match w.running with
    | some ⟨_,await,some answer⟩ => replaces w.entry await answer
    | _ => false
  | .resumeClaim i => match w.claims[i]? with
    | some ⟨_,some answer⟩ => answer ≠ .ok true
    | _ => false
  | _ => false

def frees : Await → Answer → Bool
  | .unclaim _,.ok true => true
  | .retryUnclaim _,.ok true => true
  | .resyncFind,.row (some .released) => true
  | _,_ => false

def available (w : World) : Bool :=
  w.entry.held && (w.entry.state = .released || match w.running with
    | some ⟨_,await,some answer⟩ => frees await answer
    | _ => false)

def takes (w : World) : Event → Bool
  | .answer .lands => match w.running with
    | some ⟨_,.forget,none⟩ => w.db.delete.2
    | some ⟨_,.retryForget,none⟩ => w.db.delete.2
    | _ => false
  | .answerClaim i .lands => match w.claims[i]? with
    | some ⟨claimId,none⟩ => (w.db.claim claimId).2
    | _ => false
  | _ => false

structure Careful (w : World) (event : Event) : Prop where
  kept : w.entry.held = true → w.entry.pending = some .close → overwrites w event = false
  stays : available w = true → takes w event = false

inductive Reached : World → Prop where
  | stored : Reached stored
  | step {w next event} (reached : Reached w) (careful : Careful w event) (stepped : step w event = some next) : Reached next

structure Core (w : World) : Prop where
  pending : w.closed = true → w.entry.held = true → w.entry.state = .reconciling ∧ w.entry.pending = some .close
  closed : w.entry.pending = some .close → w.closed = true
  queued : .retry true ∈ w.queue → w.closed = true
  resolved : w.resolved = true → w.entry.held = false
  file : w.file = false → w.confirmed = true
  agrees : w.entry.held = true → w.entry.state = .released → w.db.leased = true → w.db.row = some .released

structure Running.Sound (held : Bool) (pending : Option PendingParkWrite) (closed confirmed : Bool) (db : Db) (r : Running) : Prop where
  closing : r.await = .retryClose ∨ r.await = .closeLease → held = true → pending = some .close
  called : r.write = .retry true → closed = true
  closes : r.write = .retry true → held = true → r.await = .retryClose ∨ r.await = .closeLease
  freed : ∀ answer, r.answer = some answer → frees r.await answer = true → held = true → db.leased = true → db.row = some .released
  confirmed : ∀ answer, r.answer = some answer → World.confirms r.await.request answer = true → confirmed = true

structure Inv (w : World) : Prop extends Core w where
  running : ∀ r, w.running = some r → r.Sound w.entry.held w.entry.pending w.closed w.confirmed w.db

variable {w next : World} {write : Write} {await : Await}

theorem Core.final (core : Core w) : Final w := by
  refine ⟨fun closed held released => ?_,fun closed held => ⟨core.pending closed held,fun rests => ?_,fun closing rest first idle => ?_⟩,
    fun done => .inl (core.resolved done),core.file,core.agrees⟩
  · have reconciling := (core.pending closed held).1
    cases released.symm.trans reconciling
  · have reconciling := (core.pending closed held).1
    simp [step,reconciling,rests,World.serial]
  · have close := (core.pending closed held).2
    simp [step,idle,first,World.start,World.runPending,close,World.wait]

theorem storedInv : Inv stored := by
  refine ⟨?_,by simp [stored]⟩
  constructor <;> simp [stored]

section
variable (core : Core w)
include core

theorem Core.settle {ok} (gone : ok = true → write = .retry true → w.entry.held = false) : Inv (w.settle write ok) := by
  refine ⟨{ core with resolved := fun done => ?_ },by simp [World.settle]⟩
  simp only [World.settle,Bool.or_eq_true,Bool.and_eq_true,decide_eq_true_eq] at done
  rcases done with before | ⟨well,closing⟩
  · exact core.resolved before
  · exact gone well closing

theorem Core.fails : Inv (w.settle write false) := core.settle (fun never => absurd never (by decide))

theorem Core.wait (closing : await = .retryClose ∨ await = .closeLease → w.entry.held = true → w.entry.pending = some .close)
    (called : write = .retry true → w.closed = true)
    (closes : write = .retry true → w.entry.held = true → await = .retryClose ∨ await = .closeLease) : Inv (w.wait write await) := by
  refine ⟨{ core with },?_⟩
  intro r running
  cases running
  exact ⟨closing,called,closes,by simp,by simp⟩

theorem Core.release (open_ : w.closed = true → w.entry.held = false)
    (row : w.entry.held = true → w.db.leased = true → w.db.row = some .released) : Core { w with entry := w.entry.release } :=
  ⟨fun closed held => absurd (open_ closed) (by simpa [ReleasedEntry.release] using held),by simp [ReleasedEntry.release],core.queued,core.resolved,
    core.file,fun held _ => row held⟩

theorem Core.put (open_ : w.closed = true → w.entry.held = false) {pending} (other : pending ≠ .close) :
    Core { w with entry := { w.entry with pending := some pending } } :=
  ⟨fun closed held => absurd (open_ closed) (by simpa using held),fun close => absurd (Option.some.inj close) other,core.queued,core.resolved,
    core.file,core.agrees⟩

theorem Core.later (open_ : w.closed = true → w.entry.held = false) {pending} (other : pending ≠ .close) :
    Core { w with entry := w.entry.reconcileLater pending } :=
  ⟨fun closed held => absurd (open_ closed) (by simpa [ReleasedEntry.reconcileLater] using held),
    fun close => absurd (Option.some.inj close) other,core.queued,core.resolved,core.file,by simp [ReleasedEntry.reconcileLater]⟩

theorem Core.unindex : Core { w with entry := w.entry.unindex } :=
  ⟨by simp [ReleasedEntry.unindex],core.closed,core.queued,fun _ => rfl,core.file,by simp [ReleasedEntry.unindex]⟩

theorem Core.gone (confirmed : w.confirmed = true) : Core w.gone :=
  ⟨by simp [World.gone,ReleasedEntry.unindex],core.closed,core.queued,fun _ => rfl,fun _ => confirmed,by simp [World.gone,ReleasedEntry.unindex]⟩

theorem Core.runPending (called : write = .retry true → w.closed = true) : Inv (w.runPending write) := by
  have only : ∀ {pending}, w.entry.pending = pending → pending ≠ some .close → write = .retry true → w.entry.held = false := by
    intro pending same other closing
    cases held : w.entry.held with
    | false => rfl
    | true => exact absurd (same.symm.trans (core.pending (called closing) held).2) other
  have waits : ∀ {pending} {await : Await}, w.entry.pending = some pending → pending ≠ .close →
      ¬(await = .retryClose ∨ await = .closeLease) → Inv (w.wait write await) := by
    intro pending await same other elsewhere
    refine core.wait (fun here => absurd here elsewhere) called (fun closing held => ?_)
    exact absurd held (by simp [only same (by simpa using other) closing])
  unfold World.runPending
  split
  · rename_i none_
    exact core.settle (fun _ => only none_ (by simp))
  · rename_i claimId unclaim
    exact waits unclaim (by simp) (by simp)
  · rename_i forget
    exact waits forget (by simp) (by simp)
  · rename_i close
    exact core.wait (fun _ _ => close) called (fun _ _ => .inl rfl)
  · rename_i resync
    exact waits resync (by simp) (by simp)

theorem Core.leave (held : Bool) : Inv (w.leave write held) := by
  cases held with
  | true => exact core.settle (fun left _ => by simpa using left)
  | false => exact core.unindex.settle (fun _ _ => rfl)

end

theorem resumeInv (inv : Inv w) {answer} (sound : Running.Sound w.entry.held w.entry.pending w.closed w.confirmed w.db ⟨write,await,some answer⟩)
    (kept : w.entry.held = true → w.entry.pending = some .close → replaces w.entry await answer = false) : Inv (w.resume write await answer) := by
  have core := inv.toCore
  have open_ : replaces w.entry await answer = true → w.closed = true → w.entry.held = false := by
    intro replaced closed
    cases held : w.entry.held with
    | false => rfl
    | true => exact absurd (kept held (core.pending closed held).2) (by simp [replaced])
  have row : frees await answer = true → w.entry.held = true → w.db.leased = true → w.db.row = some .released := sound.freed answer rfl
  have elsewhere : await ≠ .retryClose → await ≠ .closeLease → write = .retry true → w.entry.held = false := by
    intro noClose noLease closing
    cases held : w.entry.held with
    | false => rfl
    | true => exact absurd (sound.closes closing held) (by simp [noClose,noLease])
  unfold World.resume
  split
  · exact (core.release (open_ rfl) (row rfl)).settle (fun _ closing => elsewhere (by simp) (by simp) closing)
  · exact (core.later (open_ rfl) (by simp)).fails
  · exact (core.gone (sound.confirmed _ rfl rfl)).settle (fun _ _ => rfl)
  · rename_i other
    exact (core.later (open_ (by simpa [replaces] using other)) (by simp)).fails
  · exact (core.release (open_ rfl) (row rfl)).settle (fun _ closing => elsewhere (by simp) (by simp) closing)
  · exact (core.put (open_ rfl) (by simp)).runPending sound.called
  · exact (core.gone (sound.confirmed _ rfl rfl)).settle (fun _ _ => rfl)
  · exact core.wait (by simp) sound.called (fun closing held => absurd held (by simp [elsewhere (by decide) (by decide) closing]))
  · exact core.leave _
  · exact core.wait (fun _ => sound.closing (.inl rfl)) sound.called (fun _ _ => .inr rfl)
  · rename_i outcome other
    refine (core.gone (sound.confirmed _ rfl ?_)).settle (fun _ _ => rfl)
    cases outcome with
    | refused => exact absurd rfl other
    | closed => rfl
    | kept => rfl
  · exact core.leave _
  · exact core.unindex.settle (fun _ _ => rfl)
  · exact core.wait (by simp) sound.called (fun closing held => absurd held (by simp [elsewhere (by decide) (by decide) closing]))
  · unfold World.resync
    split
    · exact (core.release (open_ rfl) (row rfl)).settle (fun _ closing => elsewhere (by simp) (by simp) closing)
    · rename_i claimId
      split
      · rename_i same
        exact (core.put (open_ (by simpa [replaces] using same)) (by simp)).runPending sound.called
      · exact core.unindex.settle (fun _ _ => rfl)
    · exact core.unindex.settle (fun _ _ => rfl)
  · exact core.fails

variable {db : Db} {request : Request} {fate : Fate}

theorem meetLeased : (db.meet request fate).1.leased = db.leased := by
  cases fate with
  | refused => rfl
  | throws => rfl
  | lands =>
    cases request with
    | claim claimId =>
      simp only [Db.meet,Db.perform,Db.claim]
      split <;> rfl
    | unclaim claimId =>
      simp only [Db.meet,Db.perform,Db.unclaim]
      split
      · split <;> rfl
      · rfl
    | markConsumed claimId =>
      simp only [Db.meet,Db.perform,Db.markConsumed]
      split <;> rfl
    | delete =>
      simp only [Db.meet,Db.perform,Db.delete]
      split <;> rfl
    | closeTurn =>
      simp only [Db.meet,Db.perform,Db.closeTurn]
      split <;> rfl
    | holdsLease => rfl
    | find => rfl

def grabs (db : Db) : Request → Fate → Bool
  | .claim claimId,.lands => (db.claim claimId).2
  | .delete,.lands => db.delete.2
  | .closeTurn,.lands => true
  | _,_ => false

theorem meetKeeps (released : db.row = some .released) (kept : grabs db request fate = false) : (db.meet request fate).1.row = some .released := by
  cases fate with
  | refused => exact released
  | throws => exact released
  | lands =>
    cases request with
    | claim claimId =>
      simp only [grabs,Db.claim] at kept
      simp only [Db.meet,Db.perform,Db.claim]
      split
      · rename_i granted
        rw [if_pos granted] at kept
        cases kept
      · exact released
    | unclaim claimId => simp [Db.meet,Db.perform,Db.unclaim,released]
    | markConsumed claimId => simp [Db.meet,Db.perform,Db.markConsumed,released]
    | delete =>
      simp only [grabs,Db.delete] at kept
      simp only [Db.meet,Db.perform,Db.delete]
      split
      · rename_i granted
        rw [if_pos granted] at kept
        cases kept
      · exact released
    | closeTurn => cases kept
    | holdsLease => exact released
    | find => exact released

theorem freedRow (freed : frees await (db.meet await.request fate).2 = true) : (db.meet await.request fate).1.row = some .released := by
  have unclaims : ∀ claimId, (db.unclaim claimId).2 = true → (db.unclaim claimId).1.row = some .released := by
    intro claimId
    unfold Db.unclaim
    split
    · split <;> simp
    · simp
  cases fate with
  | throws => cases await <;> cases freed
  | refused =>
    cases await with
    | resyncFind =>
      cases found : db.row with
      | none => simp [Db.meet,refusal,Await.request,found,frees] at freed
      | some row => cases row <;> simp_all [Db.meet,refusal,Await.request,frees]
    | _ => cases freed
  | lands =>
    cases await with
    | unclaim claimId =>
      refine unclaims claimId ?_
      cases changed : (db.unclaim claimId).2 with
      | true => rfl
      | false => simp [Db.meet,Db.perform,Await.request,changed,frees] at freed
    | retryUnclaim claimId =>
      refine unclaims claimId ?_
      cases changed : (db.unclaim claimId).2 with
      | true => rfl
      | false => simp [Db.meet,Db.perform,Await.request,changed,frees] at freed
    | resyncFind =>
      cases found : db.row with
      | none => simp [Db.meet,Db.perform,Await.request,found,frees] at freed
      | some row => cases row <;> simp_all [Db.meet,Db.perform,Await.request,frees]
    | _ => cases freed

theorem Inv.row (inv : Inv w) (here : available w = true) (leased : w.db.leased = true) : w.db.row = some .released := by
  simp only [available,Bool.and_eq_true,Bool.or_eq_true,decide_eq_true_eq] at here
  obtain ⟨held,released | freed⟩ := here
  · exact inv.agrees held released leased
  · split at freed
    · rename_i write await answer running
      exact (inv.running _ running).freed answer rfl freed held leased
    · cases freed

theorem availableReleased (held : w.entry.held = true) (released : w.entry.state = .released) : available w = true := by
  simp [available,held,released]

theorem availableFreed {r answer} (running : w.running = some r) (answered : r.answer = some answer)
    (freed : frees r.await answer = true) (held : w.entry.held = true) : available w = true := by
  obtain ⟨write,await,_⟩ := r
  cases answered
  simp [available,held,running,freed]

section
variable (inv : Inv w)
include inv

theorem Inv.database {db} (row : available w = true → db.leased = true → db.row = some .released) : Inv { w with db := db } := by
  refine ⟨{ inv with agrees := fun held released => row (availableReleased held released) },?_⟩
  intro r running
  have sound := inv.running r running
  exact { sound with freed := fun answer answered freed held => row (availableFreed running answered freed held) }

theorem Inv.called (claims consumes : List Call) : Inv { w with claims := claims,consumes := consumes } :=
  { inv with }

theorem Inv.meet (kept : available w = true → grabs w.db request fate = false) : Inv { w with db := (w.db.meet request fate).1 } :=
  inv.database fun here leased => meetKeeps (inv.row here (meetLeased.symm.trans leased)) (kept here)

theorem Inv.serial (other : write ≠ .retry true) : Inv (w.serial write) := by
  refine ⟨{ inv with queued := fun inside => ?_ },inv.running⟩
  rcases List.mem_append.mp inside with before | last
  · exact inv.queued before
  · exact absurd (List.mem_singleton.mp last).symm other

theorem closeInv : Inv ({ w with entry := w.entry.reconcileLater .close,closed := true }.serial (.retry true)) := by
  refine ⟨⟨fun _ _ => ⟨rfl,rfl⟩,fun _ => rfl,fun _ => rfl,inv.resolved,inv.file,fun _ released => by cases released⟩,fun r running => ?_⟩
  have sound := inv.running r running
  exact ⟨fun _ _ => rfl,fun _ => rfl,sound.closes,sound.freed,sound.confirmed⟩

theorem takeInv {claimId} (released : w.entry.state = .released) :
    Inv { w with entry := { w.entry with state := .claimed,claimId := some claimId } } := by
  refine ⟨⟨fun closed held => ?_,inv.closed,inv.queued,inv.resolved,inv.file,fun _ released => by cases released⟩,inv.running⟩
  cases released.symm.trans (inv.pending closed held).1

theorem startInv {rest} (first : w.queue = write::rest) : Inv ({ w with queue := rest }.start write) := by
  have core : Core { w with queue := rest } :=
    { inv with queued := fun inside => inv.queued (first ▸ .tail _ inside) }
  cases write with
  | unclaim claimId => exact core.wait (by simp) (by simp) (by simp)
  | forget => exact core.wait (by simp) (by simp) (by simp)
  | retry closing => exact core.runPending (fun same => inv.queued (by simp [first,same]))

theorem answerInv (running : w.running = some ⟨write,await,none⟩) (stays : available w = true → takes w (.answer fate) = false) :
    Inv { w with db := (w.db.meet await.request fate).1,running := some ⟨write,await,some (w.db.meet await.request fate).2⟩,
                 confirmed := w.confirmed || World.confirms await.request (w.db.meet await.request fate).2 } := by
  have sound := inv.running _ running
  have kept : w.entry.held = true → w.entry.state = .released → grabs w.db await.request fate = false := by
    intro held released
    have untaken := stays (availableReleased held released)
    cases fate with
    | refused => cases await <;> rfl
    | throws => cases await <;> rfl
    | lands =>
      cases await with
      | forget => simpa [takes,running,grabs,Await.request] using untaken
      | retryForget => simpa [takes,running,grabs,Await.request] using untaken
      | retryClose =>
        have close := sound.closing (.inl rfl) held
        have reconciling := (inv.pending (inv.closed close) held).1
        cases released.symm.trans reconciling
      | _ => rfl
  refine ⟨⟨inv.pending,inv.closed,inv.queued,inv.resolved,fun gone => by simp [inv.file gone],fun held released leased => ?_⟩,?_⟩
  · exact meetKeeps (inv.row (availableReleased held released) (meetLeased.symm.trans leased)) (kept held released)
  · intro r same
    cases same
    refine ⟨sound.closing,sound.called,sound.closes,fun answer answered freed _ _ => ?_,fun answer answered confirms => ?_⟩
    · cases answered
      exact freedRow freed
    · cases answered
      rw [confirms,Bool.or_true]

theorem laterInv (kept : w.entry.held = true → w.entry.pending ≠ some .close) (claims : List Call) :
    Inv { w with entry := w.entry.reconcileLater .resync,claims := claims } := by
  have open_ : w.closed = true → w.entry.held = false := by
    intro closed
    cases held : w.entry.held with
    | false => rfl
    | true => exact absurd (inv.pending closed held).2 (kept held)
  have core := inv.toCore.later open_ (show PendingParkWrite.resync ≠ .close by simp)
  refine ⟨{ core with },fun r running => ?_⟩
  have sound := inv.running r running
  exact { sound with closing := fun closing held => absurd (sound.closing closing held) (kept held) }

end

theorem stepInv {event} (inv : Inv w) (careful : Careful w event) (stepped : step w event = some next) : Inv next := by
  cases event with
  | takeLocal claimId =>
    simp only [step] at stepped
    split at stepped
    · rename_i here
      cases stepped
      exact takeInv inv here.1
    · cases stepped
      exact inv
  | claim =>
    cases stepped
    exact inv.called _ _
  | unclaim =>
    simp only [step] at stepped
    split at stepped
    · cases stepped
      split
      · exact inv
      · exact inv.serial (by simp)
    · cases stepped
      exact inv
  | consume =>
    cases stepped
    split
    · exact inv
    · exact inv.called _ _
  | forget =>
    cases stepped
    exact inv.serial (by simp)
  | close =>
    cases stepped
    exact closeInv inv
  | reconcile =>
    cases stepped
    split
    · exact inv.serial (by simp)
    · exact inv
  | start =>
    simp only [step] at stepped
    split at stepped
    · rename_i first
      cases stepped
      exact startInv inv first
    · cases stepped
  | answer fate =>
    simp only [step] at stepped
    split at stepped
    · rename_i running
      cases stepped
      exact answerInv inv running careful.stays
    · cases stepped
  | resume =>
    simp only [step] at stepped
    split at stepped
    · rename_i running
      cases stepped
      refine resumeInv inv (inv.running _ running) (fun held close => ?_)
      simpa [overwrites,running] using careful.kept held close
    · cases stepped
  | idle =>
    simp only [step] at stepped
    split at stepped
    · rename_i quiet
      cases stepped
      exact ⟨{ inv with },fun r running => absurd (quiet.1.symm.trans running) (by simp)⟩
    · cases stepped
  | answerClaim i fate =>
    simp only [step] at stepped
    split at stepped
    · rename_i claimId found
      cases stepped
      refine (inv.meet fun here => ?_).called _ _
      have untaken := careful.stays here
      cases fate with
      | lands => simpa [takes,found,grabs] using untaken
      | _ => rfl
    · cases stepped
  | resumeClaim i =>
    simp only [step] at stepped
    split at stepped
    · rename_i claimId answer found
      cases stepped
      split
      · exact inv.called _ _
      · rename_i failed
        refine laterInv inv (fun held close => ?_) _
        have kept := careful.kept held close
        simp [overwrites,found,failed] at kept
    · cases stepped
  | answerConsume i fate =>
    simp only [step] at stepped
    split at stepped
    · rename_i claimId found
      cases stepped
      refine (inv.meet fun here => ?_).called _ _
      cases fate <;> rfl
    · cases stepped
  | resumeConsume i =>
    simp only [step] at stepped
    split at stepped
    · rename_i claimId answer found
      cases stepped
      exact { inv with }
    · cases stepped
  | loseLease =>
    cases stepped
    exact inv.database (fun _ leased => by cases leased)
  | otherWrite row =>
    simp only [step] at stepped
    split at stepped
    · cases stepped
    · rename_i lost
      cases stepped
      exact inv.database (fun _ leased => absurd leased lost)
  | turnEnds =>
    cases stepped
    exact inv.database (fun here leased => inv.row here leased)

theorem reachedInv (reached : Reached w) : Inv w := by
  induction reached with
  | stored => exact storedInv
  | step _ careful stepped ih => exact stepInv ih careful stepped

theorem resumeReplaced {answer} (replaced : replaces w.entry await answer = true) :
    (w.resume write await answer).entry.pending ≠ some .close ∧ (w.resume write await answer).entry.held = w.entry.held ∧
      (w.resume write await answer).closed = w.closed := by
  unfold World.resume
  split
  · exact ⟨by simp [World.settle,ReleasedEntry.release],rfl,rfl⟩
  · exact ⟨by simp [World.settle,ReleasedEntry.reconcileLater],rfl,rfl⟩
  · cases replaced
  · exact ⟨by simp [World.settle,ReleasedEntry.reconcileLater],rfl,rfl⟩
  · exact ⟨by simp [World.settle,ReleasedEntry.release],rfl,rfl⟩
  · exact ⟨by simp [World.runPending,World.wait],rfl,rfl⟩
  · cases replaced
  · cases replaced
  · cases replaced
  · cases replaced
  · cases replaced
  · cases replaced
  · cases replaced
  · cases replaced
  · unfold World.resync
    split
    · exact ⟨by simp [World.settle,ReleasedEntry.release],rfl,rfl⟩
    · rename_i claimId
      rw [if_pos (by simpa [replaces] using replaced)]
      exact ⟨by simp [World.runPending,World.wait],rfl,rfl⟩
    · rename_i free own
      unfold replaces at replaced
      split at replaced <;> simp_all
  · rename_i others
    unfold replaces at replaced
    split at replaced <;> simp_all

theorem resumeFreed {answer} (freed : frees await answer = true) :
    w.resume write await answer = { w with entry := w.entry.release }.settle write true := by
  unfold frees at freed
  split at freed
  · rfl
  · rfl
  · rfl
  · cases freed

theorem notStays (closed : w.closed = true) (held : w.entry.held = true) (replaced : w.entry.pending ≠ some .close) : ¬Final w :=
  fun final => replaced (final.retried closed held).stays.2

theorem notAgrees (held : w.entry.held = true) (released : w.entry.state = .released) (leased : w.db.leased = true)
    (taken : w.db.row ≠ some .released) : ¬Final w := fun final => taken (final.agrees held released leased)

theorem overwritten {event} (inv : Inv w) (held : w.entry.held = true) (close : w.entry.pending = some .close)
    (overwrites_ : overwrites w event = true) (stepped : step w event = some next) : ¬Final next := by
  have closed := inv.closed close
  unfold overwrites at overwrites_
  split at overwrites_
  · split at overwrites_
    · rename_i write await answer running
      simp only [step,running,Option.some.injEq] at stepped
      obtain ⟨other,same,kept⟩ := @resumeReplaced w write await answer overwrites_
      rw [← stepped]
      exact notStays (kept.trans closed) (same.trans held) other
    · cases overwrites_
  · split at overwrites_
    · rename_i claimId answer found
      simp only [step,found,if_neg (by simpa using overwrites_ : ¬answer = .ok true),Option.some.injEq] at stepped
      rw [← stepped]
      exact notStays closed held (by simp [ReleasedEntry.reconcileLater])
    · cases overwrites_
  · cases overwrites_

theorem deleted (granted : db.delete.2 = true) : db.delete.1.leased = true ∧ db.delete.1.row = none := by
  unfold Db.delete at granted ⊢
  split
  · rename_i may
    exact ⟨may.2,rfl⟩
  · rename_i not_
    rw [if_neg not_] at granted
    cases granted

theorem claimed {claimId} (granted : (db.claim claimId).2 = true) :
    (db.claim claimId).1.leased = true ∧ (db.claim claimId).1.row = some (.claimed .own claimId) := by
  unfold Db.claim at granted ⊢
  split
  · rename_i may
    exact ⟨may.2.2,rfl⟩
  · rename_i not_
    rw [if_neg not_] at granted
    cases granted

theorem takenAway {event} (here : available w = true) (taken : takes w event = true) (stepped : step w event = some next) :
    ∃ later last, run next later = some last ∧ ¬Final last := by
  simp only [available,Bool.and_eq_true,Bool.or_eq_true,decide_eq_true_eq] at here
  obtain ⟨held,free⟩ := here
  unfold takes at taken
  split at taken
  · -- a write that deletes has no answer yet, so the entry itself is `released`
    have deletes : ∀ {write await}, w.running = some ⟨write,await,none⟩ → await.request = .delete → w.db.delete.2 = true →
        ∃ later last, run next later = some last ∧ ¬Final last := by
      intro write await running request granted
      have released : w.entry.state = .released := by simpa [running] using free
      simp only [step,running,Option.some.injEq] at stepped
      refine ⟨[],next,rfl,?_⟩
      rw [← stepped]
      simp only [request,Db.meet,Db.perform]
      exact notAgrees held released (deleted granted).1 (by simp [(deleted granted).2])
    split at taken
    · rename_i running
      exact deletes running rfl taken
    · rename_i running
      exact deletes running rfl taken
    · cases taken
  · split at taken
    · rename_i i claimId found
      obtain ⟨leased,row⟩ := claimed taken
      simp only [step,found,Db.meet,Db.perform,Option.some.injEq] at stepped
      rcases free with released | freed
      · refine ⟨[],next,rfl,?_⟩
        rw [← stepped]
        exact notAgrees held released leased (by simp [row])
      · -- the answer that says so is read after the claim
        split at freed
        · rename_i write await answer running
          have runs : next.running = some ⟨write,await,some answer⟩ := by rw [← stepped]; exact running
          refine ⟨[.resume],next.resume write await answer,?_,?_⟩
          · simp [run,step,runs]
          · rw [resumeFreed freed,← stepped]
            exact notAgrees held rfl leased (by simp [World.settle,row])
        · cases freed
    · cases taken
  · cases taken

/-- In a run of careful steps a close is final; any other step breaks that in what follows. -/
theorem closesFinal (w : World) (reached : Reached w) : Final w ∧ ∀ event next, step w event = some next → ¬Careful w event →
    ∃ later last, run next later = some last ∧ ¬Final last := by
  refine ⟨(reachedInv reached).toCore.final,fun event next stepped careless => ?_⟩
  by_cases kept : w.entry.held = true ∧ w.entry.pending = some .close ∧ overwrites w event = true
  · exact ⟨[],next,rfl,overwritten (reachedInv reached) kept.1 kept.2.1 kept.2.2 stepped⟩
  · by_cases stays : available w = true ∧ takes w event = true
    · exact takenAway stays.1 stays.2 stepped
    · exact absurd ⟨fun held close => by simpa [held,close] using kept,fun here => by simpa [here] using stays⟩ careless

def givenBack : List Event := [.takeLocal 0,.claim,.answerClaim 0 .lands,.resumeClaim 0,.unclaim,.start,.answer .lands,.close]

theorem closeUndone : ¬ ∀ events w, run stored events = some w → Final w := by
  intro every
  obtain ⟨w,ran,closed,held,released⟩ : ∃ w, run stored (givenBack ++ [.resume]) = some w ∧ w.closed = true ∧ w.entry.held = true ∧
      w.entry.state = .released := ⟨_,rfl,rfl,rfl,rfl⟩
  exact (every _ w ran).unclaimable closed held released

instance (w : World) (event : Event) : Decidable (Careful w event) :=
  decidable_of_iff ((w.entry.held = true → w.entry.pending = some .close → overwrites w event = false) ∧ (available w = true → takes w event = false))
    ⟨fun both => ⟨both.1,both.2⟩,fun careful => ⟨careful.kept,careful.stays⟩⟩

def carefulRun (w : World) (events : List Event) : Option World := events.foldlM (fun w event => if Careful w event then step w event else none) w

theorem Reached.run (reached : Reached w) (events : List Event) (ran : carefulRun w events = some next) : Reached next := by
  induction events generalizing w with
  | nil =>
    cases ran
    exact reached
  | cons event rest ih =>
    rw [carefulRun,List.foldlM_cons] at ran
    obtain ⟨mid,first,later⟩ := Option.bind_eq_some_iff.mp ran
    split at first
    · rename_i careful
      exact ih (reached.step careful first) later
    · cases first

theorem closedOnce : (∃ w, run stored [.close,.start,.answer .lands,.resume] = some w ∧ Final w) ∧
    ∃ w next later last, run stored givenBack = some w ∧ step w .resume = some next ∧ run next later = some last ∧ ¬Final last := by
  refine ⟨⟨_,rfl,(closesFinal _ (Reached.stored.run [.close,.start,.answer .lands,.resume] rfl)).1⟩,?_⟩
  obtain ⟨later,last,ran,not_⟩ := (closesFinal _ (Reached.stored.run givenBack rfl)).2 .resume _ rfl (by decide)
  exact ⟨_,_,later,last,rfl,rfl,ran,not_⟩

end Clankermux.ReleasedParks
