import Clankermux.PayloadProgress
import Clankermux.PayloadSingleWriter

/-! Publications, messages and deadlines keep the client steady and its entries attended
to, as long as it is live and no rotation loses the generation it waits for. -/
namespace Clankermux.PayloadWriteClient
open InsertionMap Wheels

variable {c d : Client} {id seq : Nat} {g : GenerationState} {x y : Wheels}

def Kept (c : Client) : Prop := c.live = true → Steady c.wheels ∧ Manned c.wheels

theorem Kept.feeds (k : Kept c) (latched : d.live = true → c.live = true)
    (feeds : d.live = true → Steady c.wheels → Feeds c.wheels d.wheels) : Kept d := by
  intro live
  obtain ⟨s,m⟩ := k (latched live)
  have f := feeds live s
  exact ⟨f.steady,f.manned m⟩

theorem Kept.same (k : Kept c) (live : d.live = c.live) (wheels : d.wheels = c.wheels) : Kept d := by
  intro alive
  rw [wheels]
  exact k (live ▸ alive)

theorem mannedSent {new} (m : Manned x)
    (rest : Feeds { x with stations := Function.update x.stations seq new } y)
    (attended : ∀ id, y.active = some id → y.Attended id seq) (flight : y.active = none → y.InFlight) : Manned y := by
  refine ⟨fun id fed other => ?_,fun idle => .inl (flight idle)⟩
  by_cases same : other = seq
  · exact .inl (same ▸ attended id fed)
  · have was : x.active = some id := by
      rcases rest.active with kept | idle
      · exact kept.symm.trans fed
      · cases idle.1.symm.trans fed
    refine (m.held id was other).imp (fun held => rest.held id other fed (fun t its => held t ?_))
      (fun suspended => rest.suspended.trans suspended)
    simpa [Function.update_of_ne same] using its

theorem mannedFlushed (feeds : Feeds x y) (attended : ∀ id, y.active = some id → ∀ seq, y.Attended id seq)
    (flight : x.active = none → x.InFlight) : Manned y := by
  refine ⟨fun id fed seq => .inl (attended id fed seq),fun idle => .inl ?_⟩
  rcases feeds.active with same | idle'
  · exact feeds.flight (flight (same.symm.trans idle))
  · exact idle'.2

theorem registerWheels (c : Client) (input : EntryInput) : (register c input).wheels =
    { c.wheels with stations := Function.update c.wheels.stations c.nextSeq (some ⟨.buffered,none,false⟩) } := by
  have watched : ∀ d, (startWatchdog d).wheels = d.wheels := by
    intro d
    unfold startWatchdog
    split <;> rfl
  rw [register,watched]
  exact setEntryWheels c c.nextSeq _

theorem sentKept {new} (k : Kept c) (live : c.live = true) (timer : new.state = .retryWait → new.retrying = true)
    (put : d.wheels = { c.wheels with stations := Function.update c.wheels.stations seq (some new) }) :
    Kept (trySend (ensureActiveGeneration d) seq) := by
  intro _
  obtain ⟨s,m⟩ := k live
  have steady : Steady d.wheels := put ▸ s.station timer
  obtain ⟨ensured,flight⟩ := ensureActiveGenerationFeeds steady (put ▸ live)
  obtain ⟨sent,attended⟩ := trySendFeeds ensured.steady (ensured.live.trans (put ▸ live)) seq
  have both := ensured.trans sent
  rw [put] at both
  refine ⟨sent.steady,mannedSent m both attended (fun idle => ?_)⟩
  rcases sent.active with same | idle'
  · exact sent.flight (flight (same.symm.trans idle))
  · exact idle'.2

theorem publishKept (k : Kept c) (input : EntryInput) : Kept (publish c input).2 := by
  unfold publish
  split
  · exact k
  rename_i accepts
  have live : c.live = true := by
    simp only [Client.acceptsWork,Client.disposed,Bool.not_eq_true',Bool.not_eq_false,Bool.and_eq_true] at accepts
    simp [Client.live,accepts]
    simpa using accepts.1.1
  exact sentKept k live (by simp) (registerWheels c input)

theorem publishReservedKept (k : Kept c) (input : EntryInput) : Kept (publishReserved c input).2 := by
  unfold publishReserved
  split
  · exact k
  rename_i running
  split
  · rename_i suspended
    intro live
    have wheels := registerWheels c input
    have alive : c.live = true := (congrArg Wheels.live wheels).symm.trans live
    obtain ⟨s,m⟩ := k alive
    have closed : c.admissionSuspended = true := by
      have fatal := (runningLive (c := c) alive).2
      simpa [fatal] using suspended
    rw [wheels]
    refine ⟨s.station (by simp),fun _ _ _ => .inr closed,fun idle => ?_⟩
    rcases m.idle idle with flight | ⟨open_,_⟩
    · exact .inl flight
    · cases open_.symm.trans closed
  · rename_i open_
    have live : c.live = true := by
      simp only [Bool.or_eq_true,not_or] at open_
      have gone : c.disposal = none := by simpa [Client.disposed] using running
      have mild : c.writerFatal = none := by simpa using open_.2
      simp [Client.live,gone,mild]
    exact sentKept k live (by simp) (registerWheels c input)

theorem scheduleRetryWheels (c : Client) (seq : Nat) (e : RegistryEntry) : (scheduleRetry c seq e).wheels =
    { c.wheels with stations := Function.update c.wheels.stations seq (some ⟨.retryWait,none,true⟩) } :=
  setEntryWheels { c with stats.retries := c.stats.retries + 1 } seq _

theorem handleResultFeeds (s : Steady c.wheels) (id ackGeneration : Nat) (result : Ack)
    (live : (handleResult id ackGeneration c result).live = true) :
    Feeds c.wheels (handleResult id ackGeneration c result).wheels := by
  revert live
  unfold handleResult
  split
  · exact fun _ => .refl s
  rename_i e found
  split
  · exact fun _ => .refl s
  split
  · exact fun _ => (settleFeeds (c := { c with stats.committed := c.stats.committed + 1 }) s _ _ _ _).1
  split
  · intro _
    rw [scheduleRetryWheels]
    exact stationFeeds s (stationsEntry found) (fun _ => rfl) (fun _ _ => .inr rfl)
  · intro live
    have dead := (onWriterFatalMoves c (result.detail.getD "unclassified writer failure")).2
    cases dead.symm.trans live
  · exact fun _ => (settleFeeds (c := { c with stats.droppedPermanent := c.stats.droppedPermanent + 1 }) s _ _ _ _).1

theorem handleResultsFeeds (id ackGeneration : Nat) (results : List Ack) (s : Steady c.wheels)
    (live : (results.foldl (handleResult id ackGeneration) c).live = true) :
    Feeds c.wheels (results.foldl (handleResult id ackGeneration) c).wheels := by
  induction results generalizing c with
  | nil => exact .refl s
  | cons result rest ih =>
    have alive := (Moves.foldl (handleResultMoves id ackGeneration) (handleResult id ackGeneration c result) rest).settles.latched live
    have first := handleResultFeeds s id ackGeneration result alive
    exact first.trans (ih first.steady live)

theorem handleAckKept (k : Kept c) (id ackGeneration : Nat) (results : List Ack) :
    Kept (handleAck c id ackGeneration results) := by
  intro live
  have alive := (handleAckMoves c id ackGeneration results).settles.latched live
  obtain ⟨s,m⟩ := k alive
  have mild : c.writerFatal.isNone = true := by
    have fatal := (runningLive (c := c) alive).2
    simpa using fatal
  let resumed := resumeAdmission { c with lastAckAt := c.now }
  let handled := results.foldl (handleResult id ackGeneration) resumed
  have split : handleAck c id ackGeneration results =
      if (c.watchdogUnhealthy && c.writerFatal.isNone) = true then flushBuffered handled else handled := rfl
  by_cases unhealthy : c.watchdogUnhealthy = true
  · -- Admission is open again, so that what was published meanwhile is sent.
    have wheels : resumed.wheels = { c.wheels with suspended := false,unhealthy := false } := by
      have same : resumed = { c with lastAckAt := c.now,watchdogUnhealthy := false,admissionSuspended := false } := by
        simp only [resumed,resumeAdmission,unhealthy,mild,if_true]
      rw [same]
      rfl
    rw [split,if_pos (by simp [unhealthy,mild])] at live ⊢
    have steady : Steady resumed.wheels := by
      rw [wheels]
      exact { s with suspended := rfl,begun := s.begun,spawning := s.spawning,spawned := s.spawned }
    have working : handled.live = true := (flushBufferedMoves handled).settles.latched live
    have feeds := handleResultsFeeds id ackGeneration results steady working
    obtain ⟨flushed,attended⟩ := flushBufferedFeeds feeds.steady working
    refine ⟨flushed.steady,mannedFlushed (feeds.trans flushed) attended (fun idle => ?_)⟩
    rw [wheels] at idle ⊢
    rcases m.idle idle with flight | ⟨open_,_⟩
    · exact flight
    · cases (s.suspended.symm.trans open_).symm.trans unhealthy
  · have same : resumed = { c with lastAckAt := c.now } := by
      simp only [resumed,resumeAdmission,if_neg unhealthy]
    rw [split,if_neg (by simp [unhealthy])] at live ⊢
    have steady : Steady resumed.wheels := by
      rw [same]
      exact s
    have feeds := handleResultsFeeds id ackGeneration results steady live
    have manned : Manned resumed.wheels := by
      rw [same]
      exact m
    exact ⟨feeds.steady,feeds.manned manned⟩

theorem startingFacts (h : c.control.Sound) (found : c.generation id = some g) (begun : g.status = .starting) :
    (∀ other, c.wheels.Starting other → other = id) ∧
      (∀ r, c.rotation = some r → g.purpose = .rotate ∧ r.replacement = id ∧ r.spawned = false) ∧
      (g.purpose = .rotate → c.rotation.isSome) := by
  have its := workersGeneration found
  have start := h.starting id _ its begun
  refine ⟨?_,?_,?_⟩
  · rintro other ⟨w,there,starting⟩
    obtain ⟨g',known,rfl⟩ := generationGears there
    exact h.one other _ id _ (workersGeneration known) its starting begun
  · intro r rotating
    cases purpose : g.purpose with
    | activate => exact absurd ((start.activate purpose).2.symm.trans rotating) (by simp)
    | rotate =>
      obtain ⟨r',same,replacement,unspawned⟩ := start.rotate purpose
      cases same.symm.trans rotating
      exact ⟨rfl,replacement,unspawned⟩
  · intro purpose
    obtain ⟨r,rotating,_⟩ := start.rotate purpose
    exact Option.isSome_iff_exists.mpr ⟨r,rotating⟩

theorem readyWheels (found : c.generation id = some g) (begun : g.status = .starting) (listening : g.onReady = true)
    (unfinished : g.finished = false) :
    (handleMessage c id .ready).wheels = c.wheels.settle id .ready (.spawned g.purpose id true) false := by
  rw [readyClient found begun listening unfinished]
  calc _ = { (((c.setGeneration id { g with status := .ready }).setGeneration id
          { g with status := .ready,finished := true,readyTimer := none }).setGeneration id
          { g with status := .ready,finished := true,readyTimer := none,onReady := false }).wheels with
        spawning := false,jobs := c.jobs ++ [Job.spawned g.purpose id true] } := rfl
    _ = _ := by
        rw [setGenerationWheels,setGenerationWheels,setGenerationWheels]
        simp [Wheels.settle,gear]
        rfl

theorem readyFeeds (h : c.control.Sound) (s : Steady c.wheels) (found : c.generation id = some g)
    (begun : g.status = .starting) : Feeds c.wheels (handleMessage c id .ready).wheels := by
  have start := h.starting id _ (workersGeneration found) begun
  obtain ⟨one,rotating,rotates⟩ := startingFacts h found begun
  rw [readyWheels found begun start.listening start.unfinished]
  have steady : Steady (c.wheels.settle id .ready (.spawned g.purpose id true) !true) :=
    s.settle ⟨gear g,gearsGeneration found,begun⟩ one rotating (by simp)
  refine .shift steady rfl rfl rfl (.inl rfl) (fun _ => ?_)
  cases purpose : g.purpose with
  | activate => exact .inr (.inl ⟨id,List.mem_append_right _ (by simp)⟩)
  | rotate => exact .inr (.inr (.inl (rotates purpose)))

theorem finishFatal (found : c.generation id = some g) (unfinished : g.finished = false) (detail : String) :
    (finish c id false detail (some .writerFatal)).live = false := by
  have result : finish c id false detail (some .writerFatal) =
      (onWriterFatal (killGeneration { c.setGeneration id { g with finished := true,readyTimer := none } with
        spawning := false } id) detail).enqueue (.spawned g.purpose id false) := by
    simp [finish,found,unfinished]
  rw [result]
  exact (onWriterFatalMoves _ detail).2

theorem finishKept (h : c.control.Sound) (k : Kept c) (detail : String) (errorClass : Option ErrorClass) :
    Kept (finish c id false detail errorClass) := by
  refine k.feeds (finishMoves c id false detail errorClass).settles.latched (fun live s => ?_)
  cases found : c.generation id with
  | none =>
    have same : finish c id false detail errorClass = c := by simp only [finish,found]
    rw [same]
    exact .refl s
  | some g =>
    cases finished : g.finished with
    | true =>
      have same : finish c id false detail errorClass = c := by simp only [finish,found,finished,if_true]
      rw [same]
      exact .refl s
    | false =>
      have mild : errorClass ≠ some .writerFatal := by
        intro fatal
        rw [fatal] at live
        exact absurd ((finishFatal found finished detail).symm.trans live) (by decide)
      have alive : c.live = true := (finishMoves c id false detail errorClass).settles.latched live
      have open_ : c.control.returned = false := notReturned (runningLive (c := c) alive).1
      have begun : g.status = .starting := by
        refine (h.unfinished id _ (workersGeneration found) finished).resolve_right (fun returned => ?_)
        cases open_.symm.trans returned
      obtain ⟨one,rotating,_⟩ := startingFacts h found begun
      exact finishFailedFeeds _ s alive found finished begun one rotating mild detail

theorem closeDoneFeeds {g'} (s : Steady x) (found : c.generation id = some g)
    (parted : g.onClosed.isSome → g.status = .closing ∨ g.status = .dead) (was : x.gears id = some (gear g'))
    (timed : g = { g' with closeTimer := g.closeTimer })
    (from_ : c.wheels = { x with gears := Function.update x.gears id (some (gear g)) }) :
    Feeds x (closeDone c id).wheels := by
  have kept : Function.update x.gears id (some (gear g')) = x.gears := by rw [← was,Function.update_eq_self]
  have still : (gear g = gear g') → closeDone c id = c → Feeds x (closeDone c id).wheels := by
    intro same result
    rw [result,from_,same,kept]
    exact .refl s
  cases waiting : g.onClosed with
  | none =>
    refine still ?_ (by simp only [closeDone,found,waiting])
    rw [timed] at waiting ⊢
    have none : g'.onClosed = none := waiting
    simp [gear,none]
  | some waiter =>
    by_cases settled : g.closeSettled = true
    · refine still ?_ (by simp only [closeDone,found,waiting,if_pos settled])
      rw [timed] at settled ⊢
      have done : g'.closeSettled = true := settled
      simp [gear,done]
    · let past : GenerationState := { g with closeSettled := true,closeTimer := none }
      let marked : Client := c.setGeneration id past
      have there : marked.generation id = some past := by simp [marked,Client.setGeneration,Client.generation]
      have result : closeDone c id = (killGeneration marked id).enqueue (.closed waiter id) := by
        unfold closeDone
        rw [found]
        simp only
        split
        · rename_i none
          cases waiting.symm.trans none
        · rename_i waiter' its
          cases waiting.symm.trans its
          exact if_neg settled
      have status := parted (by simp [waiting])
      have statusWas : g'.status = g.status := by rw [timed]
      have waited : g'.onClosed = some waiter := by rw [timed] at waiting; exact waiting
      have markedWheels : marked.wheels = { x with gears := Function.update x.gears id (some (gear past)) } := by
        rw [setGenerationWheels,from_]
        simp only [Function.update_idem]
      have inactive : x.active ≠ some id := by
        intro fed
        obtain ⟨w,its,ready⟩ := s.ready id fed
        cases Option.some.inj (was.symm.trans its)
        have ready : g'.status = .ready := ready
        rw [ready] at statusWas
        rcases status with no | no <;> cases statusWas.trans no
      have queued := @Steady.push _ (.closed waiter id) s (by simp)
      rw [result]
      by_cases dead : g.status = .dead
      · have same : gear past = gear g' := by
          have deadWas : g'.status = .dead := statusWas.trans dead
          simp [gear,past,dead,deadWas]
        have wheels : ((killGeneration marked id).enqueue (.closed waiter id)).wheels =
            { x with jobs := x.jobs ++ [.closed waiter id] } := by
          have nothing : killGeneration marked id = marked := by
            simp only [killGeneration,there]
            exact if_pos dead
          calc _ = { (killGeneration marked id).wheels with
                jobs := (killGeneration marked id).wheels.jobs ++ [Job.closed waiter id] } := rfl
            _ = _ := by rw [nothing,markedWheels,same,kept]
        rw [wheels]
        exact .shift queued rfl rfl rfl (.inl rfl) (fun flight => flight.push)
      · have wheels : ((killGeneration marked id).enqueue (.closed waiter id)).wheels =
            ({ x with jobs := x.jobs ++ [.closed waiter id] } : Wheels).kill id := by
          calc _ = { (killGeneration marked id).wheels with
                jobs := (killGeneration marked id).wheels.jobs ++ [Job.closed waiter id] } := rfl
            _ = _ := by
                rw [killGenerationWheels there dead,markedWheels]
                simp only [Wheels.kill,Function.update_idem]
        have started : (gear g').status ≠ .starting := by
          show g'.status ≠ .starting
          rw [statusWas]
          rcases status with its | its <;> simp [its]
        have steady := queued.kill was started (fun r _ _ _ => by
          cases waiter with
          | rotate => exact .inr (List.mem_append_right _ (by simp))
          | dispose => exact .inl (by simp [gear,waited]))
        rw [wheels]
        exact .shift steady rfl rfl rfl (.inl (if_neg inactive)) (fun flight => (flight.push).kill was started)

theorem closeDoneSettled (found : (closeDone c id).generation id = some g) : (gear g).closing = false := by
  revert found
  unfold closeDone
  split
  · rename_i none
    exact fun found => absurd (none.symm.trans found) (by simp)
  rename_i g' known
  split
  · rename_i none
    intro found
    cases known.symm.trans found
    simp [gear,none]
  split
  · rename_i settled
    intro found
    cases Option.some.inj (known.symm.trans found)
    simp [gear,settled]
  · let marked : Client := c.setGeneration id { g' with closeSettled := true,closeTimer := none }
    have there : marked.generation id = some { g' with closeSettled := true,closeTimer := none } := by
      simp [marked,Client.setGeneration,Client.generation]
    intro found
    have found : (killGeneration marked id).generation id = some g := found
    unfold killGeneration at found
    rw [there] at found
    simp only at found
    split at found
    · cases there.symm.trans found
      simp [gear]
    · simp only [Client.generation,getSetSelf,Option.some.injEq] at found
      subst found
      simp [gear]

theorem handleMessageKept (h : c.control.Sound) (k : Kept c) (id : Nat) (response : Response) :
    Kept (handleMessage c id response) := by
  cases response with
  | ack generation results => exact handleAckKept k id generation results
  | ready =>
    refine k.feeds (handleMessageMoves c id .ready).settles.latched (fun _ s => ?_)
    cases found : c.generation id with
    | none =>
      have same : handleMessage c id .ready = c := by simp only [handleMessage,found]
      rw [same]
      exact .refl s
    | some g =>
      by_cases begun : g.status = .starting
      · exact readyFeeds h s found begun
      · have same : handleMessage c id .ready = c := by simp only [handleMessage,found,if_neg begun]
        rw [same]
        exact .refl s
  | closed =>
    have forgotten : ∀ d : Client, (∀ g, d.generation id = some g → (gear g).closing = false) →
        (d.modifyGeneration id (fun g => { g with onClosed := none })).wheels = d.wheels := by
      intro d open_
      unfold Client.modifyGeneration
      split
      · rename_i g found
        refine setGenerationSame found ?_
        have none := open_ g found
        simp only [gear] at none ⊢
        simp [none]
      · rfl
    refine k.feeds (handleMessageMoves c id .closed).settles.latched (fun _ s => ?_)
    cases found : c.generation id with
    | none =>
      have same : handleMessage c id .closed = c := by
        simp [handleMessage,closeDone,Client.modifyGeneration,found]
      rw [same]
      exact .refl s
    | some g =>
      have kept : Function.update c.wheels.gears id (some (gear g)) = c.wheels.gears := by
        rw [← gearsGeneration found,Function.update_eq_self]
      have done := closeDoneFeeds s found (h.parted id _ (workersGeneration found)) (gearsGeneration found) rfl
        (by rw [kept])
      have result : (handleMessage c id .closed).wheels = (closeDone c id).wheels := by
        exact forgotten (closeDone c id) (fun g' found' => closeDoneSettled found')
      rw [result]
      exact done
  | error detail errorClass =>
    cases found : c.generation id with
    | none =>
      have same : handleMessage c id (.error detail errorClass) = c := by simp only [handleMessage,found]
      rw [same]
      exact k
    | some g =>
      have heard : ∀ d : Client, (d.modifyGeneration id (fun g => { g with onReady := false })).wheels = d.wheels :=
        fun d => modifyGenerationWheels (fun _ => rfl)
      rw [handleErrorHeard found]
      split
      · exact (finishKept h k detail (some errorClass)).same (congrArg Wheels.live (heard _)) (heard _)
      · exact k.same (congrArg Wheels.live (heard _)) (heard _)

def awaitsClose (c : Client) (id : Nat) : Bool :=
  c.live && c.rotation.any (fun r => r.spawned && r.outgoing = id) && c.hasStatus id .closing

theorem onTransportErrorKept (h : c.control.Sound) (k : Kept c) (spared : awaitsClose c id = false) (detail : String) :
    Kept (onTransportError c id detail) := by
  cases found : c.generation id with
  | none =>
    have same : onTransportError c id detail = c := by simp only [onTransportError,found]
    rw [same]
    exact k
  | some g =>
    by_cases finished : g.finished = true
    · have same : onTransportError c id detail = onGenerationDied c id := by
        simp only [onTransportError,found,if_pos finished]
      rw [same]
      have kept := onGenerationDiedBooks c id
      have latched : (onGenerationDied c id).live = c.live := congrArg Books.live kept
      refine k.feeds (fun live => latched ▸ live) (fun live s => ?_)
      have alive : c.live = true := latched ▸ live
      refine onGenerationDiedFeeds s alive found (startedOf h found finished _ (workersGeneration found)) ?_
      intro r rotating spawned mine
      refine .inl ?_
      have open_ : g.status ≠ .closing := by
        simpa [awaitsClose,alive,rotating,spawned,mine,Client.hasStatus,found] using spared
      simp [gear,open_]
    · have same : onTransportError c id detail = finish c id false detail none := by
        simp only [onTransportError,found,if_neg finished]
      rw [same]
      exact finishKept h k detail none

theorem readyTimeoutKept (h : c.control.Sound) (k : Kept c) (found : c.generation id = some g) (detail : String) :
    Kept (finish (c.setGeneration id { g with readyTimer := none }) id false detail none) := by
  let fired := c.setGeneration id { g with readyTimer := none }
  have there : fired.generation id = some { g with readyTimer := none } := by
    simp [fired,Client.setGeneration,Client.generation]
  have sound : fired.control.Sound := (timerControl found { g with readyTimer := none } rfl) ▸ h
  intro live
  have alive : c.live = true := (finishMoves fired id false detail none).settles.latched live
  obtain ⟨s,m⟩ := k alive
  have its := gearsGeneration found
  by_cases finished : g.finished = true
  · have same : finish fired id false detail none = fired := by
      simp only [finish,there]
      exact if_pos finished
    have started : g.status ≠ .starting := startedOf h found finished _ (workersGeneration found)
    have wheels : fired.wheels = c.wheels := setGenerationSame found (by simp [gear,started])
    rw [same,wheels]
    exact ⟨s,m⟩
  · have open_ : c.control.returned = false := notReturned (runningLive (c := c) alive).1
    have begun : g.status = .starting := by
      refine (h.unfinished id _ (workersGeneration found) (eq_false_of_ne_true finished)).resolve_right (fun returned => ?_)
      exact absurd (open_.symm.trans returned) (by decide)
    obtain ⟨one,rotating,_⟩ := startingFacts h found begun
    have starting : c.wheels.Starting id := ⟨gear g,its,begun⟩
    have inactive : c.active ≠ some id := by
      intro fed
      cases (s.begun id starting).2.symm.trans fed
    have wheels : (finish fired id false detail none).wheels =
        c.wheels.settle id .dead (.spawned g.purpose id false) true := by
      rw [finishFailedWheels (c := fired) alive there (eq_false_of_ne_true finished) begun inactive (by simp) detail,
        setGenerationWheels]
      simp [Wheels.settle]
    have steady : Steady (c.wheels.settle id .dead (.spawned g.purpose id false) !false) :=
      s.settle starting one rotating (by simp)
    rw [wheels]
    have feeds : Feeds c.wheels (c.wheels.settle id .dead (.spawned g.purpose id false) true) :=
      .shift steady rfl rfl rfl (.inl rfl) (fun _ => .inr (.inr (.inr (by simp [Wheels.settle]))))
    exact ⟨steady,feeds.manned m⟩

theorem closeTimeoutKept (h : c.control.Sound) (k : Kept c) (found : c.generation id = some g) :
    Kept (closeDone (c.setGeneration id { g with closeTimer := none }) id) := by
  let fired := c.setGeneration id { g with closeTimer := none }
  have there : fired.generation id = some { g with closeTimer := none } := by
    simp [fired,Client.setGeneration,Client.generation]
  have sound : fired.control.Sound := (timerControl found { g with closeTimer := none } rfl) ▸ h
  have kept := closeDoneBooks fired id
  intro live
  have alive : c.live = true := (congrArg Books.live kept).symm.trans live
  obtain ⟨s,m⟩ := k alive
  have feeds := closeDoneFeeds s there (sound.parted id _ (workersGeneration there)) (gearsGeneration found) rfl
    (setGenerationWheels _ _ _)
  exact ⟨feeds.steady,feeds.manned m⟩

end Clankermux.PayloadWriteClient
