import Clankermux.InsertionMap
import Clankermux.Machine

/-! The main-thread controller of the off-thread payload writer: generations of
workers, one of them active, and a registry of the entries no worker has
acknowledged yet. The workers, the timers and the callers are the environment; the
suspended bodies of `ensureActiveGeneration`, `rotate` and `doDispose` are frames of
the state, resumed through a first-in first-out queue of jobs. Left out are the log,
the contents of a payload and the statistics. -/
namespace Clankermux.PayloadWriteClient
open InsertionMap

def PAYLOAD_ROTATION_BYTE_BUDGET : Nat := 256 * 1024 * 1024
def PAYLOAD_ROTATION_DEADLINE_MS : Int := 10000
def PAYLOAD_READY_TIMEOUT_MS : Nat := 10000
def PAYLOAD_NO_PROGRESS_UNHEALTHY_MS : Int := 30000
def PAYLOAD_NO_PROGRESS_FENCE_MS : Int := 60000
def PAYLOAD_WATCHDOG_INTERVAL_MS : Nat := 1000
def PAYLOAD_RETRY_BASE_MS : Nat := 100
def PAYLOAD_RETRY_MAX_MS : Nat := 5000
def PAYLOAD_RESPAWN_BASE_MS : Nat := 250
def PAYLOAD_RESPAWN_MAX_MS : Nat := 30000
def PAYLOAD_DISPOSE_DEADLINE_MS : Int := 15000

inductive ErrorClass where | entryPermanent | retryable | writerFatal deriving DecidableEq

structure Ack where
  seq : Nat
  committed : Bool
  errorClass : Option ErrorClass
  detail : Option String

inductive Response where
  | ready
  | ack (generation : Nat) (results : List Ack)
  | closed
  | error (detail : String) (errorClass : ErrorClass)

structure EntryInput where
  requestId : String
  timestamp : Int
  transportBytes : Nat
  payloadBytes : Nat

inductive SettlementOutcome where | committed | dropped | expired | abandoned deriving DecidableEq

structure Settlement where
  requestId : String
  transportBytes : Nat
  payloadBytes : Nat
  outcome : SettlementOutcome
  errorClass : Option ErrorClass
  detail : Option String

inductive EntryState where | buffered | sent | retryWait deriving DecidableEq

abbrev TimerHandle := Option Nat

structure RegistryEntry extends EntryInput where
  state : EntryState
  generation : Option Nat
  attempts : Nat
  everSent : Bool
  publishedAt : Int
  sentAt : Int
  retryTimer : TimerHandle

inductive GenerationStatus where | starting | ready | closing | dead deriving DecidableEq

inductive Purpose where | activate | rotate deriving DecidableEq
inductive CloseWaiter where | rotate | dispose deriving DecidableEq

-- A terminated generation has left the map of the source; its record stays here,
-- dead, because messages it posted may still arrive.
structure GenerationState where
  status : GenerationStatus
  publishedBytes : Nat
  purpose : Purpose
  finished : Bool
  onReady : Bool
  onClosed : Option CloseWaiter
  closeSettled : Bool
  readyTimer : TimerHandle
  closeTimer : Option Int

structure Rotation where
  outgoing : Nat
  replacement : Nat
  spawned : Bool

inductive Race where | spawn (chain : Nat) | rotation (replacement : Nat) deriving DecidableEq

inductive DisposePhase where
  | racing (race : Race) (settled : Bool)
  | closing
  | returned
  deriving DecidableEq

structure Disposal where
  deadlineMs : Int
  phase : DisposePhase

-- `caller` stands for code outside the client that runs at its place in the queue.
inductive Job where
  | caller
  | spawned (purpose : Purpose) (generation : Nat) (ok : Bool)
  | clearSpawnInFlight (chain : Nat)
  | closed (waiter : CloseWaiter) (generation : Nat)
  | raced (race : Race)
  | disposeResume
  deriving DecidableEq

inductive Effect where
  | init (generation : Nat)
  | write (generation seq : Nat) (timestamp now : Int) (retentionMs : Option Int)
  | close (generation : Nat)
  | terminated (generation : Nat)
  | settled (seq : Nat) (outcome : SettlementOutcome)
  deriving DecidableEq

structure Stats where
  committed : Nat
  droppedPermanent : Nat
  expired : Nat
  abandoned : Nat
  retries : Nat
  replays : Nat
  rotations : Nat
  spawnFailures : Nat
  fences : Nat

structure Client where
  unacked : InsertionMap Nat RegistryEntry
  generations : InsertionMap Nat GenerationState
  nextSeq : Nat
  nextGeneration : Nat
  active : Option Nat
  spawning : Bool
  spawnInFlight : Option Nat
  rotation : Option Rotation
  rotationSuppressed : Bool
  disposal : Option Disposal
  respawnAttempts : Nat
  respawnTimer : TimerHandle
  watchdogTimer : TimerHandle
  lastAckAt : Int
  admissionSuspended : Bool
  watchdogUnhealthy : Bool
  writerFatal : Option String
  stats : Stats
  rotationByteBudget : Nat
  retentionMs : Option Int
  /-- One reading of the clock serves a whole step. -/
  now : Int
  /-- Which of the step's next calls of the transport throw. -/
  throws : List Bool
  jobs : List Job
  /-- The calls of `onSettled` in this step with the entries they are about, and all
  effects, newest first. -/
  settlements : List (Nat × Settlement)
  trace : List Effect

namespace Client

def entry (c : Client) (seq : Nat) : Option RegistryEntry := get c.unacked seq
def setEntry (c : Client) (seq : Nat) (e : RegistryEntry) : Client := { c with unacked := set c.unacked seq e }
def generation (c : Client) (id : Nat) : Option GenerationState := get c.generations id

def setGeneration (c : Client) (id : Nat) (g : GenerationState) : Client :=
  { c with generations := set c.generations id g }

def modifyGeneration (c : Client) (id : Nat) (f : GenerationState → GenerationState) : Client :=
  match c.generation id with
  | some g => c.setGeneration id (f g)
  | none => c

def hasStatus (c : Client) (id : Nat) (status : GenerationStatus) : Bool :=
  (c.generation id).any (·.status = status)

def enqueue (c : Client) (job : Job) : Client := { c with jobs := c.jobs ++ [job] }
def disposed (c : Client) : Bool := c.disposal.isSome
def phase (c : Client) : Option DisposePhase := c.disposal.map (·.phase)

-- Between two steps both fields of the source are set exactly while the frame exists.
def rotating (c : Client) : Bool := c.rotation.isSome
def rotationInFlight (c : Client) : Option Nat := c.rotation.map (·.replacement)

def call (c : Client) : Bool × Client :=
  match c.throws with
  | [] => (false,c)
  | threw::rest => (threw,{ c with throws := rest })

def post (c : Client) (message : Effect) : Bool × Client := { c with trace := message::c.trace }.call

def acceptsWork (c : Client) : Bool := !c.disposed && !c.admissionSuspended && c.writerFatal.isNone

end Client

def scheduleRespawn (c : Client) : Client :=
  if c.disposed || c.writerFatal.isSome then c
  else if c.respawnTimer.isSome then c
  else { c with
    respawnTimer := some (min PAYLOAD_RESPAWN_MAX_MS (PAYLOAD_RESPAWN_BASE_MS * 2 ^ c.respawnAttempts))
    respawnAttempts := c.respawnAttempts + 1 }

def killGeneration (c : Client) (id : Nat) : Client :=
  match c.generation id with
  | none => c
  | some g =>
    if g.status = .dead then c
    else { c with
      generations := set c.generations id { g with status := .dead,readyTimer := none,closeTimer := none }
      active := if c.active = some id then none else c.active
      trace := .terminated id::c.trace }

def onGenerationDied (c : Client) (id : Nat) : Client :=
  let killed := killGeneration c id
  if killed.disposed || c.active ≠ some id then killed else scheduleRespawn killed

def onWriterFatal (c : Client) (detail : String) : Client :=
  if c.writerFatal.isSome then c else { c with writerFatal := some detail,admissionSuspended := true }

def onSpawnFailure (c : Client) : Client :=
  scheduleRespawn { c with stats.spawnFailures := c.stats.spawnFailures + 1 }

def finish (c : Client) (id : Nat) (ok : Bool) (detail : String) (errorClass : Option ErrorClass) : Client :=
  match c.generation id with
  | none => c
  | some g =>
    if g.finished then c
    else
      let done := { c.setGeneration id { g with finished := true,readyTimer := none } with spawning := false }
      if ok then { done with respawnAttempts := 0 }.enqueue (.spawned g.purpose id true)
      else
        let killed := killGeneration done id
        let failed := if errorClass = some .writerFatal then onWriterFatal killed detail else onSpawnFailure killed
        failed.enqueue (.spawned g.purpose id false)

def newGeneration (purpose : Purpose) : GenerationState :=
  { status := .starting,publishedBytes := 0,purpose,finished := false,onReady := true,onClosed := none
    closeSettled := false,readyTimer := some PAYLOAD_READY_TIMEOUT_MS,closeTimer := none }

def spawnGeneration (c : Client) (purpose : Purpose) : Client :=
  let id := c.nextGeneration
  let (threw,called) := { c with spawning := true,nextGeneration := id + 1 }.call
  if threw then (onSpawnFailure { called with spawning := false }).enqueue (.spawned purpose id false)
  else
    let (failed,posted) := (called.setGeneration id (newGeneration purpose)).post (.init id)
    if failed then finish posted id false "init postMessage failed" none else posted

def ensureActiveGeneration (c : Client) : Client :=
  if c.disposed || c.writerFatal.isSome then c
  else if c.active.isSome || c.spawning || c.rotating then c
  else if c.respawnTimer.isSome then c
  else { spawnGeneration c .activate with spawnInFlight := some c.nextGeneration }

def rotate (c : Client) (outgoing : Nat) : Client :=
  if c.rotating then c
  else spawnGeneration { c with active := none,rotation := some ⟨outgoing,c.nextGeneration,false⟩ } .rotate

def maybeRotate (c : Client) : Client :=
  if c.disposed || c.rotating || c.rotationSuppressed then c
  else if c.respawnTimer.isSome then c
  else
    match c.active with
    | none => c
    | some id =>
      if (c.generation id).any (fun g => c.rotationByteBudget ≤ g.publishedBytes) then rotate c id else c

def settle (c : Client) (seq : Nat) (outcome : SettlementOutcome) (errorClass : Option ErrorClass)
    (detail : Option String) : Client :=
  match c.entry seq with
  | none => c
  | some e => { c with
    unacked := delete c.unacked seq
    settlements := (seq,⟨e.requestId,e.transportBytes,e.payloadBytes,outcome,errorClass,detail⟩)::c.settlements
    trace := .settled seq outcome::c.trace }

def expired (c : Client) (timestamp : Int) : Bool :=
  c.retentionMs.any (fun retentionMs => 0 < retentionMs && retentionMs < c.now - timestamp)

def expire (c : Client) (seq : Nat) : Client :=
  settle { c with stats.expired := c.stats.expired + 1 } seq .expired none none

def readyActive (c : Client) : Option Nat :=
  c.active.filter (fun id => c.hasStatus id .ready && !c.rotating)

def handed (e : RegistryEntry) (id : Nat) (now : Int) : RegistryEntry :=
  { e with state := .sent,generation := some id,sentAt := now,attempts := e.attempts + 1 }

def trySend (c : Client) (seq : Nat) : Client :=
  match c.entry seq with
  | none => c
  | some e =>
    if c.disposed || c.writerFatal.isSome then c
    else
      match readyActive c with
      | none => c.setEntry seq { e with state := .buffered }
      | some id =>
        let sent := { handed e id c.now with everSent := true }
        let (threw,posted) := (c.setEntry seq sent).post (.write id seq e.timestamp c.now c.retentionMs)
        if threw then onGenerationDied (posted.setEntry seq { sent with state := .buffered,generation := none }) id
        else maybeRotate (posted.modifyGeneration id
          (fun g => { g with publishedBytes := g.publishedBytes + e.transportBytes }))

def sendOrReplay (c : Client) (seq : Nat) (e : RegistryEntry) : Client :=
  trySend (if e.everSent then { c with stats.replays := c.stats.replays + 1 } else c) seq

def flushEntry (id : Nat) (c : Client) (seq : Nat) : Client :=
  match c.entry seq with
  | none => c
  | some e =>
    if e.state = .sent ∧ e.generation = some id then c
    else if e.state = .retryWait then c
    else if expired c e.timestamp then expire c seq
    else sendOrReplay c seq e

def flushBuffered (c : Client) : Client :=
  if c.disposed || c.writerFatal.isSome then c
  else
    match readyActive c with
    | none => c
    | some id => (keys c.unacked).foldl (flushEntry id) c

def replayEntry (c : Client) (seq : Nat) : Client :=
  match c.entry seq with
  | none => c
  | some e =>
    if e.state = .sent ∧ c.active.isSome ∧ e.generation = c.active then c
    else if expired c e.timestamp then expire c seq
    else sendOrReplay (c.setEntry seq { e with state := .buffered,generation := none,retryTimer := none }) seq e

def replayToActive (c : Client) : Client := (keys c.unacked).foldl replayEntry c

def startWatchdog (c : Client) : Client :=
  if c.watchdogTimer.isSome || c.disposed then c else { c with watchdogTimer := some PAYLOAD_WATCHDOG_INTERVAL_MS }

def register (c : Client) (input : EntryInput) : Client :=
  let e : RegistryEntry :=
    { toEntryInput := input,state := .buffered,generation := none,attempts := 0,everSent := false
      publishedAt := c.now,sentAt := c.now,retryTimer := none }
  startWatchdog { c with nextSeq := c.nextSeq + 1,unacked := set c.unacked c.nextSeq e }

def publish (c : Client) (input : EntryInput) : Bool × Client :=
  if !c.acceptsWork then (false,c)
  else (true,trySend (ensureActiveGeneration (register c input)) c.nextSeq)

def publishReserved (c : Client) (input : EntryInput) : Bool × Client :=
  if c.disposed then (false,c)
  else if c.admissionSuspended || c.writerFatal.isSome then (true,register c input)
  else (true,trySend (ensureActiveGeneration (register c input)) c.nextSeq)

def beginDisposeDrain (c : Client) : Client := { c with rotationSuppressed := true }

def scheduleRetry (c : Client) (seq : Nat) (e : RegistryEntry) : Client :=
  { c with stats.retries := c.stats.retries + 1 }.setEntry seq { e with
    state := .retryWait
    generation := none
    retryTimer := some (min PAYLOAD_RETRY_MAX_MS (PAYLOAD_RETRY_BASE_MS * 2 ^ (e.attempts - 1))) }

def handleResult (id ackGeneration : Nat) (c : Client) (result : Ack) : Client :=
  match c.entry result.seq with
  | none => c
  | some e =>
    if e.generation ≠ some ackGeneration ∨ ackGeneration ≠ id then c
    else if result.committed then
      settle { c with stats.committed := c.stats.committed + 1 } result.seq .committed none none
    else
      match result.errorClass with
      | some .retryable => scheduleRetry c result.seq e
      | some .writerFatal =>
        (onWriterFatal c (result.detail.getD "unclassified writer failure")).setEntry result.seq
          { e with state := .buffered,generation := none }
      | errorClass =>
        settle { c with stats.droppedPermanent := c.stats.droppedPermanent + 1 } result.seq .dropped errorClass
          result.detail

def resumeAdmission (c : Client) : Client :=
  if c.watchdogUnhealthy then
    { c with
      watchdogUnhealthy := false
      admissionSuspended := if c.writerFatal.isNone then false else c.admissionSuspended }
  else c

def handleAck (c : Client) (id ackGeneration : Nat) (results : List Ack) : Client :=
  let resumed := c.watchdogUnhealthy && c.writerFatal.isNone
  let handled := results.foldl (handleResult id ackGeneration) (resumeAdmission { c with lastAckAt := c.now })
  if resumed then flushBuffered handled else handled

def closeDone (c : Client) (id : Nat) : Client :=
  match c.generation id with
  | none => c
  | some g =>
    match g.onClosed with
    | none => c
    | some waiter =>
      if g.closeSettled then c
      else (killGeneration (c.setGeneration id { g with closeSettled := true,closeTimer := none }) id).enqueue
        (.closed waiter id)

def closeGeneration (c : Client) (id : Nat) (deadlineMs : Int) (waiter : CloseWaiter) : Client :=
  if c.hasStatus id .dead then c.enqueue (.closed waiter id)
  else if deadlineMs ≤ 0 then (killGeneration c id).enqueue (.closed waiter id)
  else
    let closing := c.modifyGeneration id (fun g =>
      { g with onClosed := some waiter,closeSettled := false,status := .closing,closeTimer := some deadlineMs })
    let (threw,posted) := closing.post (.close id)
    if threw then closeDone posted id else posted

def racedBy (c : Client) (race : Race) : Client :=
  if c.phase = some (.racing race false) then c.enqueue (.raced race) else c

def resumeActivation (c : Client) (id : Nat) (ok : Bool) : Client :=
  let activated := if ok then flushBuffered { c with active := some id } else c
  racedBy (activated.enqueue (.clearSpawnInFlight id)) (.spawn id)

def endRotation (c : Client) (r : Rotation) : Client :=
  let ended := { c with rotation := none }
  racedBy (if ended.active.isSome then replayToActive ended else ended) (.rotation r.replacement)

def resumeRotationSpawned (c : Client) (id : Nat) (ok : Bool) : Client :=
  match c.rotation with
  | none => c
  | some r =>
    if r.replacement ≠ id ∨ r.spawned then c
    else if ok then
      closeGeneration { c with rotation := some { r with spawned := true } } r.outgoing PAYLOAD_ROTATION_DEADLINE_MS .rotate
    -- Roll back: the outgoing generation keeps draining.
    else endRotation (if c.hasStatus r.outgoing .dead then c else { c with active := some r.outgoing }) r

def resumeRotationClosed (c : Client) (id : Nat) : Client :=
  match c.rotation with
  | none => c
  | some r =>
    if r.outgoing ≠ id ∨ !r.spawned then c
    -- The replacement can die while the outgoing generation closes.
    else if !c.hasStatus r.replacement .ready then endRotation (scheduleRespawn { c with active := none }) r
    else endRotation { c with active := some r.replacement,stats.rotations := c.stats.rotations + 1 } r

def handleMessage (c : Client) (id : Nat) : Response → Client
  | .ready =>
    match c.generation id with
    | none => c
    | some g =>
      if g.status = .starting then
        let ready := c.setGeneration id { g with status := .ready }
        (if g.onReady then finish ready id true "" none else ready).modifyGeneration id
          (fun g => { g with onReady := false })
      else c
  | .error detail errorClass =>
    match c.generation id with
    | none => c
    | some g =>
      (if g.onReady then finish c id false detail (some errorClass) else c).modifyGeneration id
        (fun g => { g with onReady := false })
  | .closed => (closeDone c id).modifyGeneration id (fun g => { g with onClosed := none })
  | .ack ackGeneration results => handleAck c id ackGeneration results

def onTransportError (c : Client) (id : Nat) (detail : String) : Client :=
  match c.generation id with
  | none => c
  | some g => if g.finished then onGenerationDied c id else finish c id false detail none

def onRetryTimer (c : Client) (seq : Nat) (e : RegistryEntry) : Client :=
  let fired := c.setEntry seq { e with retryTimer := none }
  if expired fired e.timestamp then expire fired seq
  else trySend (ensureActiveGeneration (fired.setEntry seq { e with state := .buffered,retryTimer := none })) seq

def onRespawnTimer (c : Client) : Client :=
  let fired := { c with respawnTimer := none }
  -- A rotation that was rolled back left an active generation over its budget.
  if fired.active.any (fun id => (fired.generation id).any (fun g => fired.rotationByteBudget ≤ g.publishedBytes)) then
    maybeRotate fired
  else ensureActiveGeneration fired

def oldestSentAt (c : Client) : Option Int :=
  c.unacked.foldl (fun oldest seqEntry =>
    if seqEntry.2.state ≠ .sent then oldest
    else
      match oldest with
      | none => some seqEntry.2.sentAt
      | some at_ => some (if seqEntry.2.sentAt < at_ then seqEntry.2.sentAt else at_)) none

def unsend (e : RegistryEntry) : RegistryEntry :=
  if e.state = .sent then { e with state := .buffered,generation := none } else e

def fence (c : Client) : Client :=
  match c.active with
  | none => c
  | some id =>
    let killed := killGeneration { c with stats.fences := c.stats.fences + 1 } id
    scheduleRespawn { killed with
      unacked := killed.unacked.map (fun seqEntry => (seqEntry.1,unsend seqEntry.2))
      lastAckAt := c.now
      watchdogUnhealthy := true
      admissionSuspended := true }

def runWatchdog (c : Client) : Client :=
  if c.disposed || c.writerFatal.isSome then c
  else
    match oldestSentAt c with
    -- Nothing is in flight: an idle writer is not a stalled writer.
    | none =>
      let idle := { c with lastAckAt := c.now }
      if c.watchdogUnhealthy then flushBuffered { idle with watchdogUnhealthy := false,admissionSuspended := false }
      else idle
    | some oldest =>
      let noProgressMs := min (c.now - oldest) (c.now - c.lastAckAt)
      if PAYLOAD_NO_PROGRESS_FENCE_MS ≤ noProgressMs then fence c
      else if PAYLOAD_NO_PROGRESS_UNHEALTHY_MS ≤ noProgressMs ∧ c.watchdogUnhealthy = false then
        { c with watchdogUnhealthy := true,admissionSuspended := true }
      else c

def onWatchdogTimer (c : Client) : Client :=
  let ran := runWatchdog { c with watchdogTimer := none }
  if ran.disposed then ran else { ran with watchdogTimer := some PAYLOAD_WATCHDOG_INTERVAL_MS }

def deadline (c : Client) : Int := (c.disposal.map (·.deadlineMs)).getD PAYLOAD_DISPOSE_DEADLINE_MS
def setPhase (c : Client) (phase : DisposePhase) : Client := { c with disposal := some ⟨deadline c,phase⟩ }

def killAll (c : Client) : Client := (keys c.generations).foldl killGeneration c

def abandon (c : Client) (seq : Nat) : Client :=
  settle { c with stats.abandoned := c.stats.abandoned + 1 } seq .abandoned none none

def finalize (c : Client) : Client :=
  let killed := { killAll c with active := none }
  (setPhase ((keys killed.unacked).foldl abandon killed) .returned).enqueue .caller

def sendDuringDispose (id : Nat) (c : Client) (seq : Nat) (e : RegistryEntry) : Client :=
  let sent := handed e id c.now
  let (threw,posted) := (c.setEntry seq sent).post (.write id seq e.timestamp c.now c.retentionMs)
  if threw then posted.setEntry seq { sent with state := .buffered,generation := none } else posted

def handOverEntry (id : Nat) (c : Client) (seq : Nat) : Client :=
  match c.entry seq with
  | none => c
  | some e =>
    if e.state = .sent ∧ e.generation = some id then c
    else sendDuringDispose id c seq { e with state := .buffered,generation := none }

def handOver (c : Client) : Client :=
  match c.active.filter (fun id => c.hasStatus id .ready && c.writerFatal.isNone) with
  | none => finalize c
  | some id =>
    closeGeneration (setPhase ((keys c.unacked).foldl (handOverEntry id) c) .closing) id (deadline c) .dispose

def raceDeadline (c : Client) (race : Race) : Client :=
  if deadline c ≤ 0 then (setPhase c (.racing race true)).enqueue .disposeResume
  else setPhase c (.racing race false)

def awaitRotation (c : Client) : Client :=
  match c.rotationInFlight with
  | some replacement => raceDeadline c (.rotation replacement)
  | none => handOver c

def awaitSpawn (c : Client) : Client :=
  match c.spawnInFlight with
  | some chain => if c.unacked.isEmpty then awaitRotation c else raceDeadline c (.spawn chain)
  | none => awaitRotation c

def dispose (c : Client) (deadlineMs : Int) : Client :=
  if c.disposed then c
  else awaitSpawn { c with
    disposal := some ⟨deadlineMs,.closing⟩
    admissionSuspended := true
    watchdogTimer := none
    respawnTimer := none
    unacked := c.unacked.map (fun seqEntry => (seqEntry.1,{ seqEntry.2 with retryTimer := none })) }

def settleRace (c : Client) (race : Race) : Client :=
  if c.phase = some (.racing race false) then (setPhase c (.racing race true)).enqueue .disposeResume
  else c

def resumeDispose (c : Client) : Client :=
  match c.phase with
  | some (.racing (.spawn _) true) => awaitRotation c
  | some (.racing (.rotation _) true) => handOver c
  | _ => c

def runJob (c : Client) : Job → Client
  | .caller => c
  | .spawned .activate id ok => resumeActivation c id ok
  | .spawned .rotate id ok => resumeRotationSpawned c id ok
  | .clearSpawnInFlight chain => if c.spawnInFlight = some chain then { c with spawnInFlight := none } else c
  | .closed .rotate id => resumeRotationClosed c id
  | .closed .dispose _ => finalize c
  | .raced race => settleRace c race
  | .disposeResume => resumeDispose c

inductive Op where
  | publish (input : EntryInput)
  | publishReserved (input : EntryInput)
  | beginDisposeDrain
  | dispose (deadlineMs : Int)
  | setRetention (retentionMs : Option Int)

inductive Action where
  | enter
  | op (op : Op)
  | leave (again : Nat)
  | job
  | message (generation : Nat) (response : Response)
  | transportError (generation : Nat) (detail : String)
  | readyTimeout (generation : Nat)
  | closeTimeout (generation : Nat)
  | retryTimeout (seq : Nat)
  | respawnTimeout
  | watchdogTimeout
  | raceTimeout

structure Event where
  now : Int
  throws : List Bool
  action : Action

def runOp (c : Client) : Op → Client
  | .publish input => (publish c input).2
  | .publishReserved input => (publishReserved c input).2
  | .beginDisposeDrain => beginDisposeDrain c
  | .dispose deadlineMs => dispose c deadlineMs
  | .setRetention retentionMs => { c with retentionMs }

def runTask (c : Client) : Action → Option Client
  | .enter => some (c.enqueue .caller)
  | .message id response => (c.generation id).map (fun _ => handleMessage c id response)
  | .transportError id detail => (c.generation id).map (fun _ => onTransportError c id detail)
  | .readyTimeout id =>
    (c.generation id).bind (fun g => if g.readyTimer.isSome then
      some (finish (c.setGeneration id { g with readyTimer := none }) id false
        "payload writer did not report ready in time" none) else none)
  | .closeTimeout id =>
    (c.generation id).bind (fun g => if g.closeTimer.isSome then
      some (closeDone (c.setGeneration id { g with closeTimer := none }) id) else none)
  | .retryTimeout seq =>
    (c.entry seq).bind (fun e => if e.retryTimer.isSome then some (onRetryTimer c seq e) else none)
  | .respawnTimeout => if c.respawnTimer.isSome then some (onRespawnTimer c) else none
  | .watchdogTimeout => if c.watchdogTimer.isSome then some (onWatchdogTimer c) else none
  | .raceTimeout =>
    match c.phase with
    | some (.racing race false) => some ((setPhase c (.racing race true)).enqueue .disposeResume)
    | _ => none
  | _ => none

theorem killGenerationEq {c id g} (found : c.generation id = some g) (alive : g.status ≠ .dead) :
    killGeneration c id = { c.setGeneration id { g with status := .dead,readyTimer := none,closeTimer := none } with
      active := if c.active = some id then none else c.active,trace := .terminated id::c.trace } := by
  simp only [killGeneration,found,if_neg alive]
  rfl

inductive Ran (c : Client) : Action → Client → Prop where
  | enter : Ran c .enter (c.enqueue .caller)
  | message {id} (response : Response) : Ran c (.message id response) (handleMessage c id response)
  | transportError (id : Nat) (detail : String) : Ran c (.transportError id detail) (onTransportError c id detail)
  | readyTimeout {id g} (found : c.generation id = some g) :
      Ran c (.readyTimeout id) (finish (c.setGeneration id { g with readyTimer := none }) id false
        "payload writer did not report ready in time" none)
  | closeTimeout {id g} (found : c.generation id = some g) :
      Ran c (.closeTimeout id) (closeDone (c.setGeneration id { g with closeTimer := none }) id)
  | retryTimeout {seq e} (found : c.entry seq = some e) : Ran c (.retryTimeout seq) (onRetryTimer c seq e)
  | respawnTimeout : Ran c .respawnTimeout (onRespawnTimer c)
  | watchdogTimeout : Ran c .watchdogTimeout (onWatchdogTimer c)
  | raceTimeout {race} (racing : c.phase = some (.racing race false)) :
      Ran c .raceTimeout ((setPhase c (.racing race true)).enqueue .disposeResume)

theorem taskRan {c d action} (ran : runTask c action = some d) : Ran c action d := by
  cases action with
  | enter =>
    cases ran
    exact .enter
  | message id response =>
    obtain ⟨g,_,rfl⟩ := Option.map_eq_some_iff.mp ran
    exact .message response
  | transportError id detail =>
    obtain ⟨g,_,rfl⟩ := Option.map_eq_some_iff.mp ran
    exact .transportError id detail
  | readyTimeout id =>
    obtain ⟨g,found,fires⟩ := Option.bind_eq_some_iff.mp ran
    cases (Option.ite_none_right_eq_some.mp fires).2
    exact .readyTimeout found
  | closeTimeout id =>
    obtain ⟨g,found,fires⟩ := Option.bind_eq_some_iff.mp ran
    cases (Option.ite_none_right_eq_some.mp fires).2
    exact .closeTimeout found
  | retryTimeout seq =>
    obtain ⟨e,found,fires⟩ := Option.bind_eq_some_iff.mp ran
    cases (Option.ite_none_right_eq_some.mp fires).2
    exact .retryTimeout found
  | respawnTimeout =>
    cases (Option.ite_none_right_eq_some.mp ran).2
    exact .respawnTimeout
  | watchdogTimeout =>
    cases (Option.ite_none_right_eq_some.mp ran).2
    exact .watchdogTimeout
  | raceTimeout =>
    simp only [runTask] at ran
    split at ran
    · rename_i race racing
      cases ran
      exact .raceTimeout racing
    · cases ran
  | op | leave | job => cases ran

def begin_ (c : Client) (e : Event) : Client := { c with now := e.now,throws := e.throws,settlements := [] }

def step (c : Client) (e : Event) : Option Client :=
  match c.jobs,e.action with
  | [],action => runTask (begin_ c e) action
  | .caller::_,.op op => some (runOp (begin_ c e) op)
  | .caller::rest,.leave again => some { begin_ c e with jobs := rest ++ List.replicate again .caller }
  | .caller::_,_ => none
  | job::rest,.job => some (runJob { begin_ c e with jobs := rest } job)
  | _::_,_ => none

def Client.start (rotationByteBudget : Nat) (retentionMs : Option Int) (now : Int) : Client :=
  { unacked := [],generations := [],nextSeq := 1,nextGeneration := 1,active := none,spawning := false
    spawnInFlight := none,rotation := none,rotationSuppressed := false,disposal := none,respawnAttempts := 0
    respawnTimer := none,watchdogTimer := none,lastAckAt := now,admissionSuspended := false
    watchdogUnhealthy := false,writerFatal := none,stats := ⟨0,0,0,0,0,0,0,0,0⟩,rotationByteBudget,retentionMs,now
    throws := [],jobs := [],settlements := [],trace := [] }

def machine : Machine Client Event where
  init c := ∃ rotationByteBudget retentionMs now, c = .start rotationByteBudget retentionMs now
  step := step

end Clankermux.PayloadWriteClient
