import Clankermux.InsertionMap
import Clankermux.Machine

/-! The manager that keeps one interval for an id. The records stand in a heap, because a run
that has started goes on holding the record it has marked, and a cleanup and a timer go on
belonging to the registration they were made for. -/
namespace Clankermux.IntervalManager

structure IntervalConfig where
  id : String
  intervalMs : Int
  immediate : Bool
  maxConcurrent : Option Nat

structure ActiveInterval where
  config : IntervalConfig
  intervalId : Nat
  lastRun : Int
  isRunning : Bool
  runCount : Nat

/-- A callback that is awaited: the registration whose callback it is, and the record it has marked. -/
structure Run where
  registration : Nat
  interval : Nat
  deriving DecidableEq

structure Manager where
  intervals : InsertionMap String Nat
  isShuttingDown : Bool
  records : Nat → ActiveInterval
  registered : Nat
  -- the armed timers, each with the registration whose callback it runs
  timers : InsertionMap Nat Nat
  handles : Nat
  runs : List Run

def Manager.put (s : Manager) (r : Nat) (record : ActiveInterval) : Manager :=
  {s with records := fun k => if k = r then record else s.records k}

def setInterval (s : Manager) (registration : Nat) : Nat × Manager :=
  (s.handles,{s with timers := s.timers.set s.handles registration, handles := s.handles + 1})

def clearInterval (timers : InsertionMap Nat Nat) (handle : Nat) : InsertionMap Nat Nat := timers.delete handle

def unregister (s : Manager) (id : String) : Bool × Manager :=
  match s.intervals.get id with
  | none => (false,s)
  | some interval => (true,{s with timers := clearInterval s.timers (s.records interval).intervalId, intervals := s.intervals.delete id})

def started (s : Manager) (registration interval : Nat) (now : Int) : Manager :=
  let record := s.records interval
  {s.put interval {record with isRunning := true, lastRun := now, runCount := record.runCount + 1} with
    runs := ⟨registration,interval⟩::s.runs}

def wrappedCallback (s : Manager) (registration : Nat) (now : Int) : Manager :=
  let config := (s.records registration).config
  match s.intervals.get config.id with
  | none => s
  | some interval =>
    if s.isShuttingDown then s
    else if (s.records interval).isRunning && config.maxConcurrent == some 1 then s
    else started s registration interval now

def finished (s : Manager) (run : Run) : Manager :=
  {s.put run.interval {s.records run.interval with isRunning := false} with runs := s.runs.erase run}

def install (s : Manager) (config : IntervalConfig) : Manager :=
  let (intervalId,t) := setInterval s s.registered
  {t.put s.registered ⟨config,intervalId,0,false,0⟩ with
    intervals := t.intervals.set config.id s.registered, registered := s.registered + 1}

def register (s : Manager) (config : IntervalConfig) (now : Int) : Manager :=
  if s.isShuttingDown then s
  else
    let replaced := (unregister s config.id).2
    let installed := install replaced config
    if config.immediate then wrappedCallback installed replaced.registered now else installed

def shutdown (s : Manager) : Manager :=
  {s with
    isShuttingDown := true
    timers := s.intervals.foldl (fun timers (_,interval) => clearInterval timers (s.records interval).intervalId) s.timers
    intervals := []}

def updateInterval (s : Manager) (id : String) (newIntervalMs : Int) : Bool × Manager :=
  match s.intervals.get id with
  | none => (false,s)
  | some interval =>
    let record := s.records interval
    let (intervalId,t) := setInterval {s with timers := clearInterval s.timers record.intervalId} interval
    (true,t.put interval {record with intervalId, config := {record.config with intervalMs := newIntervalMs}})

structure IntervalInfo where
  id : String
  intervalMs : Int
  lastRun : Int
  isRunning : Bool
  runCount : Nat

def getIntervalInfo (s : Manager) : List IntervalInfo :=
  s.intervals.map (fun (id,interval) =>
    let record := s.records interval
    ⟨id,record.config.intervalMs,record.lastRun,record.isRunning,record.runCount⟩)

inductive Event where
  | register (config : IntervalConfig) (now : Int)
  | unregister (id : String)
  | cleanup (registration : Nat)
  | updateInterval (id : String) (newIntervalMs : Int)
  | shutdown
  | fire (handle : Nat) (now : Int)
  | complete (run : Run)

def step (s : Manager) : Event → Option Manager
  | .register config now => some (register s config now)
  | .unregister id => some (unregister s id).2
  | .cleanup registration =>
    if registration < s.registered then some (unregister s (s.records registration).config.id).2 else none
  | .updateInterval id newIntervalMs => some (updateInterval s id newIntervalMs).2
  | .shutdown => some (shutdown s)
  | .fire handle now => (s.timers.get handle).map (fun registration => wrappedCallback s registration now)
  | .complete run => if run ∈ s.runs then some (finished s run) else none

def blank : ActiveInterval := ⟨⟨"",0,false,none⟩,0,0,false,0⟩

def machine : Machine Manager Event where
  init s := s = ⟨[],false,fun _ => blank,0,[],0,[]⟩
  step := step

def Manager.idOf (s : Manager) (registration : Nat) : String := (s.records registration).config.id

def Manager.Live (s : Manager) (registration : Nat) : Prop := s.intervals.get (s.idOf registration) = some registration

def Manager.inFlight (s : Manager) (id : String) : Nat := s.runs.countP (fun run => s.idOf run.registration = id)

def Manager.OneAtATime (s : Manager) (id : String) : Prop :=
  ∀ r < s.registered, s.idOf r = id → (s.records r).config.maxConcurrent = some 1

structure Isolated (s : Manager) (e : Event) (t : Manager) : Prop where
  singleFlight : ∀ id, t.OneAtATime id → t.inFlight id ≤ 1
  cleanup : ∀ r, e = .cleanup r → ¬ t.Live r ∧ ∀ other ≠ r, s.Live other → t.Live other
  timers : ∀ r < t.registered, (t.Live r → ∃! handle, t.timers.get handle = some r) ∧
    (¬ t.Live r → ∀ handle, t.timers.get handle ≠ some r)
  starts : ∀ run, t.runs = run::s.runs → t.Live run.registration ∧ t.isShuttingDown = false
  info : ∀ info ∈ getIntervalInfo t, ∀ r, t.intervals.get info.id = some r → (t.records r).config.maxConcurrent = some 1 →
    (info.isRunning = true ↔ ∃ run ∈ t.runs, run.registration = r)

/-- No id is registered while a run of it is in progress, and no cleanup is called once
its id has another registration. -/
def Event.apart (s : Manager) : Event → Bool
  | .register config _ => s.isShuttingDown || config.maxConcurrent != some 1 || s.inFlight config.id == 0
  | .cleanup r => (s.intervals.get (s.idOf r)).all (fun current => current = r)
  | _ => true

end Clankermux.IntervalManager
