import Clankermux.Handover
import Clankermux.PayloadWriteClient

/-! What decides which worker is fed: the statuses of the generations, the two pointers,
the frame of the rotation and the queue of jobs. `Control` forgets the registry, the
timers and the counters of the client, and reads as a `Handover`. -/
namespace Clankermux.PayloadWriteClient

structure Worker where
  status : GenerationStatus
  purpose : Purpose
  finished : Bool
  onReady : Bool
  closing : Bool

def worker (g : GenerationState) : Worker := ⟨g.status,g.purpose,g.finished,g.onReady,g.onClosed.isSome⟩

structure Control where
  active : Option Nat
  spawning : Bool
  rotation : Option Rotation
  returned : Bool
  nextGeneration : Nat
  workers : Nat → Option Worker
  jobs : List Job
  log : List (HandoverEntry Nat Nat)

def logged : Effect → Option (HandoverEntry Nat Nat)
  | .write generation seq _ _ _ => some (.wrote generation seq)
  | .terminated generation => some (.terminated generation)
  | _ => none

def Client.control (c : Client) : Control where
  active := c.active
  spawning := c.spawning
  rotation := c.rotation
  returned := c.phase == some .returned
  nextGeneration := c.nextGeneration
  workers id := (c.generation id).map worker
  jobs := c.jobs
  log := c.trace.filterMap logged

def Control.handover (x : Control) : Handover Nat Nat := ⟨x.active,x.rotation.map (·.outgoing),x.log⟩

namespace Control

def put (x : Control) (id : Nat) (w : Worker) : Control := { x with workers := Function.update x.workers id (some w) }

def terminate (x : Control) (id : Nat) (w : Worker) : Control :=
  { x.put id { w with status := .dead } with
    active := if x.active = some id then none else x.active
    log := .terminated id::x.log }

def push (x : Control) (job : Job) : Control := { x with jobs := x.jobs ++ [job] }
def settled (x : Control) (id : Nat) (w : Worker) : Control := { x.put id w with spawning := false }

structure Starting (x : Control) (id : Nat) (w : Worker) : Prop where
  spawning : x.spawning = true
  unfinished : w.finished = false
  listening : w.onReady = true
  open_ : w.closing = false
  activate : w.purpose = .activate → x.active = none ∧ x.rotation = none
  rotate : w.purpose = .rotate → ∃ r, x.rotation = some r ∧ r.replacement = id ∧ r.spawned = false

def Known (x : Control) (id : Nat) : Prop := ∃ w, x.workers id = some w

structure Sound (x : Control) : Prop where
  known : ∀ id, x.active = some id → x.Known id
  retiring : ∀ r, x.rotation = some r → x.Known r.outgoing
  alone : x.rotation.isSome → x.active = none
  older : ∀ r, x.rotation = some r → r.outgoing < r.replacement
  dead : ∀ id w, x.workers id = some w → w.status = .dead → .terminated id ∈ x.log
  fresh : ∀ id w, x.workers id = some w → id < x.nextGeneration
  starting : ∀ id w, x.workers id = some w → w.status = .starting → x.Starting id w
  one : ∀ id w other v, x.workers id = some w → x.workers other = some v → w.status = .starting →
    v.status = .starting → id = other
  unfinished : ∀ id w, x.workers id = some w → w.finished = false → w.status = .starting ∨ x.returned = true
  past : x.returned = true → ∀ id w, x.workers id = some w → w.status = .dead
  parted : ∀ id w, x.workers id = some w → w.closing = true → w.status = .closing ∨ w.status = .dead
  quiet : ∀ id, .spawned .activate id true ∉ x.jobs
  spawned : ∀ purpose id ok, .spawned purpose id ok ∈ x.jobs → id < x.nextGeneration ∧
    ∀ w, x.workers id = some w → w.status ≠ .starting
  closed : ∀ id, .closed .rotate id ∈ x.jobs → .terminated id ∈ x.log

variable {x : Control} {id : Nat} {w : Worker}

theorem Sound.activeStarted (h : x.Sound) (fed : x.active = some id) (found : x.workers id = some w) :
    w.status ≠ .starting := by
  intro its
  have s := h.starting id w found its
  cases purpose : w.purpose with
  | activate => have idle := (s.activate purpose).1; rw [fed] at idle; cases idle
  | rotate =>
    obtain ⟨r,rotating,_⟩ := s.rotate purpose
    have idle := h.alone (by simp [rotating])
    rw [fed] at idle; cases idle

theorem Sound.quietRotating (h : x.Sound) {r} (rotating : x.rotation = some r)
    (settled : r.spawned = true ∨ ∀ w, x.workers r.replacement = some w → w.status ≠ .starting) :
    ∀ id w, x.workers id = some w → w.status ≠ .starting := by
  intro id w its begun
  have s := h.starting id w its begun
  cases purpose : w.purpose with
  | activate => have free := (s.activate purpose).2; rw [rotating] at free; cases free
  | rotate =>
    obtain ⟨r',same,replacement,unspawned⟩ := s.rotate purpose
    cases rotating.symm.trans same
    rcases settled with spawned | started
    · cases spawned.symm.trans unspawned
    · exact started w (replacement ▸ its) begun

theorem Sound.noneStarting (h : x.Sound) (fed : x.active.isSome) (found : x.workers id = some w) :
    w.status ≠ .starting := by
  intro its
  have s := h.starting id w found its
  cases purpose : w.purpose with
  | activate => rw [(s.activate purpose).1] at fed; cases fed
  | rotate =>
    obtain ⟨r,rotating,_⟩ := s.rotate purpose
    rw [h.alone (by simp [rotating])] at fed; cases fed

theorem putCases {v u other} (its : (x.put id v).workers other = some u) :
    (other = id ∧ u = v) ∨ (other ≠ id ∧ x.workers other = some u) := by
  by_cases same : other = id
  · subst same
    simp only [Control.put,Function.update_self,Option.some.injEq] at its
    exact .inl ⟨rfl,its.symm⟩
  · simp only [Control.put,Function.update_of_ne same] at its
    exact .inr ⟨same,its⟩

theorem knownPut {v other} (known : x.Known other) : (x.put id v).Known other := by
  obtain ⟨u,its⟩ := known
  by_cases same : other = id
  · exact ⟨v,by simp [Control.put,same]⟩
  · exact ⟨u,by simp [Control.put,Function.update_of_ne same,its]⟩

theorem Sound.put {v} (h : x.Sound) (found : x.workers id = some w) (started : w.status ≠ .starting)
    (still : v.status ≠ .starting) (dead : v.status = .dead → w.status = .dead ∨ .terminated id ∈ x.log)
    (lasting : w.status = .dead → v.status = .dead) (finished : v.finished = w.finished)
    (parted : v.closing = true → v.status = .closing ∨ v.status = .dead) : (x.put id v).Sound := by
  constructor
  · exact fun other fed => knownPut (h.known other fed)
  · exact fun r rotating => knownPut (h.retiring r rotating)
  · exact h.alone
  · exact h.older
  · intro other u its past
    rcases putCases its with ⟨rfl,rfl⟩ | ⟨_,old⟩
    · exact (dead past).elim (h.dead _ w found) id
    · exact h.dead other u old past
  · intro other u its
    rcases putCases its with ⟨rfl,rfl⟩ | ⟨_,old⟩
    · exact h.fresh _ w found
    · exact h.fresh other u old
  · intro other u its begun
    rcases putCases its with ⟨rfl,rfl⟩ | ⟨_,old⟩
    · exact absurd begun still
    · have s := h.starting other u old begun
      exact { s with }
  · intro other u third v' first second begun also
    rcases putCases first with ⟨rfl,rfl⟩ | ⟨_,old⟩
    · exact absurd begun still
    · rcases putCases second with ⟨rfl,rfl⟩ | ⟨_,older⟩
      · exact absurd also still
      · exact h.one other u third v' old older begun also
  · intro other u its unfinished
    rcases putCases its with ⟨rfl,rfl⟩ | ⟨_,old⟩
    · exact .inr ((h.unfinished _ w found (finished ▸ unfinished)).resolve_left started)
    · exact h.unfinished other u old unfinished
  · intro returned other u its
    rcases putCases its with ⟨rfl,rfl⟩ | ⟨_,old⟩
    · exact lasting (h.past returned _ w found)
    · exact h.past returned other u old
  · intro other u its closing
    rcases putCases its with ⟨rfl,rfl⟩ | ⟨_,old⟩
    · exact parted closing
    · exact h.parted other u old closing
  · exact h.quiet
  · intro purpose other ok member
    refine ⟨(h.spawned purpose other ok member).1,fun u its => ?_⟩
    rcases putCases its with ⟨rfl,rfl⟩ | ⟨_,old⟩
    · exact still
    · exact (h.spawned purpose other ok member).2 u old
  · exact h.closed

theorem Sound.logs (id : Nat) (h : x.Sound) :
    Sound { x with active := if x.active = some id then none else x.active,log := .terminated id::x.log } where
  known other fed := by
    have was : x.active = some other := by
      by_contra ne
      split at fed
      · cases fed
      · exact ne fed
    exact h.known other was
  retiring := h.retiring
  alone rotating := by simp [h.alone rotating]
  older := h.older
  dead other u its past := .tail _ (h.dead other u its past)
  fresh := h.fresh
  starting other u its begun := by
    have s := h.starting other u its begun
    exact { s with activate := fun its => ⟨by simp [(s.activate its).1],(s.activate its).2⟩ }
  one := h.one
  unfinished := h.unfinished
  past := h.past
  parted := h.parted
  quiet := h.quiet
  spawned := h.spawned
  closed other member := .tail _ (h.closed other member)

theorem Sound.terminate (h : x.Sound) (found : x.workers id = some w) (started : w.status ≠ .starting) :
    (x.terminate id w).Sound := by
  have logged := Sound.logs id h
  exact logged.put (v := { w with status := .dead }) found started (by simp) (fun _ => .inr (.head _))
    (fun _ => rfl) rfl (fun _ => .inr rfl)

structure Pushable (x : Control) (job : Job) : Prop where
  quiet : ∀ id, job ≠ .spawned .activate id true
  spawned : ∀ purpose id ok, job = .spawned purpose id ok → id < x.nextGeneration ∧
    ∀ w, x.workers id = some w → w.status ≠ .starting
  closed : ∀ id, job = .closed .rotate id → .terminated id ∈ x.log

theorem Sound.jobs (h : x.Sound) (jobs : List Job) (kept : ∀ job ∈ jobs, job ∈ x.jobs ∨ x.Pushable job) :
    Sound { x with jobs } where
  known := h.known
  retiring := h.retiring
  alone := h.alone
  older := h.older
  dead := h.dead
  fresh := h.fresh
  starting other u its begun := by
    have s := h.starting other u its begun
    exact { s with }
  one := h.one
  unfinished := h.unfinished
  past := h.past
  parted := h.parted
  quiet other member := (kept _ member).elim (h.quiet other) (fun p => p.quiet other rfl)
  spawned purpose other ok member :=
    (kept _ member).elim (h.spawned purpose other ok) (fun p => p.spawned purpose other ok rfl)
  closed other member := (kept _ member).elim (h.closed other) (fun p => p.closed other rfl)

theorem Sound.push (h : x.Sound) {job} (ok : x.Pushable job) : (x.push job).Sound := by
  refine h.jobs _ (fun other member => ?_)
  rcases List.mem_append.mp member with old | new
  · exact .inl old
  · exact .inr (List.mem_singleton.mp new ▸ ok)

theorem Sound.pointers (h : x.Sound) (none : ∀ id w, x.workers id = some w → w.status ≠ .starting)
    (active : Option Nat) (spawning : Bool) (rotation : Option Rotation)
    (known : ∀ id, active = some id → x.Known id) (retiring : ∀ r, rotation = some r → x.Known r.outgoing)
    (alone : rotation.isSome → active = .none) (older : ∀ r, rotation = some r → r.outgoing < r.replacement) :
    Sound { x with active,spawning,rotation } where
  known := known
  retiring := retiring
  alone := alone
  older := older
  dead := h.dead
  fresh := h.fresh
  starting other u its begun := absurd begun (none other u its)
  one other u _ _ its _ begun := absurd begun (none other u its)
  unfinished := h.unfinished
  past := h.past
  parted := h.parted
  quiet := h.quiet
  spawned := h.spawned
  closed := h.closed

def start (x : Control) (purpose : Purpose) : Control :=
  { x.put x.nextGeneration ⟨.starting,purpose,false,true,false⟩ with
    spawning := true
    nextGeneration := x.nextGeneration + 1 }

theorem Sound.start (h : x.Sound) (none : ∀ id w, x.workers id = some w → w.status ≠ .starting)
    (running : x.returned = false) {purpose}
    (activate : purpose = .activate → x.active = .none ∧ x.rotation = .none)
    (rotate : purpose = .rotate → ∃ r, x.rotation = some r ∧ r.replacement = x.nextGeneration ∧ r.spawned = false) :
    (x.start purpose).Sound := by
  have cases : ∀ {other u}, (x.start purpose).workers other = some u →
      (other = x.nextGeneration ∧ u = ⟨.starting,purpose,false,true,false⟩) ∨
        (other < x.nextGeneration ∧ x.workers other = some u) := by
    intro other u its
    exact (putCases its).imp id (fun old => ⟨h.fresh other u old.2,old.2⟩)
  have began : ∀ {other u}, (x.start purpose).workers other = some u → u.status = .starting →
      other = x.nextGeneration := by
    intro other u its begun
    rcases cases its with ⟨same,_⟩ | ⟨_,old⟩
    · exact same
    · exact absurd begun (none other u old)
  constructor
  · exact fun other fed => knownPut (h.known other fed)
  · exact fun r rotating => knownPut (h.retiring r rotating)
  · exact h.alone
  · exact h.older
  · intro other u its past
    rcases cases its with ⟨_,rfl⟩ | ⟨_,old⟩
    · cases past
    · exact h.dead other u old past
  · intro other u its
    rcases cases its with ⟨rfl,_⟩ | ⟨below,_⟩
    · exact Nat.lt_succ_self _
    · exact Nat.lt_succ_of_lt below
  · intro other u its begun
    rcases cases its with ⟨rfl,rfl⟩ | ⟨_,old⟩
    · exact ⟨rfl,rfl,rfl,rfl,activate,rotate⟩
    · exact absurd begun (none other u old)
  · intro other u third v first second begun also
    rw [began first begun,began second also]
  · intro other u its unfinished
    rcases cases its with ⟨_,rfl⟩ | ⟨_,old⟩
    · exact .inl rfl
    · exact h.unfinished other u old unfinished
  · intro returned
    cases running.symm.trans returned
  · intro other u its closing
    rcases cases its with ⟨_,rfl⟩ | ⟨_,old⟩
    · cases closing
    · exact h.parted other u old closing
  · exact h.quiet
  · intro p other ok member
    have before := h.spawned p other ok member
    refine ⟨Nat.lt_succ_of_lt before.1,fun u its => ?_⟩
    rcases cases its with ⟨rfl,_⟩ | ⟨_,old⟩
    · exact absurd before.1 (Nat.lt_irrefl _)
    · exact before.2 u old
  · exact h.closed

theorem Sound.settle {v} (h : x.Sound) (found : x.workers id = some w) (begun : w.status = .starting)
    (still : v.status ≠ .starting) (dead : v.status = .dead → .terminated id ∈ x.log) (finished : v.finished = true)
    (parted : v.closing = w.closing) :
    (x.settled id v).Sound := by
  have running : x.returned = false := by
    cases its : x.returned with
    | false => rfl
    | true => have past := h.past its id w found; rw [begun] at past; cases past
  have none : ∀ {other u}, (x.put id v).workers other = some u → u.status ≠ .starting := by
    intro other u its starting
    rcases putCases its with ⟨_,rfl⟩ | ⟨ne,old⟩
    · exact still starting
    · exact ne (h.one other u id w old found starting begun)
  constructor
  · exact fun other fed => knownPut (h.known other fed)
  · exact fun r rotating => knownPut (h.retiring r rotating)
  · exact h.alone
  · exact h.older
  · intro other u its past
    rcases putCases its with ⟨rfl,rfl⟩ | ⟨_,old⟩
    · exact dead past
    · exact h.dead other u old past
  · intro other u its
    rcases putCases its with ⟨rfl,_⟩ | ⟨_,old⟩
    · exact h.fresh _ w found
    · exact h.fresh other u old
  · intro other u its starting
    exact absurd starting (none its)
  · intro other u third v' first _ starting
    exact absurd starting (none first)
  · intro other u its unfinished
    rcases putCases its with ⟨_,rfl⟩ | ⟨_,old⟩
    · rw [finished] at unfinished; cases unfinished
    · exact h.unfinished other u old unfinished
  · intro returned
    cases running.symm.trans returned
  · intro other u its closing
    rcases putCases its with ⟨_,rfl⟩ | ⟨_,old⟩
    · cases closing.symm.trans (parted.trans (h.starting id w found begun).open_)
    · exact h.parted other u old closing
  · exact h.quiet
  · intro purpose other ok member
    exact ⟨(h.spawned purpose other ok member).1,fun u its => none its⟩
  · exact h.closed

theorem Sound.settleReturned {v} (h : x.Sound) (found : x.workers id = some w) (returned : x.returned = true)
    (dead : v.status = .dead) : (x.settled id v).Sound := by
  have past := h.past returned id w found
  have all : ∀ other u, (x.put id v).workers other = some u → u.status = .dead := by
    intro other u its
    rcases putCases its with ⟨_,rfl⟩ | ⟨_,old⟩
    · exact dead
    · exact h.past returned other u old
  constructor
  · exact fun other fed => knownPut (h.known other fed)
  · exact fun r rotating => knownPut (h.retiring r rotating)
  · exact h.alone
  · exact h.older
  · intro other u its _
    rcases putCases its with ⟨rfl,_⟩ | ⟨_,old⟩
    · exact h.dead _ w found past
    · exact h.dead other u old (h.past returned other u old)
  · intro other u its
    rcases putCases its with ⟨rfl,_⟩ | ⟨_,old⟩
    · exact h.fresh _ w found
    · exact h.fresh other u old
  · intro other u its starting
    rw [all other u its] at starting; cases starting
  · intro other u third v' first _ starting
    rw [all other u first] at starting; cases starting
  · exact fun _ _ _ _ => .inr returned
  · exact fun _ other u its => all other u its
  · exact fun other u its _ => .inr (all other u its)
  · exact h.quiet
  · intro purpose other ok member
    refine ⟨(h.spawned purpose other ok member).1,fun u its starting => ?_⟩
    rw [all other u its] at starting; cases starting
  · exact h.closed

end Control
end Clankermux.PayloadWriteClient
