import Clankermux.PayloadLeads
import Clankermux.PayloadLedger

/-! What keeps the client going: the timers that are armed, the continuations that are
queued and the place of every entry. `Wheels` forgets the rest, `Steady` is what every
step keeps while the client is live, and `Manned` says that somebody attends to each
entry. -/
namespace Clankermux.PayloadWriteClient

structure Gear where
  status : GenerationStatus
  timed : Bool
  closing : Bool

def gear (g : GenerationState) : Gear :=
  ⟨g.status,g.status ≠ .starting || g.readyTimer.isSome,g.status = .closing && g.closeTimer.isSome && g.onClosed = some .rotate && !g.closeSettled⟩

structure Station where
  state : EntryState
  generation : Option Nat
  retrying : Bool

def station (e : RegistryEntry) : Station := ⟨e.state,e.generation,e.retryTimer.isSome⟩

structure Wheels where
  live : Bool
  suspended : Bool
  unhealthy : Bool
  spawning : Bool
  respawning : Bool
  active : Option Nat
  rotation : Option Rotation
  next : Nat
  gears : Nat → Option Gear
  stations : Nat → Option Station
  jobs : List Job

def Client.wheels (c : Client) : Wheels where
  live := c.live
  suspended := c.admissionSuspended
  unhealthy := c.watchdogUnhealthy
  spawning := c.spawning
  respawning := c.respawnTimer.isSome
  active := c.active
  rotation := c.rotation
  next := c.nextGeneration
  gears id := (c.generation id).map gear
  stations seq := (c.entry seq).map station
  jobs := c.jobs

namespace Wheels

def Starting (x : Wheels) (id : Nat) : Prop := ∃ g, x.gears id = some g ∧ g.status = .starting

def InFlight (x : Wheels) : Prop :=
  (∃ id, x.Starting id) ∨ (∃ id, .spawned .activate id true ∈ x.jobs) ∨ x.rotation.isSome ∨ x.respawning = true

structure Steady (x : Wheels) : Prop where
  ready : ∀ id, x.active = some id → ∃ g, x.gears id = some g ∧ g.status = .ready
  alone : x.rotation.isSome → x.active = none
  fresh : ∀ id g, x.gears id = some g → id < x.next
  begun : ∀ id, x.Starting id → x.spawning = true ∧ x.active = none
  timed : ∀ id g, x.gears id = some g → g.status = .starting → g.timed = true
  spawning : x.spawning = true → ∃ id, x.Starting id
  suspended : x.suspended = x.unhealthy
  retrying : ∀ seq s, x.stations seq = some s → s.state = .retryWait → s.retrying = true
  failed : ∀ purpose id, .spawned purpose id false ∈ x.jobs → x.respawning = true
  outgoing : ∀ r, x.rotation = some r → r.spawned = false →
    ∃ g, x.gears r.outgoing = some g ∧ (g.status = .ready ∨ g.status = .dead)
  spawned : ∀ r, x.rotation = some r → r.spawned = false →
    x.Starting r.replacement ∨ ∃ ok, .spawned .rotate r.replacement ok ∈ x.jobs
  closed : ∀ r, x.rotation = some r → r.spawned = true →
    (∃ g, x.gears r.outgoing = some g ∧ g.closing = true) ∨ .closed .rotate r.outgoing ∈ x.jobs

def Attended (x : Wheels) (id seq : Nat) : Prop :=
  ∀ s, x.stations seq = some s → (s.state = .sent ∧ s.generation = some id) ∨ s.state = .retryWait

structure Manned (x : Wheels) : Prop where
  held : ∀ id, x.active = some id → ∀ seq, x.Attended id seq ∨ x.suspended = true
  idle : x.active = none → x.InFlight ∨ (x.suspended = false ∧ ∀ seq, x.stations seq = none)

structure Feeds (x y : Wheels) : Prop where
  steady : Steady y
  live : y.live = x.live
  suspended : y.suspended = x.suspended
  active : y.active = x.active ∨ (y.active = none ∧ y.InFlight)
  flight : x.InFlight → y.InFlight
  present : ∀ seq, (y.stations seq).isSome → (x.stations seq).isSome
  held : ∀ id seq, y.active = some id → x.Attended id seq → y.Attended id seq

variable {x y z : Wheels} {id : Nat} {g : Gear}

theorem Feeds.refl (s : Steady x) : Feeds x x :=
  ⟨s,rfl,rfl,.inl rfl,fun flight => flight,fun _ present => present,fun _ _ _ held => held⟩

theorem Feeds.trans (first : Feeds x y) (second : Feeds y z) : Feeds x z := by
  refine ⟨second.steady,second.live.trans first.live,second.suspended.trans first.suspended,?_,
    fun flight => second.flight (first.flight flight),fun seq present => first.present seq (second.present seq present),?_⟩
  · rcases second.active with same | idle
    · rcases first.active with before | ⟨idle,flight⟩
      · exact .inl (same.trans before)
      · exact .inr ⟨same.trans idle,second.flight flight⟩
    · exact .inr idle
  · intro id seq fed held
    have mid : y.active = some id := by
      rcases second.active with same | idle
      · exact same ▸ fed
      · rw [idle.1] at fed; cases fed
    exact second.held id seq fed (first.held id seq mid held)

theorem Feeds.shift (steady : Steady y) (live : y.live = x.live) (suspended : y.suspended = x.suspended)
    (stations : y.stations = x.stations) (active : y.active = x.active ∨ (y.active = none ∧ y.InFlight))
    (flight : x.InFlight → y.InFlight) : Feeds x y := by
  refine ⟨steady,live,suspended,active,flight,?_,?_⟩
  · intro seq present
    rwa [stations] at present
  · intro id seq _ held
    unfold Attended at held ⊢
    rwa [stations]

theorem Feeds.manned (f : Feeds x y) (m : Manned x) : Manned y := by
  constructor
  · intro id fed seq
    have was : x.active = some id := by
      rcases f.active with same | idle
      · exact same ▸ fed
      · rw [idle.1] at fed; cases fed
    exact (m.held id was seq).imp (f.held id seq fed) (fun suspended => f.suspended.trans suspended)
  · intro none
    rcases f.active with same | idle
    · rcases m.idle (same ▸ none) with flight | ⟨open_,empty⟩
      · exact .inl (f.flight flight)
      · refine .inr ⟨f.suspended.trans open_,fun seq => ?_⟩
        cases there : y.stations seq with
        | none => rfl
        | some s =>
          have before := f.present seq (by simp [there])
          simp [empty seq] at before
    · exact .inl idle.2

theorem Steady.station {seq new} (s : Steady x)
    (timer : new.state = .retryWait → new.retrying = true) :
    Steady { x with stations := Function.update x.stations seq (some new) } :=
  { s with
    retrying := fun other t its waiting => by
      by_cases same : other = seq
      · subst same
        simp only [Function.update_self,Option.some.injEq] at its
        subst its
        exact timer waiting
      · exact s.retrying other t (by simpa [Function.update_of_ne same] using its) waiting
    begun := s.begun,spawning := s.spawning,spawned := s.spawned }

def respawn (x : Wheels) : Wheels := { x with respawning := x.respawning || x.live }

theorem Steady.respawn (s : Steady x) : Steady x.respawn :=
  { s with
    failed := fun purpose id member => by simp [Wheels.respawn,s.failed purpose id member]
    begun := s.begun,spawning := s.spawning,spawned := s.spawned }

theorem respawnInFlight (live : x.live = true) : x.respawn.InFlight := .inr (.inr (.inr (by simp [respawn,live])))

def kill (x : Wheels) (id : Nat) : Wheels :=
  { x with
    gears := Function.update x.gears id (some ⟨.dead,true,false⟩)
    active := if x.active = some id then none else x.active }

theorem killStarting {other} (starting : (x.kill id).Starting other) : other ≠ id ∧ x.Starting other := by
  obtain ⟨g,its,begun⟩ := starting
  by_cases same : other = id
  · subst same
    simp only [kill,Function.update_self,Option.some.injEq] at its
    rw [← its] at begun
    cases begun
  · exact ⟨same,g,by simpa [kill,Function.update_of_ne same] using its,begun⟩

theorem startingKill {other} (ne : other ≠ id) (starting : x.Starting other) : (x.kill id).Starting other := by
  obtain ⟨g,its,begun⟩ := starting
  exact ⟨g,by simp [kill,Function.update_of_ne ne,its],begun⟩

theorem Steady.kill (s : Steady x) (found : x.gears id = some g) (started : g.status ≠ .starting)
    (free : ∀ r, x.rotation = some r → r.spawned = true → r.outgoing = id →
      g.closing = false ∨ .closed .rotate id ∈ x.jobs) : Steady (x.kill id) := by
  have other : ∀ {n}, x.Starting n → n ≠ id := by
    intro n ⟨g',its,begun⟩ same
    subst same
    cases found.symm.trans its
    exact started begun
  constructor
  · intro a fed
    simp only [Wheels.kill] at fed
    split at fed
    · cases fed
    · rename_i ne
      have diff : a ≠ id := fun same => ne (same ▸ fed)
      obtain ⟨g',its,ready⟩ := s.ready a fed
      exact ⟨g',by simp [Wheels.kill,Function.update_of_ne diff,its],ready⟩
  · intro rotating
    simp [Wheels.kill,s.alone rotating]
  · intro n g' its
    by_cases same : n = id
    · exact same ▸ s.fresh id g found
    · exact s.fresh n g' (by simpa [Wheels.kill,Function.update_of_ne same] using its)
  · intro n starting
    obtain ⟨spawning,idle⟩ := s.begun n (killStarting starting).2
    exact ⟨spawning,by simp [Wheels.kill,idle]⟩
  · intro n g' its begun
    by_cases same : n = id
    · subst same
      simp only [Wheels.kill,Function.update_self,Option.some.injEq] at its
      rw [← its] at begun
      cases begun
    · exact s.timed n g' (by simpa [Wheels.kill,Function.update_of_ne same] using its) begun
  · intro spawning
    obtain ⟨n,starting⟩ := s.spawning spawning
    exact ⟨n,startingKill (other starting) starting⟩
  · exact s.suspended
  · exact s.retrying
  · exact s.failed
  · intro r rotating unspawned
    by_cases same : r.outgoing = id
    · exact ⟨⟨.dead,true,false⟩,by simp [Wheels.kill,same],.inr rfl⟩
    · obtain ⟨g',its,status⟩ := s.outgoing r rotating unspawned
      exact ⟨g',by simp [Wheels.kill,Function.update_of_ne same,its],status⟩
  · intro r rotating unspawned
    exact (s.spawned r rotating unspawned).imp (fun starting => startingKill (other starting) starting) (fun queued => queued)
  · intro r rotating spawned
    rcases s.closed r rotating spawned with ⟨g',its,closing⟩ | queued
    · by_cases same : r.outgoing = id
      · rw [same] at its
        cases found.symm.trans its
        rcases free r rotating spawned same with open_ | queued
        · cases open_.symm.trans closing
        · exact .inr (same ▸ queued)
      · exact .inl ⟨g',by simp [Wheels.kill,Function.update_of_ne same,its],closing⟩
    · exact .inr queued

theorem InFlight.kill (flight : x.InFlight) (found : x.gears id = some g) (started : g.status ≠ .starting) :
    (x.kill id).InFlight := by
  rcases flight with ⟨n,starting⟩ | queued | rotating | due
  · refine .inl ⟨n,startingKill ?_ starting⟩
    intro same
    obtain ⟨g',its,begun⟩ := starting
    rw [same] at its
    cases found.symm.trans its
    exact started begun
  · exact .inr (.inl queued)
  · exact .inr (.inr (.inl rotating))
  · exact .inr (.inr (.inr due))

def settle (x : Wheels) (id : Nat) (status : GenerationStatus) (job : Job) (due : Bool) : Wheels :=
  { x with
    gears := Function.update x.gears id (some ⟨status,true,false⟩)
    spawning := false
    respawning := x.respawning || due
    jobs := x.jobs ++ [job] }

theorem Steady.settle {status purpose ok} (s : Steady x)
    (starting : x.Starting id) (one : ∀ other, x.Starting other → other = id)
    (rotating : ∀ r, x.rotation = some r → purpose = .rotate ∧ r.replacement = id ∧ r.spawned = false)
    (settled : status ≠ .starting) :
    Steady (x.settle id status (.spawned purpose id ok) !ok) := by
  have gone : ∀ other, ¬ (x.settle id status (.spawned purpose id ok) !ok).Starting other := by
    rintro other ⟨g',its,begun⟩
    by_cases same : other = id
    · subst same
      simp only [Wheels.settle,Function.update_self,Option.some.injEq] at its
      rw [← its] at begun
      exact settled begun
    · exact same (one other ⟨g',by simpa [Wheels.settle,Function.update_of_ne same] using its,begun⟩)
  obtain ⟨g,found,begun⟩ := starting
  constructor
  · intro a fed
    obtain ⟨g',its,ready⟩ := s.ready a fed
    have diff : a ≠ id := by
      intro same
      rw [same] at its
      cases found.symm.trans its
      rw [begun] at ready
      cases ready
    exact ⟨g',by simp [Wheels.settle,Function.update_of_ne diff,its],ready⟩
  · exact s.alone
  · intro n g' its
    by_cases same : n = id
    · exact same ▸ s.fresh id g found
    · exact s.fresh n g' (by simpa [Wheels.settle,Function.update_of_ne same] using its)
  · intro n its
    exact absurd its (gone n)
  · intro n g' its status'
    exact absurd ⟨g',its,status'⟩ (gone n)
  · intro spawning
    cases spawning
  · exact s.suspended
  · exact s.retrying
  · intro purpose' n member
    rcases List.mem_append.mp member with old | new
    · simp [Wheels.settle,s.failed purpose' n old]
    · cases List.mem_singleton.mp new
      simp [Wheels.settle]
  · intro r its unspawned
    obtain ⟨g',there,status'⟩ := s.outgoing r its unspawned
    have diff : r.outgoing ≠ id := by
      intro same
      rw [same] at there
      cases found.symm.trans there
      rw [begun] at status'
      rcases status' with no | no <;> cases no
    exact ⟨g',by simp [Wheels.settle,Function.update_of_ne diff,there],status'⟩
  · intro r its unspawned
    obtain ⟨rotate,same,_⟩ := rotating r its
    exact .inr ⟨ok,List.mem_append_right _ (by simp [rotate,same])⟩
  · intro r its spawned
    cases spawned.symm.trans (rotating r its).2.2

def start (x : Wheels) (active : Option Nat) (rotation : Option Rotation) : Wheels :=
  { x with
    active,rotation
    gears := Function.update x.gears x.next (some ⟨.starting,true,false⟩)
    spawning := true
    next := x.next + 1 }

def Begins (x : Wheels) (active : Option Nat) (rotation : Option Rotation) : Prop :=
  (active = x.active ∨ active = none) ∧ ∀ r, rotation = some r → active = none ∧ r.replacement = x.next ∧
    r.spawned = false ∧ ∃ g, x.gears r.outgoing = some g ∧ (g.status = .ready ∨ g.status = .dead)

theorem Steady.start {active rotation} (s : Steady x) (begins : x.Begins active rotation)
    (idle : active = none) : Steady (x.start active rotation) := by
  have free : x.gears x.next = none := by
    cases there : x.gears x.next with
    | none => rfl
    | some g => exact absurd (s.fresh _ g there) (Nat.lt_irrefl _)
  have old : ∀ {n g'}, x.gears n = some g' → n ≠ x.next := by
    intro n g' its same
    rw [same,free] at its
    cases its
  have first : (x.start active rotation).Starting x.next := ⟨⟨.starting,true,false⟩,by simp [Wheels.start],rfl⟩
  constructor
  · intro a fed
    cases fed.symm.trans idle
  · exact fun _ => idle
  · intro n g' its
    by_cases same : n = x.next
    · exact same ▸ Nat.lt_succ_self _
    · exact Nat.lt_succ_of_lt (s.fresh n g' (by simpa [Wheels.start,Function.update_of_ne same] using its))
  · exact fun _ _ => ⟨rfl,idle⟩
  · intro n g' its begun
    by_cases same : n = x.next
    · subst same
      simp only [Wheels.start,Function.update_self,Option.some.injEq] at its
      rw [← its]
    · exact s.timed n g' (by simpa [Wheels.start,Function.update_of_ne same] using its) begun
  · exact fun _ => ⟨x.next,first⟩
  · exact s.suspended
  · exact s.retrying
  · exact s.failed
  · intro r its _
    obtain ⟨_,_,_,g',there,status⟩ := begins.2 r its
    exact ⟨g',by simp [Wheels.start,Function.update_of_ne (old there),there],status⟩
  · intro r its _
    exact .inl ((begins.2 r its).2.1 ▸ first)
  · intro r its spawned
    cases spawned.symm.trans (begins.2 r its).2.2.1

def stillborn (x : Wheels) (active : Option Nat) (rotation : Option Rotation) (job : Job) : Wheels :=
  { x with
    active,rotation
    spawning := false
    respawning := x.respawning || x.live
    next := x.next + 1
    jobs := x.jobs ++ [job] }

theorem Steady.stillborn {active rotation purpose} (s : Steady x)
    (live : x.live = true) (quiet : ∀ id, ¬ x.Starting id) (begins : x.Begins active rotation)
    (rotate : rotation.isSome → purpose = .rotate) :
    Steady (x.stillborn active rotation (.spawned purpose x.next false)) := by
  constructor
  · intro a fed
    rcases begins.1 with same | none
    · exact s.ready a (same ▸ fed)
    · cases none.symm.trans fed
  · intro rotating
    obtain ⟨r,its⟩ := Option.isSome_iff_exists.mp rotating
    exact (begins.2 r its).1
  · exact fun n g' its => Nat.lt_succ_of_lt (s.fresh n g' its)
  · exact fun n starting => absurd starting (quiet n)
  · exact s.timed
  · intro spawning
    cases spawning
  · exact s.suspended
  · exact s.retrying
  · intro _ _ _
    simp [Wheels.stillborn,live]
  · intro r its _
    exact (begins.2 r its).2.2.2
  · intro r its _
    refine .inr ⟨false,List.mem_append_right _ ?_⟩
    simp [rotate (Option.isSome_iff_exists.mpr ⟨r,its⟩),(begins.2 r its).2.1]
  · intro r its spawned
    cases spawned.symm.trans (begins.2 r its).2.2.1

theorem Steady.push {job} (s : Steady x) (mild : ∀ purpose id, job ≠ .spawned purpose id false) :
    Steady { x with jobs := x.jobs ++ [job] } :=
  { s with
    failed := fun purpose id member => by
      rcases List.mem_append.mp member with old | new
      · exact s.failed purpose id old
      · exact absurd (List.mem_singleton.mp new).symm (mild purpose id)
    spawned := fun r its unspawned => (s.spawned r its unspawned).imp (fun starting => starting)
      (fun ⟨ok,queued⟩ => ⟨ok,List.mem_append_left _ queued⟩)
    closed := fun r its spawned => (s.closed r its spawned).imp (fun waiting => waiting) (List.mem_append_left _)
    begun := s.begun,spawning := s.spawning }

theorem InFlight.push {job} (flight : x.InFlight) : InFlight { x with jobs := x.jobs ++ [job] } := by
  rcases flight with starting | ⟨id,queued⟩ | rotating | due
  · exact .inl starting
  · exact .inr (.inl ⟨id,List.mem_append_left _ queued⟩)
  · exact .inr (.inr (.inl rotating))
  · exact .inr (.inr (.inr due))

theorem Steady.pop {job rest} (s : Steady x) (queued : x.jobs = job::rest)
    (spawned : ∀ r, x.rotation = some r → r.spawned = false → ∀ ok, job ≠ .spawned .rotate r.replacement ok)
    (closed : ∀ r, x.rotation = some r → r.spawned = true → job ≠ .closed .rotate r.outgoing) :
    Steady { x with jobs := rest } :=
  { s with
    failed := fun purpose id member => s.failed purpose id (queued ▸ .tail _ member)
    spawned := fun r its unspawned => (s.spawned r its unspawned).imp (fun starting => starting) (fun ⟨ok,member⟩ => by
      rw [queued] at member
      exact ⟨ok,(List.mem_cons.mp member).resolve_left (fun same => spawned r its unspawned ok same.symm)⟩)
    closed := fun r its done => (s.closed r its done).imp (fun waiting => waiting) (fun member => by
      rw [queued] at member
      exact (List.mem_cons.mp member).resolve_left (fun same => closed r its done same.symm))
    begun := s.begun,spawning := s.spawning }

theorem Steady.retire {r} (s : Steady x) (w : Gear) (jobs : List Job) (rotating : x.rotation = some r)
    (found : x.gears r.outgoing = some g) (quiet : ∀ id, ¬ x.Starting id) (settled : w.status ≠ .starting)
    (armed : w.closing = true ∨ .closed .rotate r.outgoing ∈ jobs)
    (failed : ∀ purpose id, .spawned purpose id false ∈ jobs → x.respawning = true) :
    Steady { x with
      rotation := some { r with spawned := true }
      gears := Function.update x.gears r.outgoing (some w)
      jobs } := by
  have idle := s.alone (by simp [rotating])
  have still : ∀ id, ¬ Starting { x with
      rotation := some { r with spawned := true }
      gears := Function.update x.gears r.outgoing (some w)
      jobs } id := by
    rintro id ⟨g',its,begun⟩
    by_cases same : id = r.outgoing
    · subst same
      simp only [Function.update_self,Option.some.injEq] at its
      exact settled (its ▸ begun)
    · exact quiet id ⟨g',by simpa [Function.update_of_ne same] using its,begun⟩
  constructor
  · intro a fed
    cases idle.symm.trans fed
  · exact fun _ => idle
  · intro n g' its
    by_cases same : n = r.outgoing
    · exact Nat.lt_of_le_of_lt (Nat.le_of_eq same) (s.fresh r.outgoing g found)
    · exact s.fresh n g' (by simpa [Function.update_of_ne same] using its)
  · exact fun n starting => absurd starting (still n)
  · exact fun n g' its begun => absurd ⟨g',its,begun⟩ (still n)
  · intro spawning
    obtain ⟨n,starting⟩ := s.spawning spawning
    exact absurd starting (quiet n)
  · exact s.suspended
  · exact s.retrying
  · exact failed
  · intro r' its unspawned
    cases its
    cases unspawned
  · intro r' its unspawned
    cases its
    cases unspawned
  · intro r' its _
    cases its
    exact armed.imp (fun closing => ⟨w,by simp,closing⟩) (fun queued => queued)

theorem Steady.rotated {active jobs} (s : Steady x) (quiet : ∀ id, ¬ x.Starting id)
    (ready : ∀ id, active = some id → ∃ g, x.gears id = some g ∧ g.status = .ready)
    (failed : ∀ purpose id, .spawned purpose id false ∈ jobs → x.respawning = true) :
    Steady { x with active,rotation := none,jobs } :=
  { s with
    ready,failed
    alone := fun rotating => by cases rotating
    begun := fun id starting => absurd starting (quiet id)
    spawning := fun spawning => absurd (s.spawning spawning) (fun ⟨id,starting⟩ => quiet id starting)
    outgoing := fun r its => by cases its
    spawned := fun r its => by cases its
    closed := fun r its => by cases its }

end Wheels
end Clankermux.PayloadWriteClient
