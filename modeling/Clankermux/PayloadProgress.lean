import Clankermux.PayloadWheels

/-! The client cannot wedge, as long as no generation whose close acknowledgement a
rotation awaits reports an error of its transport. -/
namespace Clankermux.PayloadWriteClient
open InsertionMap Wheels

variable {c d : Client} {id seq : Nat} {g : GenerationState} {x : Wheels}

theorem gearsGeneration (found : c.generation id = some g) : c.wheels.gears id = some (gear g) := by
  simp [Client.wheels,found]

theorem stationsEntry {e} (found : c.entry seq = some e) : c.wheels.stations seq = some (station e) := by
  simp [Client.wheels,found]

theorem generationGears {w} (its : c.wheels.gears id = some w) : ∃ g, c.generation id = some g ∧ gear g = w := by
  simpa [Client.wheels] using its

theorem setGenerationWheels (c : Client) (id : Nat) (g : GenerationState) :
    (c.setGeneration id g).wheels = { c.wheels with gears := Function.update c.wheels.gears id (some (gear g)) } := by
  have gears : (c.setGeneration id g).wheels.gears = Function.update c.wheels.gears id (some (gear g)) := by
    funext other
    by_cases same : other = id
    · subst same
      simp [Client.wheels,Client.setGeneration,Client.generation]
    · simp [Client.wheels,Client.setGeneration,Client.generation,getSetOther same,Function.update_of_ne same]
  calc (c.setGeneration id g).wheels = { c.wheels with gears := (c.setGeneration id g).wheels.gears } := rfl
    _ = _ := by rw [gears]

theorem setEntryWheels (c : Client) (seq : Nat) (e : RegistryEntry) :
    (c.setEntry seq e).wheels = { c.wheels with stations := Function.update c.wheels.stations seq (some (station e)) } := by
  have stations : (c.setEntry seq e).wheels.stations = Function.update c.wheels.stations seq (some (station e)) := by
    funext other
    by_cases same : other = seq
    · subst same
      simp [Client.wheels,Client.setEntry,Client.entry]
    · simp [Client.wheels,Client.setEntry,Client.entry,getSetOther same,Function.update_of_ne same]
  calc (c.setEntry seq e).wheels = { c.wheels with stations := (c.setEntry seq e).wheels.stations } := rfl
    _ = _ := by rw [stations]

theorem setGenerationSame {g'} (found : c.generation id = some g) (same : gear g' = gear g) :
    (c.setGeneration id g').wheels = c.wheels := by
  have kept : Function.update c.wheels.gears id (some (gear g)) = c.wheels.gears := by
    rw [← gearsGeneration found,Function.update_eq_self]
  rw [setGenerationWheels,same,kept]

theorem modifyGenerationWheels {f} (same : ∀ g, gear (f g) = gear g) :
    (c.modifyGeneration id f).wheels = c.wheels := by
  unfold Client.modifyGeneration
  split
  · rename_i g found
    exact setGenerationSame found (same g)
  · rfl

theorem callWheels (c : Client) : c.call.2.wheels = c.wheels := by
  unfold Client.call
  split <;> rfl

theorem scheduleRespawnWheels (c : Client) : (scheduleRespawn c).wheels = c.wheels.respawn := by
  unfold scheduleRespawn
  split
  · rename_i past
    have dead : c.live = false := by
      simp only [Bool.or_eq_true] at past
      rcases past with gone | fatal
      · simp [Client.live,Option.isNone_eq_false_iff.mpr gone]
      · simp [Client.live,Option.isNone_eq_false_iff.mpr fatal]
    simp [Wheels.respawn,Client.wheels,dead]
  rename_i running
  split
  · rename_i due
    simp [Wheels.respawn,Client.wheels,due]
  · have live : c.live = true := by simpa [Client.live,Client.disposed] using running
    have kept : ∀ timer, timer.isSome = true →
        ({ c with respawnTimer := timer,respawnAttempts := c.respawnAttempts + 1 } : Client).wheels = c.wheels.respawn := by
      intro timer set
      have due : (c.respawnTimer.isSome || c.live) = true := by simp [live]
      calc _ = { c.wheels with respawning := timer.isSome } := rfl
        _ = { c.wheels with respawning := c.respawnTimer.isSome || c.live } := by rw [set,due]
    exact kept _ rfl

theorem killGenerationWheels (found : c.generation id = some g) (alive : g.status ≠ .dead) :
    (killGeneration c id).wheels = c.wheels.kill id := by
  let dead : GenerationState := { g with status := .dead,readyTimer := none,closeTimer := none }
  rw [killGenerationEq found alive]
  calc ({ c.setGeneration id dead with
        active := if c.active = some id then none else c.active,trace := .terminated id::c.trace } : Client).wheels
      = { (c.setGeneration id dead).wheels with active := if c.active = some id then none else c.active } := rfl
    _ = c.wheels.kill id := by rw [setGenerationWheels]; rfl

theorem runningLive (live : c.wheels.live = true) : c.disposed = false ∧ c.writerFatal.isSome = false := by
  have both : c.disposal = none ∧ c.writerFatal = none := by simpa [Client.wheels,Client.live] using live
  simp [Client.disposed,both.1,both.2]

theorem readyActiveOf (s : Steady c.wheels) : readyActive c = c.active := by
  cases fed : c.active with
  | none => simp [readyActive,fed]
  | some id =>
    obtain ⟨w,its,ready⟩ := s.ready id fed
    obtain ⟨g,found,rfl⟩ := generationGears its
    have status : g.status = .ready := ready
    have free : c.rotation = none := by
      cases rotating : c.rotation with
      | none => rfl
      | some r =>
        have idle := s.alone (show c.rotation.isSome = true by simp [rotating])
        cases idle.symm.trans fed
    simp [readyActive,fed,Client.hasStatus,found,status,Client.rotating,free]

theorem killGenerationDisposed (c : Client) (id : Nat) : (killGeneration c id).disposed = c.disposed := by
  unfold killGeneration
  repeat' split
  all_goals rfl

theorem fedDied (s : Steady c.wheels) (live : c.wheels.live = true) (fed : c.active = some id) :
    Feeds c.wheels (onGenerationDied c id).wheels ∧ (onGenerationDied c id).active = none ∧
      (onGenerationDied c id).wheels.InFlight := by
  obtain ⟨w,its,ready⟩ := s.ready id fed
  obtain ⟨g,found,rfl⟩ := generationGears its
  have status : g.status = .ready := ready
  have result : onGenerationDied c id = scheduleRespawn (killGeneration c id) := by
    simp [onGenerationDied,killGenerationDisposed,(runningLive live).1,fed]
  have wheels : (onGenerationDied c id).wheels = (c.wheels.kill id).respawn := by
    rw [result,scheduleRespawnWheels,killGenerationWheels found (by simp [status])]
  have steady := s.kill its (by simp [ready]) (fun _ _ _ _ => .inl (by simp [gear,status]))
  have idle : (c.wheels.kill id).respawn.active = none := if_pos fed
  have flight : (c.wheels.kill id).respawn.InFlight := respawnInFlight live
  refine ⟨?_,(congrArg Wheels.active wheels).trans idle,wheels ▸ flight⟩
  rw [wheels]
  exact .shift steady.respawn rfl rfl rfl (.inr ⟨idle,flight⟩) (fun _ => flight)

theorem onGenerationDiedFeeds (s : Steady c.wheels) (live : c.wheels.live = true) (found : c.generation id = some g)
    (started : g.status ≠ .starting)
    (free : ∀ r, c.rotation = some r → r.spawned = true → r.outgoing = id →
      (gear g).closing = false ∨ .closed .rotate id ∈ c.jobs) :
    Feeds c.wheels (onGenerationDied c id).wheels := by
  by_cases fed : c.active = some id
  · exact (fedDied s live fed).1
  have its := gearsGeneration found
  have result : onGenerationDied c id = killGeneration c id := by simp [onGenerationDied,fed]
  rw [result]
  by_cases dead : g.status = .dead
  · have same : killGeneration c id = c := by simp only [killGeneration,found,if_pos dead]
    rw [same]
    exact .refl s
  · rw [killGenerationWheels found dead]
    have idle : (c.wheels.kill id).active = c.wheels.active := if_neg fed
    exact .shift (s.kill its started free) rfl rfl rfl (.inl idle) (fun flight => flight.kill its started)

theorem onSpawnFailureWheels (c : Client) : (onSpawnFailure c).wheels = c.wheels.respawn :=
  scheduleRespawnWheels { c with stats.spawnFailures := c.stats.spawnFailures + 1 }

theorem finishFailedWheels (live : c.wheels.live = true) (found : c.generation id = some g) (unfinished : g.finished = false)
    (begun : g.status = .starting) (inactive : c.active ≠ some id) {errorClass}
    (mild : errorClass ≠ some .writerFatal) (detail : String) :
    (finish c id false detail errorClass).wheels = c.wheels.settle id .dead (.spawned g.purpose id false) true := by
  let settled : GenerationState := { g with finished := true,readyTimer := none }
  let done : Client := { c.setGeneration id settled with spawning := false }
  have there : done.generation id = some settled := by simp [done,Client.setGeneration,Client.generation]
  have alive : settled.status ≠ .dead := by
    intro dead
    have both : GenerationStatus.starting = .dead := begun.symm.trans dead
    cases both
  have result : finish c id false detail errorClass =
      (onSpawnFailure (killGeneration done id)).enqueue (.spawned g.purpose id false) := by
    simp only [finish,found,unfinished,if_neg mild]
    rfl
  have doneWheels : done.wheels = { c.wheels with
      gears := Function.update c.wheels.gears id (some (gear settled)),spawning := false } := by
    calc done.wheels = { (c.setGeneration id settled).wheels with spawning := false } := rfl
      _ = _ := by rw [setGenerationWheels]
  have failed : (onSpawnFailure (killGeneration done id)).wheels = (done.wheels.kill id).respawn := by
    rw [onSpawnFailureWheels,killGenerationWheels there alive]
  have still : (done.wheels.kill id).active = c.active := by
    exact if_neg inactive
  rw [result]
  calc ((onSpawnFailure (killGeneration done id)).enqueue (.spawned g.purpose id false)).wheels
      = { (onSpawnFailure (killGeneration done id)).wheels with
          jobs := (onSpawnFailure (killGeneration done id)).wheels.jobs ++ [.spawned g.purpose id false] } := rfl
    _ = { (done.wheels.kill id).respawn with
          active := c.active
          jobs := (done.wheels.kill id).jobs ++ [.spawned g.purpose id false] } := by
        rw [failed]
        simp only [← still]
        rfl
    _ = c.wheels.settle id .dead (.spawned g.purpose id false) true := by
        rw [doneWheels]
        simp [Wheels.kill,Wheels.respawn,Wheels.settle,live]
        rfl

theorem finishFailedFeeds (errorClass : Option ErrorClass) (s : Steady c.wheels) (live : c.wheels.live = true) (found : c.generation id = some g)
    (unfinished : g.finished = false) (begun : g.status = .starting) (one : ∀ other, c.wheels.Starting other → other = id)
    (rotating : ∀ r, c.rotation = some r → g.purpose = .rotate ∧ r.replacement = id ∧ r.spawned = false)
    (mild : errorClass ≠ some .writerFatal) (detail : String) :
    Feeds c.wheels (finish c id false detail errorClass).wheels := by
  have starting : c.wheels.Starting id := ⟨gear g,gearsGeneration found,begun⟩
  have inactive : c.active ≠ some id := by
    intro fed
    cases (s.begun id starting).2.symm.trans fed
  rw [finishFailedWheels live found unfinished begun inactive mild detail]
  have steady : Steady (c.wheels.settle id .dead (.spawned g.purpose id false) !false) :=
    s.settle starting one rotating (by simp)
  exact .shift steady rfl rfl rfl (.inl rfl) (fun _ => .inr (.inr (.inr (by simp [Wheels.settle]))))

theorem spawnGenerationFeeds {active rotation} (purpose : Purpose) (s : Steady x)
    (live : x.live = true) (quiet : ∀ id, ¬ x.Starting id) (from_ : c.wheels = { x with active,rotation })
    (begins : x.Begins active rotation) (idle : active = none) (rotate : rotation.isSome → purpose = .rotate) :
    Feeds x (spawnGeneration c purpose).wheels ∧ (spawnGeneration c purpose).wheels.InFlight := by
  let asked : Client := { c with spawning := true,nextGeneration := c.nextGeneration + 1 }
  have next : c.nextGeneration = x.next := congrArg Wheels.next from_
  have called : asked.call.2.wheels = { x with active,rotation,spawning := true,next := x.next + 1 } := by
    calc asked.call.2.wheels = { c.wheels with spawning := true,next := c.wheels.next + 1 } := callWheels asked
      _ = _ := by rw [from_]
  unfold spawnGeneration
  simp only
  split
  · have failed : ((onSpawnFailure { asked.call.2 with spawning := false }).enqueue
        (.spawned purpose c.nextGeneration false)).wheels =
          x.stillborn active rotation (.spawned purpose x.next false) := by
      calc ((onSpawnFailure { asked.call.2 with spawning := false }).enqueue (.spawned purpose c.nextGeneration false)).wheels
          = { (onSpawnFailure { asked.call.2 with spawning := false }).wheels with
              jobs := (onSpawnFailure { asked.call.2 with spawning := false }).wheels.jobs ++
                [.spawned purpose c.nextGeneration false] } := rfl
        _ = { ({ asked.call.2.wheels with spawning := false } : Wheels).respawn with
              jobs := ({ asked.call.2.wheels with spawning := false } : Wheels).respawn.jobs ++
                [.spawned purpose c.nextGeneration false] } := by
            rw [onSpawnFailureWheels]
            rfl
        _ = x.stillborn active rotation (.spawned purpose x.next false) := by
            rw [called,next]
            rfl
    rw [failed]
    have steady := s.stillborn live quiet begins rotate
    have flight : (x.stillborn active rotation (.spawned purpose x.next false)).InFlight :=
      .inr (.inr (.inr (by simp [Wheels.stillborn,live])))
    exact ⟨.shift steady rfl rfl rfl (.inr ⟨idle,flight⟩) (fun _ => flight),flight⟩
  · let begun := asked.call.2.setGeneration c.nextGeneration (newGeneration purpose)
    have started : begun.wheels = x.start active rotation := by
      rw [setGenerationWheels,called,next]
      rfl
    have posted : (begun.post (.init c.nextGeneration)).2.wheels = x.start active rotation :=
      (callWheels _).trans started
    have steady := s.start begins idle
    have flight : (x.start active rotation).InFlight :=
      .inl ⟨x.next,⟨.starting,true,false⟩,by simp [Wheels.start],rfl⟩
    have first : Feeds x (x.start active rotation) := .shift steady rfl rfl rfl (.inr ⟨idle,flight⟩) (fun _ => flight)
    split
    · have there : (begun.post (.init c.nextGeneration)).2.generation c.nextGeneration = some (newGeneration purpose) := by
        have kept : ∀ d : Client, d.call.2.generation c.nextGeneration = d.generation c.nextGeneration := by
          intro d
          unfold Client.call
          split <;> rfl
        refine (kept _).trans ?_
        simp [begun,Client.setGeneration,Client.generation]
      have one : ∀ other, (begun.post (.init c.nextGeneration)).2.wheels.Starting other → other = c.nextGeneration := by
        rw [posted]
        rintro other ⟨w,its,starting⟩
        by_contra ne
        have ne' : other ≠ x.next := fun same => ne (same.trans next.symm)
        exact quiet other ⟨w,by simpa [Wheels.start,Function.update_of_ne ne'] using its,starting⟩
      have second : Feeds (begun.post (.init c.nextGeneration)).2.wheels _ :=
        finishFailedFeeds none (posted ▸ steady) (posted ▸ live) there rfl rfl one (fun r its => by
          have rotating : rotation = some r := (congrArg Wheels.rotation posted).symm.trans its
          obtain ⟨_,replacement,unspawned,_⟩ := begins.2 r rotating
          exact ⟨rotate (Option.isSome_iff_exists.mpr ⟨r,rotating⟩),replacement.trans next.symm,unspawned⟩)
          (by simp) "init postMessage failed"
      exact ⟨first.trans (posted ▸ second),second.flight (posted ▸ flight)⟩
    · rw [posted]
      exact ⟨first,flight⟩

theorem ensureActiveGenerationFeeds (s : Steady c.wheels) (live : c.wheels.live = true) :
    Feeds c.wheels (ensureActiveGeneration c).wheels ∧
      ((ensureActiveGeneration c).active = none → (ensureActiveGeneration c).wheels.InFlight) := by
  have running := runningLive live
  unfold ensureActiveGeneration
  rw [if_neg (by simp [running.1,running.2])]
  split
  · rename_i busy
    refine ⟨.refl s,fun idle => ?_⟩
    simp only [idle,Option.isSome_none,Bool.false_or,Bool.or_eq_true] at busy
    rcases busy with spawning | rotating
    · exact .inl (s.spawning spawning)
    · exact .inr (.inr (.inl rotating))
  rename_i free
  simp only [Bool.or_eq_true,not_or,Bool.not_eq_true] at free
  split
  · rename_i due
    exact ⟨.refl s,fun _ => .inr (.inr (.inr due))⟩
  · have active : c.active = none := by simpa using free.1.1
    have rotation : c.rotation = none := by simpa [Client.rotating] using free.2
    have quiet : ∀ id, ¬ c.wheels.Starting id := by
      intro id starting
      cases (s.begun id starting).1.symm.trans free.1.2
    have spawned := spawnGenerationFeeds (c := c) .activate s live quiet rfl
      ⟨.inl rfl,fun r its => absurd (rotation.symm.trans its) (by simp)⟩ active
      (fun rotating => absurd (show c.rotation.isSome = true from rotating) (by simp [rotation]))
    exact ⟨spawned.1,fun _ => spawned.2⟩

theorem maybeRotateFeeds (s : Steady c.wheels) (live : c.wheels.live = true) : Feeds c.wheels (maybeRotate c).wheels := by
  unfold maybeRotate
  split
  · exact .refl s
  rename_i open_
  simp only [Bool.or_eq_true,not_or] at open_
  split
  · exact .refl s
  split
  · exact .refl s
  rename_i id fed
  split
  · unfold rotate
    rw [if_neg (by simp [open_.1.2])]
    have quiet : ∀ other, ¬ c.wheels.Starting other := by
      intro other starting
      cases (s.begun other starting).2.symm.trans fed
    obtain ⟨w,its,ready⟩ := s.ready id fed
    let retiring : Client := { c with active := none,rotation := some ⟨id,c.nextGeneration,false⟩ }
    refine (spawnGenerationFeeds (c := retiring) _ s live quiet rfl ⟨.inr rfl,fun r same => ?_⟩ rfl (fun _ => rfl)).1
    cases same
    exact ⟨rfl,rfl,rfl,w,its,.inl ready⟩
  · exact .refl s

theorem present (x : Wheels) {seq other new} (there : (x.stations seq).isSome)
    (its : (Function.update x.stations seq (some new) other).isSome) : (x.stations other).isSome := by
  by_cases same : other = seq
  · exact same ▸ there
  · simpa [Function.update_of_ne same] using its

theorem stationFeeds {old new} (s : Steady x) (there : x.stations seq = some old)
    (timer : new.state = .retryWait → new.retrying = true)
    (placed : ∀ id, x.active = some id → (new.state = .sent ∧ new.generation = some id) ∨ new.state = .retryWait) :
    Feeds x { x with stations := Function.update x.stations seq (some new) } := by
  refine ⟨s.station timer,rfl,rfl,.inl rfl,fun flight => flight,fun other its => present x (by simp [there]) its,?_⟩
  intro id other fed held t its
  by_cases same : other = seq
  · subst same
    simp only [Function.update_self,Option.some.injEq] at its
    exact its ▸ placed id fed
  · exact held t (by simpa [Function.update_of_ne same] using its)

theorem trySendFeeds (s : Steady c.wheels) (live : c.wheels.live = true) (seq : Nat) :
    Feeds c.wheels (trySend c seq).wheels ∧ ∀ id, (trySend c seq).active = some id → (trySend c seq).wheels.Attended id seq := by
  have running := runningLive live
  cases found : c.entry seq with
  | none =>
    have same : trySend c seq = c := by simp only [trySend,found]
    rw [same]
    refine ⟨.refl s,fun id _ t its => ?_⟩
    simp [Client.wheels,found] at its
  | some e =>
  have there := stationsEntry found
  cases fed : c.active with
  | none =>
    have ready : readyActive c = none := (readyActiveOf s).trans fed
    have buffered : trySend c seq = c.setEntry seq { e with state := .buffered } := by
      simp [trySend,found,running.1,running.2,ready]
    rw [buffered,setEntryWheels]
    refine ⟨stationFeeds s there (by simp [station]) (fun id its => ?_),fun id its => ?_⟩
    · cases fed.symm.trans its
    · cases fed.symm.trans its
  | some id =>
    have ready : readyActive c = some id := (readyActiveOf s).trans fed
    let sent : RegistryEntry := { handed e id c.now with everSent := true }
    let posted : Client := ((c.setEntry seq sent).post (.write id seq e.timestamp c.now c.retentionMs)).2
    have wheels : posted.wheels = { c.wheels with stations := Function.update c.wheels.stations seq (some (station sent)) } :=
      (callWheels _).trans (setEntryWheels c seq sent)
    have first : Feeds c.wheels posted.wheels := by
      rw [wheels]
      refine stationFeeds s there (by simp [station,sent,handed]) (fun other its => .inl ⟨rfl,?_⟩)
      exact fed.symm.trans its
    have held : posted.wheels.Attended id seq := by
      intro t its
      rw [wheels] at its
      simp only [Function.update_self,Option.some.injEq] at its
      subst its
      exact .inl ⟨rfl,rfl⟩
    have alive : posted.wheels.live = true := first.live.trans live
    by_cases threw : ((c.setEntry seq sent).post (.write id seq e.timestamp c.now c.retentionMs)).1 = true
    · -- The generation is torn down, so that the entry has nobody to be held by.
      let back : Client := posted.setEntry seq { sent with state := .buffered,generation := none }
      have result : trySend c seq = onGenerationDied back id := by
        simp only [trySend,found,running.1,running.2,ready]
        exact if_pos threw
      have there' : posted.wheels.stations seq = some (station sent) := by rw [wheels]; simp
      have backWheels : back.wheels = { posted.wheels with
          stations := Function.update posted.wheels.stations seq (some ⟨.buffered,none,(station sent).retrying⟩) } :=
        setEntryWheels _ _ _
      have steady : Steady back.wheels := backWheels ▸ first.steady.station (by simp)
      obtain ⟨died,idle,flight⟩ := fedDied (c := back) steady alive ((congrArg Wheels.active wheels).trans fed)
      rw [result]
      refine ⟨⟨died.steady,died.live.trans first.live,died.suspended.trans first.suspended,.inr ⟨idle,flight⟩,
        fun _ => flight,fun other its => ?_,fun other _ its => absurd (idle.symm.trans its) (by simp)⟩,
        fun other its => absurd (idle.symm.trans its) (by simp)⟩
      have before := died.present other its
      rw [backWheels] at before
      exact first.present other (present posted.wheels (by simp [there']) before)
    · let charged : Client := posted.modifyGeneration id (fun g => { g with publishedBytes := g.publishedBytes + e.transportBytes })
      have result : trySend c seq = maybeRotate charged := by
        simp only [trySend,found,running.1,running.2,ready]
        exact if_neg threw
      have same : charged.wheels = posted.wheels := modifyGenerationWheels (fun _ => rfl)
      have rotated : Feeds posted.wheels (maybeRotate charged).wheels :=
        same ▸ maybeRotateFeeds (same ▸ first.steady) (same ▸ alive)
      rw [result]
      refine ⟨first.trans rotated,fun other its => ?_⟩
      have was : posted.wheels.active = some other := by
        rcases rotated.active with kept | idle
        · exact kept ▸ its
        · cases idle.1.symm.trans its
      have mine : other = id := by
        have kept := congrArg Wheels.active wheels
        exact Option.some.inj (was.symm.trans (kept.trans fed))
      subst mine
      exact rotated.held other seq its held

theorem sendOrReplayFeeds (s : Steady c.wheels) (live : c.wheels.live = true) (seq : Nat) (e : RegistryEntry) :
    Feeds c.wheels (sendOrReplay c seq e).wheels ∧
      ∀ id, (sendOrReplay c seq e).active = some id → (sendOrReplay c seq e).wheels.Attended id seq := by
  unfold sendOrReplay
  split
  · exact trySendFeeds (c := { c with stats.replays := c.stats.replays + 1 }) s live seq
  · exact trySendFeeds s live seq

theorem settleWheels {e} (found : c.entry seq = some e) (outcome : SettlementOutcome)
    (errorClass : Option ErrorClass) (detail : Option String) :
    (settle c seq outcome errorClass detail).wheels =
      { c.wheels with stations := Function.update c.wheels.stations seq none } := by
  have stations : (settle c seq outcome errorClass detail).wheels.stations =
      Function.update c.wheels.stations seq none := by
    have unacked : (settle c seq outcome errorClass detail).unacked = delete c.unacked seq := by
      simp only [settle,found]
    funext other
    by_cases same : other = seq
    · subst same
      simp [Client.wheels,Client.entry,unacked]
    · simp [Client.wheels,Client.entry,unacked,getDeleteOther same,Function.update_of_ne same]
  rw [← stations]
  simp only [settle,found]
  rfl

theorem removedFeeds (s : Steady x) (seq : Nat) :
    Feeds x { x with stations := Function.update x.stations seq none } ∧
      ∀ id, Attended { x with stations := Function.update x.stations seq none } id seq := by
  have kept : ∀ {other t}, Function.update x.stations seq none other = some t → x.stations other = some t := by
    intro other t its
    by_cases same : other = seq
    · rw [same,Function.update_self] at its
      cases its
    · rwa [Function.update_of_ne same] at its
  refine ⟨⟨?_,rfl,rfl,.inl rfl,fun flight => flight,fun other present => ?_,?_⟩,?_⟩
  · exact { s with
      retrying := fun other t its => s.retrying other t (kept its)
      begun := s.begun,spawning := s.spawning,spawned := s.spawned }
  · obtain ⟨t,its⟩ := Option.isSome_iff_exists.mp present
    simp [kept its]
  · intro id other _ held t its
    exact held t (kept its)
  · intro id t its
    simp at its

theorem settleFeeds (s : Steady c.wheels) (seq : Nat) (outcome : SettlementOutcome) (errorClass : Option ErrorClass)
    (detail : Option String) : Feeds c.wheels (settle c seq outcome errorClass detail).wheels ∧
      ∀ id, (settle c seq outcome errorClass detail).wheels.Attended id seq := by
  cases found : c.entry seq with
  | none =>
    have same : settle c seq outcome errorClass detail = c := by simp only [settle,found]
    rw [same]
    refine ⟨.refl s,fun id t its => ?_⟩
    simp [Client.wheels,found] at its
  | some e =>
    rw [settleWheels found]
    exact removedFeeds s seq

theorem expireFeeds (s : Steady c.wheels) (seq : Nat) : Feeds c.wheels (expire c seq).wheels ∧
    ∀ id, (expire c seq).wheels.Attended id seq :=
  settleFeeds (c := { c with stats.expired := c.stats.expired + 1 }) s seq .expired none none

theorem feedsPlaced {y new} (there : (x.stations seq).isSome)
    (rest : Feeds { x with stations := Function.update x.stations seq new } y)
    (held : ∀ id, y.active = some id → y.Attended id seq) : Feeds x y := by
  refine { rest with present := fun other its => ?_, held := fun id other fed before => ?_ }
  · by_cases same : other = seq
    · exact same ▸ there
    · simpa [Function.update_of_ne same] using rest.present other its
  · by_cases same : other = seq
    · exact same ▸ held id fed
    · refine rest.held id other fed (fun t its => before t ?_)
      simpa [Function.update_of_ne same] using its

theorem feedEach {f id}
    (each : ∀ c seq, Steady c.wheels → c.wheels.live = true → (∀ other, c.active = some other → other = id) →
      Feeds c.wheels (f c seq).wheels ∧ ∀ other, (f c seq).active = some other → (f c seq).wheels.Attended other seq)
    (seqs : List Nat) (s : Steady c.wheels) (live : c.wheels.live = true)
    (mine : ∀ other, c.active = some other → other = id) :
    Feeds c.wheels (seqs.foldl f c).wheels ∧ ∀ seq ∈ seqs, ∀ other, (seqs.foldl f c).active = some other →
      (seqs.foldl f c).wheels.Attended other seq := by
  induction seqs generalizing c with
  | nil => exact ⟨.refl s,fun seq member => by cases member⟩
  | cons seq rest ih =>
    obtain ⟨first,held⟩ := each c seq s live mine
    have fed : ∀ {d : Client} {other}, Feeds (f c seq).wheels d.wheels → d.active = some other → (f c seq).active = some other := by
      intro d other feeds its
      rcases feeds.active with same | idle
      · exact same.symm.trans its
      · cases idle.1.symm.trans its
    have still : ∀ other, (f c seq).active = some other → other = id := by
      intro other its
      rcases first.active with same | idle
      · exact mine other (same.symm.trans its)
      · cases idle.1.symm.trans its
    obtain ⟨second,all⟩ := ih first.steady (first.live.trans live) still
    refine ⟨first.trans second,fun other member a its => ?_⟩
    rcases List.mem_cons.mp member with rfl | inside
    · exact second.held a other its (held a (fed second its))
    · exact all other inside a its

theorem heldAll {y id} (feeds : Feeds c.wheels y)
    (held : ∀ seq ∈ keys c.unacked, y.Attended id seq) : ∀ seq, y.Attended id seq := by
  intro seq t its
  have before := feeds.present seq (by simp [its])
  cases found : c.entry seq with
  | none => simp [Client.wheels,found] at before
  | some e => exact held seq (memKeysOfGet found) t its

theorem flushBufferedFeeds (s : Steady c.wheels) (live : c.wheels.live = true) :
    Feeds c.wheels (flushBuffered c).wheels ∧
      ∀ id, (flushBuffered c).active = some id → ∀ seq, (flushBuffered c).wheels.Attended id seq := by
  have running := runningLive live
  cases fed : c.active with
  | none =>
    have same : flushBuffered c = c := by simp [flushBuffered,(readyActiveOf s).trans fed]
    rw [same]
    exact ⟨.refl s,fun id its => absurd (fed.symm.trans its) (by simp)⟩
  | some id =>
    have result : flushBuffered c = (keys c.unacked).foldl (flushEntry id) c := by
      simp [flushBuffered,running.1,running.2,(readyActiveOf s).trans fed]
    rw [result]
    have each : ∀ c seq, Steady c.wheels → c.wheels.live = true → (∀ other, c.active = some other → other = id) →
        Feeds c.wheels (flushEntry id c seq).wheels ∧
          ∀ other, (flushEntry id c seq).active = some other → (flushEntry id c seq).wheels.Attended other seq := by
      intro c seq s live mine
      unfold flushEntry
      split
      · rename_i absent
        refine ⟨.refl s,fun other _ t its => ?_⟩
        simp [Client.wheels,absent] at its
      rename_i e found
      have its := stationsEntry found
      split
      · rename_i sent
        refine ⟨.refl s,fun other fed t its' => ?_⟩
        cases its.symm.trans its'
        exact .inl ⟨sent.1,mine other fed ▸ sent.2⟩
      split
      · rename_i waiting
        refine ⟨.refl s,fun other fed t its' => ?_⟩
        cases its.symm.trans its'
        exact .inr waiting
      split
      · exact ⟨(expireFeeds s seq).1,fun other _ => (expireFeeds s seq).2 other⟩
      · exact sendOrReplayFeeds s live seq e
    obtain ⟨feeds,held⟩ := feedEach each (keys c.unacked) s live (fun other its => (Option.some.inj (fed.symm.trans its)).symm)
    exact ⟨feeds,fun other its => heldAll feeds (fun seq member => held seq member other its)⟩

theorem replayToActiveFeeds (s : Steady c.wheels) (live : c.wheels.live = true) :
    Feeds c.wheels (replayToActive c).wheels ∧
      ∀ id, (replayToActive c).active = some id → ∀ seq, (replayToActive c).wheels.Attended id seq := by
  have each : ∀ id (c : Client) seq, Steady c.wheels → c.wheels.live = true →
      (∀ other, c.active = some other → other = id) → Feeds c.wheels (replayEntry c seq).wheels ∧
        ∀ other, (replayEntry c seq).active = some other → (replayEntry c seq).wheels.Attended other seq := by
    intro id c seq s live _
    unfold replayEntry
    split
    · rename_i absent
      refine ⟨.refl s,fun other _ t its => ?_⟩
      simp [Client.wheels,absent] at its
    rename_i e found
    have its := stationsEntry found
    split
    · rename_i sent
      refine ⟨.refl s,fun other fed t its' => ?_⟩
      cases its.symm.trans its'
      exact .inl ⟨sent.1,sent.2.2.trans fed⟩
    split
    · exact ⟨(expireFeeds s seq).1,fun other _ => (expireFeeds s seq).2 other⟩
    · let back : RegistryEntry := { e with state := .buffered,generation := none,retryTimer := none }
      have wheels := setEntryWheels c seq back
      have steady : Steady (c.setEntry seq back).wheels := wheels ▸ s.station (by simp [station])
      have sent := sendOrReplayFeeds steady (show (c.setEntry seq back).wheels.live = true from live) seq e
      refine ⟨?_,sent.2⟩
      rw [wheels] at sent
      exact feedsPlaced (by simp [its]) sent.1 sent.2
  obtain ⟨feeds,held⟩ := feedEach (each (c.active.getD 0)) (keys c.unacked) s live (fun other its => by simp [its])
  exact ⟨feeds,fun other its => heldAll feeds (fun seq member => held seq member other its)⟩

end Clankermux.PayloadWriteClient
