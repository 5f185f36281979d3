import Clankermux.PayloadKept

/-! The client cannot wedge: while it is live every entry is held by the generation that
is fed or waits for something that is armed, as long as no generation whose close
acknowledgement a rotation awaits reports an error of its transport. -/
namespace Clankermux.PayloadWriteClient
open InsertionMap Wheels

variable {c d : Client} {id seq : Nat} {g : GenerationState} {x y : Wheels}

theorem mannedStarted (held : ∀ id, x.active = some id → ∀ seq, x.Attended id seq ∨ x.suspended = true)
    (feeds : Feeds x y) (flight : y.active = none → y.InFlight) : Manned y := by
  refine ⟨fun id fed seq => ?_,fun idle => .inl (flight idle)⟩
  have was : x.active = some id := by
    rcases feeds.active with kept | idle
    · exact kept.symm.trans fed
    · exact absurd (idle.1.symm.trans fed) (by simp)
  exact (held id was seq).imp (feeds.held id seq fed) (fun suspended => feeds.suspended.trans suspended)

theorem onRetryTimerKept {e} (k : Kept c) (found : c.entry seq = some e) : Kept (onRetryTimer c seq e) := by
  let fired := c.setEntry seq { e with retryTimer := none }
  have there : fired.entry seq = some { e with retryTimer := none } := setEntryEntry
  intro live
  have alive : c.live = true := (onRetryTimerMoves found).settles.latched live
  unfold onRetryTimer at live ⊢
  simp only at live ⊢
  split
  · have wheels : (expire fired seq).wheels = { c.wheels with stations := Function.update c.wheels.stations seq none } := by
      unfold expire
      rw [settleWheels (c := { fired with stats.expired := fired.stats.expired + 1 }) there]
      show { fired.wheels with stations := Function.update fired.wheels.stations seq none } = _
      rw [setEntryWheels]
      simp only [Function.update_idem]
    obtain ⟨s,m⟩ := k alive
    have gone := (removedFeeds s seq).1
    rw [wheels]
    exact ⟨gone.steady,gone.manned m⟩
  · have put : (fired.setEntry seq { e with state := .buffered,retryTimer := none }).wheels =
        { c.wheels with stations := Function.update c.wheels.stations seq (some ⟨.buffered,e.generation,false⟩) } := by
      rw [setEntryWheels,setEntryWheels]
      simp only [Function.update_idem]
      rfl
    rename_i kept
    rw [if_neg kept] at live
    exact sentKept k alive (by simp) put live

theorem onRespawnTimerKept (k : Kept c) (free : c.jobs = []) : Kept (onRespawnTimer c) := by
  let fired : Client := { c with respawnTimer := none }
  intro live
  have alive : c.live = true := (congrArg Books.live (booksOutside (onRespawnTimerOutside c))).symm.trans live
  obtain ⟨s,m⟩ := k alive
  have steady : Steady fired.wheels :=
    { s with
      failed := fun purpose id member => by
        have member : Job.spawned purpose id false ∈ c.jobs := member
        rw [free] at member
        cases member
      begun := s.begun,spawning := s.spawning,spawned := s.spawned }
  have held : ∀ id, fired.wheels.active = some id → ∀ seq, fired.wheels.Attended id seq ∨ fired.wheels.suspended = true :=
    m.held
  unfold onRespawnTimer at live ⊢
  simp only at live ⊢
  split
  · rename_i past
    have feeds := maybeRotateFeeds steady alive
    refine ⟨feeds.steady,mannedStarted held feeds (fun idle => ?_)⟩
    rcases feeds.active with same | idle'
    · have none : c.active = none := same.symm.trans idle
      simp [none] at past
    · exact idle'.2
  · obtain ⟨feeds,flight⟩ := ensureActiveGenerationFeeds steady alive
    exact ⟨feeds.steady,mannedStarted held feeds flight⟩

theorem unsendEntry (c : Client) (seq : Nat) :
    InsertionMap.get (c.unacked.map (fun seqEntry => (seqEntry.1,unsend seqEntry.2))) seq = (c.entry seq).map unsend := by
  have mapped : c.unacked.map (fun seqEntry => (seqEntry.1,unsend seqEntry.2)) = c.unacked.map (Prod.map id unsend) := rfl
  rw [mapped,getMap]
  rfl

theorem fenceKept (k : Kept c) : Kept (fence c) := by
  intro live
  have alive : c.live = true := (fenceMoves c).settles.latched live
  obtain ⟨s,m⟩ := k alive
  cases fed : c.active with
  | none =>
    have same : fence c = c := by simp only [fence,fed]
    rw [same]
    exact ⟨s,m⟩
  | some id =>
    obtain ⟨w,its,ready⟩ := s.ready id fed
    obtain ⟨g,found,rfl⟩ := generationGears its
    have status : g.status = .ready := ready
    let killed := killGeneration { c with stats.fences := c.stats.fences + 1 } id
    let fenced : Client := { killed with
      unacked := killed.unacked.map (fun seqEntry => (seqEntry.1,unsend seqEntry.2))
      lastAckAt := c.now
      watchdogUnhealthy := true
      admissionSuspended := true }
    have result : fence c = scheduleRespawn fenced := by
      unfold fence
      split
      · rename_i none
        cases none.symm.trans fed
      · rename_i id' its'
        cases Option.some.inj (its'.symm.trans fed)
        rfl
    have gone : killed.wheels = c.wheels.kill id :=
      killGenerationWheels (c := { c with stats.fences := c.stats.fences + 1 }) found (by simp [status])
    have entries : ∀ seq, killed.entry seq = c.entry seq := by
      intro seq
      simp only [killed,killGeneration]
      split
      · rfl
      · split <;> rfl
    have wheels : fenced.wheels = { c.wheels.kill id with
        suspended := true
        unhealthy := true
        stations := fun seq => ((c.entry seq).map unsend).map station } := by
      have stations : fenced.wheels.stations = fun seq => ((c.entry seq).map unsend).map station := by
        funext seq
        rw [← entries]
        exact congrArg (Option.map station) (unsendEntry killed seq)
      calc fenced.wheels = { killed.wheels with
            suspended := true
            unhealthy := true
            stations := fenced.wheels.stations } := rfl
        _ = _ := by rw [gone,stations]
    have steady : Steady fenced.wheels := by
      have dead := s.kill its (by simp [ready]) (fun _ _ _ _ => .inl (by simp [gear,status]))
      rw [wheels]
      refine { dead with
        suspended := rfl
        retrying := fun seq t there waiting => ?_
        begun := dead.begun,spawning := dead.spawning,spawned := dead.spawned }
      obtain ⟨e',unsent,rfl⟩ := Option.map_eq_some_iff.mp there
      obtain ⟨e,known,rfl⟩ := Option.map_eq_some_iff.mp unsent
      have kept : unsend e = e := by
        unfold unsend
        split
        · rename_i sent
          have waiting : (unsend e).state = .retryWait := waiting
          simp [unsend,sent] at waiting
        · rfl
      rw [kept] at waiting ⊢
      exact s.retrying seq (station e) (stationsEntry known) waiting
    have idle : fenced.wheels.respawn.active = none := by
      rw [wheels]
      exact if_pos fed
    have flight : fenced.wheels.respawn.InFlight := respawnInFlight (by rw [wheels]; exact alive)
    rw [result,scheduleRespawnWheels]
    exact ⟨steady.respawn,fun other its => absurd (idle.symm.trans its) (by simp),fun _ => .inl flight⟩

theorem oldestSome {oldest} (its : oldestSentAt c = some oldest) : ∃ seq e, c.entry seq = some e := by
  cases entries : c.unacked with
  | nil => simp [oldestSentAt,entries] at its
  | cons first rest => exact ⟨first.1,first.2,by simp [Client.entry,entries,InsertionMap.get]⟩

theorem runWatchdogKept (k : Kept c) : Kept (runWatchdog c) := by
  unfold runWatchdog
  split
  · exact k
  split
  · let idle : Client := { c with lastAckAt := c.now }
    split
    · rename_i unhealthy
      let open_ : Client := { idle with watchdogUnhealthy := false,admissionSuspended := false }
      intro live
      have alive : open_.live = true := (flushBufferedMoves open_).settles.latched live
      obtain ⟨s,m⟩ := k alive
      have steady : Steady open_.wheels :=
        { s with suspended := rfl,begun := s.begun,spawning := s.spawning,spawned := s.spawned }
      obtain ⟨flushed,attended⟩ := flushBufferedFeeds steady alive
      refine ⟨flushed.steady,mannedFlushed flushed attended (fun none => ?_)⟩
      rcases m.idle none with flight | ⟨free,_⟩
      · exact flight
      · cases (s.suspended.symm.trans free).symm.trans unhealthy
    · exact k
  rename_i oldest sent
  simp only
  split
  · exact fenceKept k
  split
  · intro live
    obtain ⟨s,m⟩ := k live
    refine ⟨{ s with suspended := rfl,begun := s.begun,spawning := s.spawning,spawned := s.spawned },
      fun _ _ _ => .inr rfl,fun none => ?_⟩
    rcases m.idle none with flight | ⟨_,empty⟩
    · exact .inl flight
    · obtain ⟨seq,e,found⟩ := oldestSome sent
      exact absurd ((stationsEntry found).symm.trans (empty seq)) (by simp)
  · exact k

theorem onWatchdogTimerKept (k : Kept c) : Kept (onWatchdogTimer c) := by
  have ran : Kept (runWatchdog { c with watchdogTimer := none }) := runWatchdogKept (k.same rfl rfl)
  unfold onWatchdogTimer
  simp only
  split
  · exact ran
  · exact ran.same rfl rfl

theorem racedByLive (live : c.live = true) (race : Race) : racedBy c race = c := by
  have running : c.disposal = none := by simpa [Client.disposed] using (runningLive (c := c) live).1
  simp [racedBy,Client.phase,running]

theorem quietWheels (none : ∀ id w, c.control.workers id = some w → w.status ≠ .starting) (id : Nat) :
    ¬ c.wheels.Starting id := by
  rintro ⟨w,its,begun⟩
  obtain ⟨g,found,rfl⟩ := generationGears its
  exact none id _ (workersGeneration found) begun
variable {rest : List Job}

theorem poppedKept {job} (k : Kept c) (queued : c.jobs = job::rest)
    (activation : ∀ id, job ≠ .spawned .activate id true)
    (spawned : ∀ r, c.rotation = some r → r.spawned = false → ∀ ok, job ≠ .spawned .rotate r.replacement ok)
    (closed : ∀ r, c.rotation = some r → r.spawned = true → job ≠ .closed .rotate r.outgoing) :
    Kept { c with jobs := rest } := by
  intro live
  obtain ⟨s,m⟩ := k live
  refine ⟨s.pop queued spawned closed,m.held,fun none => ?_⟩
  rcases m.idle none with (starting | ⟨id,member⟩ | rotating | due) | empty
  · exact .inl (.inl starting)
  · have member : Job.spawned .activate id true ∈ c.jobs := member
    rw [queued] at member
    exact .inl (.inr (.inl ⟨id,(List.mem_cons.mp member).resolve_left (fun same => activation id same.symm)⟩))
  · exact .inl (.inr (.inr (.inl rotating)))
  · exact .inl (.inr (.inr (.inr due)))
  · exact .inr empty

theorem resumeActivationFailed (k : Kept c) (queued : c.jobs = .spawned .activate id false::rest) :
    Kept (resumeActivation { c with jobs := rest } id false) := by
  intro live
  let waiting : Client := ({ c with jobs := rest } : Client).enqueue (.clearSpawnInFlight id)
  have alive : waiting.live = true := (congrArg Books.live (booksOutside (racedByOutside waiting (.spawn id)))).symm.trans live
  have result : resumeActivation { c with jobs := rest } id false = waiting := racedByLive alive (.spawn id)
  have popped := poppedKept k queued (by simp) (by simp) (by simp)
  obtain ⟨s,m⟩ := popped alive
  have feeds : Feeds ({ c with jobs := rest } : Client).wheels waiting.wheels :=
    .shift (s.push (by simp)) rfl rfl rfl (.inl rfl) (fun flight => flight.push)
  rw [result]
  exact ⟨feeds.steady,feeds.manned m⟩

theorem resumeActivationReady (activating : Activating c id) (k : Kept c) :
    Kept (resumeActivation { c with jobs := [] } id true) := by
  let fed : Client := { c with jobs := [],active := some id }
  let waiting : Client := (flushBuffered fed).enqueue (.clearSpawnInFlight id)
  intro live
  have alive : waiting.live = true := (congrArg Books.live (booksOutside (racedByOutside waiting (.spawn id)))).symm.trans live
  have running : fed.live = true := (flushBufferedMoves fed).settles.latched alive
  have result : resumeActivation { c with jobs := [] } id true = waiting := racedByLive alive (.spawn id)
  obtain ⟨s,_⟩ := k running
  have quiet := quietWheels activating.quiet
  have steady : Steady fed.wheels :=
    { s with
      ready := fun other its => by
        cases Option.some.inj its
        have ready := activating.ready
        cases found : c.generation id with
        | none => simp [Client.hasStatus,found] at ready
        | some g =>
          have status : g.status = .ready := by simpa [Client.hasStatus,found] using ready
          exact ⟨gear g,gearsGeneration found,status⟩
      alone := fun rotating => by
        have rotating : c.rotation.isSome = true := rotating
        simp [activating.still] at rotating
      begun := fun other starting => absurd starting (quiet other)
      spawning := fun spawning => absurd (s.spawning spawning) (fun ⟨other,starting⟩ => quiet other starting)
      failed := fun _ _ member => by cases member
      spawned := fun r its => absurd (activating.still.symm.trans its) (by simp)
      closed := fun r its => absurd (activating.still.symm.trans its) (by simp) }
  obtain ⟨flushed,attended⟩ := flushBufferedFeeds steady running
  have manned := mannedFlushed flushed attended (fun none => by cases none)
  have feeds : Feeds (flushBuffered fed).wheels waiting.wheels :=
    .shift (flushed.steady.push (by simp)) rfl rfl rfl (.inl rfl) (fun flight => flight.push)
  rw [result]
  exact ⟨feeds.steady,feeds.manned manned⟩

theorem endRotationKept {r} (live : d.live = true) (steady : Steady ({ d with rotation := none } : Client).wheels)
    (flight : d.active = none → ({ d with rotation := none } : Client).wheels.InFlight) :
    Steady (endRotation d r).wheels ∧ Manned (endRotation d r).wheels := by
  let ended : Client := { d with rotation := none }
  have split : endRotation d r =
      racedBy (if ended.active.isSome then replayToActive ended else ended) (.rotation r.replacement) := rfl
  by_cases fed : ended.active.isSome = true
  · obtain ⟨feeds,attended⟩ := replayToActiveFeeds (c := ended) steady live
    rw [split,if_pos fed,racedByLive (c := replayToActive ended) (feeds.live.trans live)]
    refine ⟨feeds.steady,mannedFlushed feeds attended (fun idle => ?_)⟩
    have none : ended.active = .none := idle
    simp [none] at fed
  · have none : d.active = none := by simpa using fed
    rw [split,if_neg fed,racedByLive (c := ended) live]
    exact ⟨steady,fun id its => absurd (none.symm.trans its) (by simp),fun idle => .inl (flight idle)⟩

theorem closeForRotation {r jobs} (s : Steady x) (rotating : x.rotation = some r)
    (quiet : ∀ id, ¬ x.Starting id) (found : d.generation r.outgoing = some g) (started : g.status ≠ .starting)
    (failed : ∀ purpose id, .spawned purpose id false ∈ jobs → x.respawning = true)
    (from_ : d.wheels = { x with rotation := some { r with spawned := true },jobs }) :
    Steady (closeGeneration d r.outgoing PAYLOAD_ROTATION_DEADLINE_MS .rotate).wheels ∧
      (closeGeneration d r.outgoing PAYLOAD_ROTATION_DEADLINE_MS .rotate).active = none ∧
      (closeGeneration d r.outgoing PAYLOAD_ROTATION_DEADLINE_MS .rotate).wheels.InFlight := by
  have idle : x.active = none := s.alone (by simp [rotating])
  have gears : x.gears r.outgoing = some (gear g) := (congrArg (fun y => y.gears r.outgoing) from_).symm.trans (gearsGeneration found)
  unfold closeGeneration
  split
  · -- It died while the replacement was spawned.
    have wheels : (d.enqueue (.closed .rotate r.outgoing)).wheels = { x with
        rotation := some { r with spawned := true }
        gears := Function.update x.gears r.outgoing (some (gear g))
        jobs := jobs ++ [.closed .rotate r.outgoing] } := by
      calc _ = { d.wheels with jobs := d.wheels.jobs ++ [Job.closed .rotate r.outgoing] } := rfl
        _ = _ := by
          rw [from_]
          simp only [← gears,Function.update_eq_self]
    have steady := s.retire (gear g) (jobs ++ [.closed .rotate r.outgoing]) rotating gears quiet started
      (.inr (by simp)) (fun purpose id member => failed purpose id (by simpa using member))
    rw [← wheels] at steady
    exact ⟨steady,(congrArg Wheels.active wheels).trans idle,.inr (.inr (.inl (by rw [wheels]; rfl)))⟩
  split
  · rename_i past
    cases past
  let retired : GenerationState :=
    { g with onClosed := some .rotate,closeSettled := false,status := .closing,closeTimer := some PAYLOAD_ROTATION_DEADLINE_MS }
  let closing := d.setGeneration r.outgoing retired
  have modified : d.modifyGeneration r.outgoing (fun g =>
      { g with onClosed := some .rotate,closeSettled := false,status := .closing
               closeTimer := some PAYLOAD_ROTATION_DEADLINE_MS }) = closing := by
    simp only [Client.modifyGeneration,found]
    rfl
  let posted := (closing.post (.close r.outgoing)).2
  have wheels : posted.wheels = { x with
      rotation := some { r with spawned := true }
      gears := Function.update x.gears r.outgoing (some (gear retired))
      jobs } := by
    calc posted.wheels = closing.wheels := callWheels _
      _ = _ := by rw [setGenerationWheels,from_]
  have steady : Steady posted.wheels := by
    rw [wheels]
    exact s.retire _ _ rotating gears quiet (by simp [gear]) (.inl (by simp [gear,retired])) failed
  have none : posted.active = none := (congrArg Wheels.active wheels).trans idle
  have flight : posted.wheels.InFlight := .inr (.inr (.inl (by rw [wheels]; rfl)))
  simp only [modified]
  split
  · have there : posted.generation r.outgoing = some retired := by
      have kept : ∀ d : Client, d.call.2.generation r.outgoing = d.generation r.outgoing := by
        intro d
        unfold Client.call
        split <;> rfl
      refine (kept _).trans ?_
      simp [closing,Client.setGeneration,Client.generation]
    have self : Function.update posted.wheels.gears r.outgoing (some (gear retired)) = posted.wheels.gears := by
      rw [← gearsGeneration there,Function.update_eq_self]
    have done : Feeds posted.wheels (closeDone posted r.outgoing).wheels :=
      closeDoneFeeds steady there (fun _ => .inl rfl) (gearsGeneration there) rfl (by rw [self])
    refine ⟨done.steady,?_,done.flight flight⟩
    rcases done.active with same | idle'
    · exact same.trans none
    · exact idle'.1
  · exact ⟨steady,none,flight⟩

theorem resumeRotationSpawnedKept {ok} (h : c.control.Sound) (k : Kept c)
    (queued : c.jobs = .spawned .rotate id ok::rest) : Kept (resumeRotationSpawned { c with jobs := rest } id ok) := by
  have head : Job.spawned .rotate id ok ∈ c.jobs := by simp [queued]
  have inside : ∀ {job}, job ∈ rest → job ∈ c.jobs := fun member => by simp [queued,member]
  intro live
  have alive : c.live = true := (resumeRotationSpawnedMoves { c with jobs := rest } id ok).settles.latched live
  obtain ⟨s,m⟩ := k alive
  revert live
  unfold resumeRotationSpawned
  split
  · rename_i none
    have still : c.rotation = .none := none
    exact poppedKept k queued (by simp) (fun r its => by simp [still] at its) (by simp)
  rename_i r its
  have rotating : c.rotation = some r := its
  split
  · rename_i other
    refine poppedKept k queued (by simp) (fun r' its unspawned ok' same => ?_) (by simp)
    cases rotating.symm.trans its
    rcases other with apart | spawned
    · cases same
      exact apart rfl
    · cases unspawned.symm.trans spawned
  rename_i mine
  simp only [not_or,Decidable.not_not,Bool.not_eq_true] at mine
  obtain ⟨rfl,unspawned⟩ := mine
  have quiet := quietWheels (h.quietRotating rotating (.inr (h.spawned _ _ _ head).2))
  obtain ⟨w,there,status⟩ := s.outgoing r rotating unspawned
  obtain ⟨g,found,rfl⟩ := generationGears there
  have status : g.status = .ready ∨ g.status = .dead := status
  have failed : ∀ purpose id, .spawned purpose id false ∈ rest → c.wheels.respawning = true :=
    fun purpose id member => s.failed purpose id (inside member)
  split
  · intro _
    have started : g.status ≠ .starting := by rcases status with its | its <;> simp [its]
    obtain ⟨steady,none,flight⟩ := closeForRotation (d := { c with jobs := rest,rotation := some { r with spawned := true } })
      s rotating quiet found started failed rfl
    exact ⟨steady,fun other its => absurd (none.symm.trans its) (by simp),fun _ => .inl flight⟩
  · rename_i no
    intro _
    have due : c.wheels.respawning = true := s.failed .rotate r.replacement (by
      have answer : ok = false := eq_false_of_ne_true no
      exact answer ▸ head)
    split
    · refine endRotationKept alive ?_ (fun _ => .inr (.inr (.inr due)))
      exact s.rotated quiet (fun id its => s.ready id its) failed
    · rename_i living
      refine endRotationKept alive ?_ (fun none => by cases none)
      refine s.rotated quiet (fun id its => ?_) failed
      cases Option.some.inj its
      refine ⟨gear g,there,status.resolve_right (fun dead => living ?_)⟩
      show (c.generation r.outgoing).any (fun g => decide (g.status = .dead)) = true
      simp [found,dead]

theorem resumeRotationClosedKept (h : c.control.Sound) (k : Kept c)
    (queued : c.jobs = .closed .rotate id::rest) : Kept (resumeRotationClosed { c with jobs := rest } id) := by
  have inside : ∀ {job}, job ∈ rest → job ∈ c.jobs := fun member => by simp [queued,member]
  intro live
  have alive : c.live = true := (resumeRotationClosedMoves { c with jobs := rest } id).settles.latched live
  obtain ⟨s,m⟩ := k alive
  revert live
  unfold resumeRotationClosed
  split
  · rename_i none
    have still : c.rotation = .none := none
    exact poppedKept k queued (by simp) (by simp) (fun r its => by simp [still] at its)
  rename_i r its
  have rotating : c.rotation = some r := its
  split
  · rename_i other
    refine poppedKept k queued (by simp) (by simp) (fun r' its spawned same => ?_)
    cases rotating.symm.trans its
    rcases other with apart | unspawned
    · cases same
      exact apart rfl
    · simp [spawned] at unspawned
  rename_i mine
  simp only [not_or,Decidable.not_not,Bool.not_eq_true',Bool.not_eq_false] at mine
  obtain ⟨rfl,spawned⟩ := mine
  have quiet := quietWheels (h.quietRotating rotating (.inl spawned))
  have failed : ∀ purpose id, .spawned purpose id false ∈ rest → c.wheels.respawning = true :=
    fun purpose id member => s.failed purpose id (inside member)
  split
  · intro _
    let abandoned : Client := { c with jobs := rest,active := none }
    have due : (scheduleRespawn abandoned).wheels = abandoned.wheels.respawn := scheduleRespawnWheels abandoned
    have live : (scheduleRespawn abandoned).live = true :=
      (congrArg Books.live (scheduleRespawnBooks abandoned)).trans alive
    have wheels : ({ scheduleRespawn abandoned with rotation := none } : Client).wheels =
        { c.wheels.respawn with active := none,rotation := none,jobs := rest } := by
      calc _ = { (scheduleRespawn abandoned).wheels with rotation := none } := rfl
        _ = _ := by rw [due]; rfl
    refine endRotationKept live ?_ (fun _ => ?_)
    · rw [wheels]
      exact s.respawn.rotated quiet (fun id its => by cases its) (fun purpose id member => by
        simp [Wheels.respawn,failed purpose id member])
    · rw [wheels]
      exact .inr (.inr (.inr (by simp [Wheels.respawn,show c.wheels.live = true from alive])))
  · rename_i ready
    intro _
    refine endRotationKept alive ?_ (fun none => by cases none)
    refine s.rotated quiet (fun id its => ?_) failed
    cases Option.some.inj its
    have ready : c.hasStatus r.replacement .ready = true := eq_true_of_ne_false (fun no => ready (by
      show (!c.hasStatus r.replacement .ready) = true
      rw [no]
      rfl))
    cases found : c.generation r.replacement with
    | none => simp [Client.hasStatus,found] at ready
    | some g =>
      have status : g.status = .ready := by simpa [Client.hasStatus,found] using ready
      exact ⟨gear g,gearsGeneration found,status⟩

theorem disposedKept (gone : c.disposed = true) : Kept c := by
  intro live
  exact absurd ((runningLive (c := c) live).1.symm.trans gone) (by decide)

theorem runJobKept {job} (h : c.control.Sound) (k : Kept c) (queued : c.jobs = job::rest) :
    Kept (runJob { c with jobs := rest } job) := by
  cases job with
  | caller => exact poppedKept k queued (by simp) (by simp) (by simp)
  | spawned purpose id ok =>
    cases purpose with
    | activate =>
      cases ok with
      | false => exact resumeActivationFailed k queued
      | true =>
        refine absurd ?_ (h.quiet id)
        show Job.spawned .activate id true ∈ c.jobs
        simp [queued]
    | rotate => exact resumeRotationSpawnedKept h k queued
  | clearSpawnInFlight chain =>
    have popped := poppedKept k queued (by simp) (by simp) (by simp)
    simp only [runJob]
    split
    · exact popped.same rfl rfl
    · exact popped
  | closed waiter id =>
    cases waiter with
    | rotate => exact resumeRotationClosedKept h k queued
    | dispose => exact disposedKept rfl
  | raced race =>
    simp only [runJob,settleRace]
    split
    · exact disposedKept rfl
    · exact poppedKept k queued (by simp) (by simp) (by simp)
  | disposeResume =>
    intro live
    have alive : c.live = true := (resumeDisposeSettles { c with jobs := rest }).latched live
    have running : ({ c with jobs := rest } : Client).phase = none := by
      have none : c.disposal = none := by simpa [Client.disposed] using (runningLive (c := c) alive).1
      simp [Client.phase,none]
    have result : resumeDispose { c with jobs := rest } = { c with jobs := rest } := by
      unfold resumeDispose
      rw [running]
    show Steady (resumeDispose { c with jobs := rest }).wheels ∧ Manned (resumeDispose { c with jobs := rest }).wheels
    rw [result]
    exact poppedKept k queued (by simp) (by simp) (by simp) alive

theorem disposeKept (k : Kept c) (deadlineMs : Int) : Kept (dispose c deadlineMs) := by
  unfold dispose
  split
  · exact k
  · intro live
    have alive := (awaitSpawnSettles _).latched live
    cases alive

theorem runOpKept (k : Kept c) (op : Op) : Kept (runOp c op) := by
  cases op with
  | publish input => exact publishKept k input
  | publishReserved input => exact publishReservedKept k input
  | beginDisposeDrain => exact k.same rfl rfl
  | dispose deadlineMs => exact disposeKept k deadlineMs
  | setRetention retentionMs => exact k.same rfl rfl

def spared (c : Client) (e : Event) : Bool :=
  match e.action with
  | .transportError id _ => !awaitsClose c id
  | _ => true

theorem runTaskKept {action} (h : c.control.Sound) (k : Kept c) (free : c.jobs = [])
    (spared : ∀ id detail, action = .transportError id detail → awaitsClose c id = false)
    (ran : runTask c action = some d) : Kept d := by
  cases taskRan ran with
  | enter =>
    refine k.feeds (fun live => live) (fun _ s => ?_)
    exact .shift (s.push (by simp)) rfl rfl rfl (.inl rfl) (fun flight => flight.push)
  | message response => exact handleMessageKept h k _ response
  | transportError id detail => exact onTransportErrorKept h k (spared id detail rfl) detail
  | readyTimeout found => exact readyTimeoutKept h k found _
  | closeTimeout found => exact closeTimeoutKept h k found
  | retryTimeout found => exact onRetryTimerKept k found
  | respawnTimeout => exact onRespawnTimerKept k free
  | watchdogTimeout => exact onWatchdogTimerKept k
  | raceTimeout racing => exact disposedKept rfl

theorem callersFeeds (s : Steady c.wheels) (again : Nat) :
    Feeds c.wheels ({ c with jobs := c.jobs ++ List.replicate again .caller } : Client).wheels := by
  induction again with
  | zero =>
    simp only [List.replicate_zero,List.append_nil]
    exact .refl s
  | succ n ih =>
    have more : c.jobs ++ List.replicate (n + 1) Job.caller = c.jobs ++ List.replicate n Job.caller ++ [.caller] := by
      rw [List.replicate_succ',List.append_assoc]
    rw [more]
    exact ih.trans (.shift (ih.steady.push (by simp)) rfl rfl rfl (.inl rfl) (fun flight => flight.push))

theorem stepKept {ev} (held : Held c) (k : Kept c) (meets : spared c ev = true) (stepped : step c ev = some d) : Kept d := by
  have begun : Kept (begin_ c ev) := k.same rfl rfl
  rcases held with sound | ⟨id,activating⟩
  · unfold step at stepped
    split at stepped
    · rename_i free
      refine runTaskKept (c := begin_ c ev) sound begun free (fun id detail its => ?_) stepped
      have open_ : awaitsClose c id = false := by simpa [spared,its] using meets
      exact open_
    · cases stepped
      exact runOpKept begun _
    · rename_i rest again queued _
      cases stepped
      have popped := poppedKept begun queued (by simp) (by simp) (by simp)
      exact popped.feeds (fun live => live) (fun _ s => callersFeeds s again)
    · cases stepped
    · rename_i job rest _ queued _
      cases stepped
      exact runJobKept (c := begin_ c ev) sound begun queued
    · cases stepped
  · have settled : d = runJob { begin_ c ev with jobs := [] } (.spawned .activate id true) := by
      unfold step at stepped
      rw [activating.only] at stepped
      split at stepped <;> simp_all
    subst settled
    exact resumeActivationReady (c := begin_ c ev)
      { activating with } begun

def Watched (c : Client) : Prop := c.live = true → c.unacked ≠ [] → c.watchdogTimer.isSome = true

theorem Settles.keepsWatched (w : Watched c) (settles : Settles c d) : Watched d := by
  intro live pending
  refine settles.watched live (w (settles.latched live) (fun empty => pending ?_))
  exact heldNone.mp (settles.ledger.emptied (heldNone.mpr empty))

theorem publishWatched (w : Watched c) (input : EntryInput) : Watched (publish c input).2 := by
  unfold publish
  split
  · exact w
  · rename_i accepts
    have open_ : c.acceptsWork = true := by simpa using accepts
    have reserved : (publishReserved c input).2 = trySend (ensureActiveGeneration (register c input)) c.nextSeq := by
      simp only [Client.acceptsWork,Bool.and_eq_true,Bool.not_eq_true'] at open_
      have fatal : c.writerFatal = none := by simpa using open_.2
      simp [publishReserved,open_.1.1,open_.1.2,fatal]
    rcases publishReservedSettles c input with ⟨_,_,books⟩ | ⟨refused,_⟩
    · rw [reserved] at books
      exact fun _ _ => congrArg Books.watched books
    · simp only [publishReserved] at refused
      split at refused
      · rename_i gone
        simp [Client.acceptsWork,gone] at open_
      · split at refused <;> cases refused

theorem runOpWatched (w : Watched c) (op : Op) : Watched (runOp c op) := by
  cases op with
  | publish input => exact publishWatched w input
  | publishReserved input =>
    rcases publishReservedSettles c input with ⟨_,_,books⟩ | ⟨_,same⟩
    · exact fun _ _ => congrArg Books.watched books
    · show Watched (publishReserved c input).2
      rw [same]
      exact w
  | beginDisposeDrain => exact w
  | dispose deadlineMs => exact (disposeSettles c deadlineMs).keepsWatched w
  | setRetention retentionMs => exact w

theorem stepWatched {ev} (w : Watched c) (stepped : step c ev = some d) : Watched d := by
  by_cases own : ∃ op, ev.action = .op op
  · obtain ⟨op,its⟩ := own
    unfold step at stepped
    rw [its] at stepped
    split at stepped
    · cases stepped
    · rename_i same
      cases stepped
      cases same
      exact runOpWatched (c := begin_ c ev) w op
    all_goals simp_all
  · exact (stepSettles _ (fun op its => own ⟨op,its⟩) stepped).keepsWatched (c := begin_ c ev) w

def spawnAwaited (c : Client) (id : Nat) : Prop :=
  ∃ g, c.generation id = some g ∧ g.status = .starting ∧ g.readyTimer.isSome = true

def rotationAwaited (c : Client) (r : Rotation) : Prop :=
  if r.spawned then
    (∃ g, c.generation r.outgoing = some g ∧ g.status = .closing ∧ g.closeTimer.isSome = true ∧
      g.onClosed = some .rotate ∧ g.closeSettled = false) ∨ .closed .rotate r.outgoing ∈ c.jobs
  else spawnAwaited c r.replacement ∨ ∃ ok, .spawned .rotate r.replacement ok ∈ c.jobs

structure Armed (c : Client) : Prop where
  fed : ∀ id, c.active = some id → c.hasStatus id .ready = true ∧
    ((∀ seq e, c.entry seq = some e → (e.state = .sent ∧ e.generation = some id) ∨
        (e.state = .retryWait ∧ e.retryTimer.isSome = true)) ∨
      (c.admissionSuspended = true ∧ c.watchdogTimer.isSome = true))
  idle : c.active = none → (∃ id, spawnAwaited c id ∨ .spawned .activate id true ∈ c.jobs) ∨
    (∃ r, c.rotation = some r ∧ rotationAwaited c r) ∨ c.respawnTimer.isSome = true

theorem spawnAwaitedOf (s : Steady c.wheels) (starting : c.wheels.Starting id) : spawnAwaited c id := by
  obtain ⟨w,its,begun⟩ := starting
  obtain ⟨g,found,rfl⟩ := generationGears its
  have status : g.status = .starting := begun
  have timed := s.timed id (gear g) its begun
  refine ⟨g,found,status,?_⟩
  simpa [gear,status] using timed

theorem armedOf (s : Steady c.wheels) (m : Manned c.wheels) (watched : c.watchdogTimer.isSome = true)
    (pending : c.unacked ≠ []) : Armed c := by
  constructor
  · intro id fed
    obtain ⟨w,its,ready⟩ := s.ready id fed
    obtain ⟨g,found,rfl⟩ := generationGears its
    have status : g.status = .ready := ready
    refine ⟨by simp [Client.hasStatus,found,status],?_⟩
    by_cases suspended : c.admissionSuspended = true
    · exact .inr ⟨suspended,watched⟩
    · refine .inl (fun seq e there => ?_)
      have attended := (m.held id fed seq).resolve_right suspended
      rcases attended (station e) (stationsEntry there) with sent | waiting
      · exact .inl sent
      · exact .inr ⟨waiting,s.retrying seq (station e) (stationsEntry there) waiting⟩
  · intro none
    rcases m.idle none with (⟨id,starting⟩ | ⟨id,member⟩ | rotating | due) | ⟨_,empty⟩
    · exact .inl ⟨id,.inl (spawnAwaitedOf s starting)⟩
    · exact .inl ⟨id,.inr member⟩
    · obtain ⟨r,its⟩ := Option.isSome_iff_exists.mp rotating
      refine .inr (.inl ⟨r,its,?_⟩)
      unfold rotationAwaited
      split
      · rename_i spawned
        rcases s.closed r its spawned with ⟨w,there,closing⟩ | queued
        · obtain ⟨g,found,rfl⟩ := generationGears there
          simp only [gear,Bool.and_eq_true,decide_eq_true_eq,Bool.not_eq_true'] at closing
          exact .inl ⟨g,found,closing.1.1.1,closing.1.1.2,closing.1.2,closing.2⟩
        · exact .inr queued
      · rename_i unspawned
        rcases s.spawned r its (eq_false_of_ne_true unspawned) with starting | queued
        · exact .inl (spawnAwaitedOf s starting)
        · exact .inr queued
    · exact .inr (.inr due)
    · cases entries : c.unacked with
      | nil => exact absurd entries pending
      | cons first rest =>
        have found : c.entry first.1 = some first.2 := by simp [Client.entry,entries,InsertionMap.get]
        exact absurd ((stationsEntry found).symm.trans (empty first.1)) (by simp)

theorem startKept (rotationByteBudget : Nat) (retentionMs : Option Int) (now : Int) :
    Kept (.start rotationByteBudget retentionMs now) := by
  intro _
  constructor
  · constructor <;> simp [Client.wheels,Client.start,Client.generation,Client.entry,Starting]
  · constructor <;> simp [Client.wheels,Client.start,Client.entry]

theorem payloadUnwedged (reach : machine.ReachableUnder (fun c e => spared c e = true) c) (live : c.live = true) :
    (∀ id, c.active = some id → c.hasStatus id .ready = true) ∧ (c.unacked ≠ [] → Armed c) := by
  have kept : Held c ∧ Kept c ∧ Watched c := by
    refine reach.invariant (P := fun c => Held c ∧ Kept c ∧ Watched c) ?_ ?_
    · rintro c ⟨rotationByteBudget,retentionMs,now,rfl⟩
      exact ⟨.inl (startSound _ _ _),startKept _ _ _,fun _ pending => absurd rfl pending⟩
    · intro c ev d ⟨held,k,w⟩ meets stepped
      exact ⟨(stepAdvances held stepped).held,stepKept held k meets stepped,stepWatched w stepped⟩
  obtain ⟨_,k,w⟩ := kept
  obtain ⟨s,m⟩ := k live
  refine ⟨fun id fed => ?_,fun pending => armedOf s m (w live pending) pending⟩
  obtain ⟨w,its,ready⟩ := s.ready id fed
  obtain ⟨g,found,rfl⟩ := generationGears its
  have status : g.status = .ready := ready
  simp [Client.hasStatus,found,status]

theorem payloadUnwedgedRotated : ∃ c, machine.runUnder spared (.start 150 none 0) rotatedOut = some c ∧ Armed c :=
  ⟨_,rfl,(payloadUnwedged
    (Machine.runReachableUnder (s := .start 150 none 0) rotatedOut ⟨150,none,0,rfl⟩ rfl) rfl).2 (by decide)⟩

def wedging : List Event := rotatedOut.take 9 ++ [immediate (.transportError 1 "payload writer exited")]

theorem payloadWedged : ∃ c, machine.run (.start 150 none 0) wedging = some c ∧ c.live = true ∧ c.unacked ≠ [] ∧
    ¬ Armed c := by
  refine ⟨_,rfl,rfl,by decide,fun armed => ?_⟩
  rcases armed.idle rfl with ⟨id,⟨g,found,starting,_⟩ | queued⟩ | ⟨r,rotating,awaited⟩ | due
  · have found : InsertionMap.get [(1,_),(2,_)] id = some g := found
    simp only [InsertionMap.get] at found
    split at found
    · cases found
      cases starting
    · split at found
      · cases found
        cases starting
      · cases found
  · cases queued
  · cases rotating
    rcases awaited with ⟨g,found,closing,_⟩ | queued
    · cases found
      cases closing
    · cases queued
  · cases due

end Clankermux.PayloadWriteClient
