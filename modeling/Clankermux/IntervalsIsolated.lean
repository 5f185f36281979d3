import Clankermux.IntervalManager

/-! Intervals stay isolated as long as no id is registered during one of its runs and no
cleanup outlives the registration it was made for. -/
namespace Clankermux.IntervalManager
open InsertionMap

structure Kept (s : Manager) : Prop where
  unique : (keys s.intervals).Nodup
  named : ∀ id r, s.intervals.get id = some r → r < s.registered ∧ s.idOf r = id
  down : s.isShuttingDown = true → s.intervals = []
  armed : ∀ handle r, s.timers.get handle = some r ↔ s.Live r ∧ (s.records r).intervalId = handle
  fresh : ∀ handle r, s.timers.get handle = some r → handle < s.handles
  marked : ∀ run ∈ s.runs, run.registration < s.registered ∧ run.interval = run.registration
  flag : ∀ r, (s.records r).config.maxConcurrent = some 1 →
    s.runs.countP (fun run => run.registration = r) = if (s.records r).isRunning then 1 else 0

variable {s t : Manager} {id : String} {config : IntervalConfig} {r registration : Nat} {now newIntervalMs : Int} {run : Run}

theorem Kept.unregister (kept : Kept s) (id : String) : Kept (unregister s id).2 := by
  unfold IntervalManager.unregister
  split
  · exact kept
  · rename_i r here
    obtain ⟨unique,named,down,armed,fresh,marked,flag⟩ := kept
    refine ⟨nodupSublist unique deleteSublist,?_,?_,?_,?_,marked,flag⟩ <;> clear marked flag <;> simp only [Manager.Live,Manager.idOf,clearInterval,getDelete] at *
    · grind
    · grind
    · have own := (armed (s.records r).intervalId r).mpr ⟨by rw [(named id r here).2]; exact here,rfl⟩
      grind
    · grind

theorem Kept.install (kept : Kept s) (up : s.isShuttingDown = false) (free : s.intervals.get config.id = none) :
    Kept (install s config) := by
  obtain ⟨unique,named,down,armed,fresh,marked,flag⟩ := kept
  have none_ : s.runs.countP (fun run => run.registration = s.registered) = 0 := by
    grind
  constructor <;> simp only [Manager.Live,Manager.idOf,IntervalManager.install,setInterval,Manager.put,getSet] at *
  · exact nodupSet unique
  · clear flag marked armed fresh
    grind
  · grind
  · intro handle r
    have known := armed handle r
    have old := fresh handle r
    grind
  · grind
  · grind
  · grind

theorem Kept.updateInterval (kept : Kept s) : Kept (updateInterval s id newIntervalMs).2 := by
  unfold IntervalManager.updateInterval
  split
  · exact kept
  · rename_i r here
    obtain ⟨unique,named,down,armed,fresh,marked,flag⟩ := kept
    constructor <;> simp only [Manager.Live,Manager.idOf,clearInterval,setInterval,Manager.put,getSet,getDelete] at *
    · exact unique
    · clear flag marked armed fresh
      grind
    · grind
    · intro handle other
      have known := armed handle other
      have old := fresh handle other
      grind
    · grind
    · grind
    · grind

theorem timersShutDown {s : Manager} (m : InsertionMap String Nat) : ∀ {timers : InsertionMap Nat Nat} {handle r},
    (m.foldl (fun timers (_,interval) => clearInterval timers (s.records interval).intervalId) timers).get handle = some r →
    timers.get handle = some r ∧ ∀ entry ∈ m, (s.records entry.2).intervalId ≠ handle := by
  induction m with
  | nil => exact fun left => ⟨left,by simp⟩
  | cons first rest ih =>
    intro timers handle r left
    obtain ⟨there,others⟩ := ih left
    simp only [clearInterval,getDelete] at there
    split at there
    · cases there
    · rename_i other
      exact ⟨there,List.forall_mem_cons.mpr ⟨fun same => other same.symm,others⟩⟩

theorem Kept.shutdown (kept : Kept s) : Kept (shutdown s) := by
  have none_ : ∀ handle r, (IntervalManager.shutdown s).timers.get handle ≠ some r := by
    intro handle r there
    obtain ⟨armed,apart⟩ := timersShutDown s.intervals there
    obtain ⟨live,its⟩ := (kept.armed handle r).mp armed
    exact apart _ (memOfGet live) its
  refine ⟨List.nodup_nil,by rintro _ _ ⟨⟩,fun _ => rfl,fun handle r => ?_,fun handle r there => absurd there (none_ handle r),kept.marked,kept.flag⟩
  exact ⟨fun there => absurd there (none_ handle r),fun ⟨live,_⟩ => by cases live⟩

theorem wrappedCases (now : Int) (live : s.Live registration) : wrappedCallback s registration now = s ∨
    s.isShuttingDown = false ∧ ((s.records registration).config.maxConcurrent = some 1 → (s.records registration).isRunning = false) ∧
    wrappedCallback s registration now = started s registration registration now := by
  have found : s.intervals.get (s.records registration).config.id = some registration := live
  unfold wrappedCallback
  grind

theorem Kept.wrapped (kept : Kept s) (live : s.Live registration) : Kept (wrappedCallback s registration now) := by
  rcases wrappedCases now live with same | ⟨_,idle,same⟩
  · rwa [same]
  · rw [same]
    have known := (kept.named _ _ live).1
    obtain ⟨unique,named,down,armed,fresh,marked,flag⟩ := kept
    constructor <;> simp only [Manager.Live,Manager.idOf,started,Manager.put] at *
    · exact unique
    · grind
    · grind
    · grind
    · grind
    · grind
    · grind

theorem erasedCount (inside : run ∈ s.runs) (p : Run → Bool) : s.runs.countP p = (s.runs.erase run).countP p + if p run then 1 else 0 := by
  rw [(List.perm_cons_erase inside).countP_eq,List.countP_cons]

theorem Kept.finished (kept : Kept s) (inside : run ∈ s.runs) : Kept (finished s run) := by
  obtain ⟨unique,named,down,armed,fresh,marked,flag⟩ := kept
  have same := (marked run inside).2
  constructor <;> simp only [Manager.Live,Manager.idOf,Manager.put,IntervalManager.finished] at *
  · exact unique
  · clear flag armed
    grind
  · exact down
  · intro handle r
    have known := armed handle r
    grind
  · exact fresh
  · exact fun other left => marked other (List.mem_of_mem_erase left)
  · intro r
    have counted := erasedCount inside (fun other => decide (other.registration = r))
    have known := flag r
    grind

/-- An id that runs one at a time has one run in progress, which belongs to its registration if it has one. -/
structure Single (s : Manager) : Prop where
  flight : ∀ id, s.OneAtATime id → s.inFlight id ≤ 1
  current : ∀ id, s.OneAtATime id → ∀ r, s.intervals.get id = some r → ∀ run ∈ s.runs, s.idOf run.registration = id → run.registration = r

theorem putSame {record : ActiveInterval} (id : record.config.id = s.idOf registration)
    (alone : record.config.maxConcurrent = (s.records registration).config.maxConcurrent) (r : Nat) :
    (s.put registration record).idOf r = s.idOf r ∧
      ((s.put registration record).records r).config.maxConcurrent = (s.records r).config.maxConcurrent := by
  simp only [Manager.idOf,Manager.put]
  split
  · rename_i its
    rw [its]
    exact ⟨id,alone⟩
  · exact ⟨rfl,rfl⟩

theorem startedSame (r : Nat) : (started s registration registration now).idOf r = s.idOf r ∧
    ((started s registration registration now).records r).config.maxConcurrent = (s.records r).config.maxConcurrent := by
  have same := @putSame s registration {s.records registration with
    isRunning := true, lastRun := now, runCount := (s.records registration).runCount + 1} rfl rfl r
  exact same

theorem Single.shrunk (single : Single s) (configs : ∀ r, t.idOf r = s.idOf r ∧
      (t.records r).config.maxConcurrent = (s.records r).config.maxConcurrent) (registered : t.registered = s.registered)
    (runs : List.Sublist t.runs s.runs) (current : ∀ id r, t.intervals.get id = some r → s.intervals.get id = some r) : Single t := by
  have one : ∀ id, t.OneAtATime id → s.OneAtATime id := fun id one r below its => by
    rw [← (configs r).2]
    exact one r (registered ▸ below) ((configs r).1.trans its)
  constructor
  · intro id its
    have same : t.inFlight id = t.runs.countP (fun run => s.idOf run.registration = id) := by simp only [Manager.inFlight,(configs _).1]
    rw [same]
    exact runs.countP_le.trans (single.flight id (one id its))
  · intro id its r here run inside named
    exact single.current id (one id its) r (current id r here) run (runs.subset inside) ((configs _).1.symm.trans named)

theorem freshRecord : (install s config).records s.registered = ⟨config,s.handles,0,false,0⟩ := if_pos rfl

theorem Single.install (kept : Kept s) (single : Single s)
    (quiet : config.maxConcurrent = some 1 → s.inFlight config.id = 0) : Single (install s config) := by
  have old : ∀ r, r ≠ s.registered → (IntervalManager.install s config).records r = s.records r := fun r other => if_neg other
  have names : ∀ run ∈ s.runs, (IntervalManager.install s config).idOf run.registration = s.idOf run.registration := fun run inside => by
    rw [Manager.idOf,old _ (Nat.ne_of_lt (kept.marked run inside).1),Manager.idOf]
  have one : ∀ id, (IntervalManager.install s config).OneAtATime id → s.OneAtATime id := fun id one r below its => by
    have kept_ := old r (Nat.ne_of_lt below)
    rw [← kept_]
    exact one r (Nat.lt_succ_of_lt below) (by rw [Manager.idOf,kept_]; exact its)
  have none_ : (IntervalManager.install s config).OneAtATime config.id → ∀ run ∈ s.runs, s.idOf run.registration ≠ config.id := fun one => by
    have alone := one s.registered (Nat.lt_succ_self _) (by rw [Manager.idOf,freshRecord])
    rw [freshRecord] at alone
    simpa [Manager.inFlight,List.countP_eq_zero] using quiet alone
  constructor
  · intro id its
    refine (Nat.le_of_eq ?_).trans (single.flight id (one id its))
    exact List.countP_congr (fun run inside => by simp only [names run inside])
  · intro id its r here run inside named
    rw [names run inside] at named
    change (s.intervals.set config.id s.registered).get id = some r at here
    by_cases same : id = config.id
    · subst same
      exact absurd named (none_ its run inside)
    · rw [getSetOther same] at here
      exact single.current id (one id its) r here run inside named

theorem Single.wrapped (kept : Kept s) (single : Single s) (live : s.Live registration) : Single (wrappedCallback s registration now) := by
  rcases wrappedCases now live with same | ⟨_,idle,same⟩
  · rwa [same]
  · rw [same]
    have one : ∀ id, (started s registration registration now).OneAtATime id → s.OneAtATime id := fun id one r below its => by
      rw [← (startedSame r).2]
      exact one r below ((startedSame r).1.trans its)
    constructor
    · intro id its
      have before : (started s registration registration now).inFlight id =
          s.inFlight id + if s.idOf registration = id then 1 else 0 := by
        simp only [Manager.inFlight,(startedSame _).1]
        exact List.countP_cons.trans (by simp)
      rw [before]
      by_cases same : s.idOf registration = id
      · have alone := one id its registration (kept.named _ _ live).1 same
        have none_ : s.inFlight id = 0 := by
          have silent := kept.flag registration alone
          rw [idle alone,if_neg Bool.false_ne_true,List.countP_eq_zero] at silent
          refine List.countP_eq_zero.mpr (fun run inside named => silent run inside (decide_eq_true ?_))
          have named := of_decide_eq_true named
          exact (single.current id (one id its) registration (same ▸ live) run inside named)
        rw [none_,if_pos same]
      · rw [if_neg same]
        exact single.flight id (one id its)
    · intro id its r here run inside named
      rw [(startedSame _).1] at named
      rcases List.mem_cons.mp inside with rfl | inside
      · have its : s.intervals.get (s.idOf registration) = some registration := live
        exact Option.some.inj (its.symm.trans (named.symm ▸ here))
      · exact single.current id (one id its) r here run inside named

theorem freed (s : Manager) (id : String) : (IntervalManager.unregister s id).2.intervals.get id = none := by
  unfold IntervalManager.unregister
  split
  · assumption
  · exact getDeleteSelf

theorem Single.unregister (single : Single s) (id : String) : Single (unregister s id).2 := by
  unfold IntervalManager.unregister
  split
  · exact single
  · refine single.shrunk (fun _ => ⟨rfl,rfl⟩) rfl (List.Sublist.refl _) (fun other r here => ?_)
    simp only [getDelete] at here
    split at here
    · cases here
    · exact here

theorem liveInstalled : (install s config).Live s.registered := by
  rw [Manager.Live,Manager.idOf,freshRecord]
  exact getSetSelf

theorem registerCases (s : Manager) (config : IntervalConfig) (now : Int) : register s config now = s ∧ s.isShuttingDown = true ∨
    s.isShuttingDown = false ∧ (register s config now = install (unregister s config.id).2 config ∨
      register s config now = wrappedCallback (install (unregister s config.id).2 config) (unregister s config.id).2.registered now) := by
  unfold register
  split
  · exact .inl ⟨rfl,by assumption⟩
  · rename_i up
    refine .inr ⟨Bool.of_not_eq_true up,?_⟩
    split
    · exact .inr rfl
    · exact .inl rfl

theorem unregisterFrame (s : Manager) (id : String) : (unregister s id).2.isShuttingDown = s.isShuttingDown ∧
    (unregister s id).2.runs = s.runs ∧ (unregister s id).2.records = s.records := by
  unfold IntervalManager.unregister
  split <;> exact ⟨rfl,rfl,rfl⟩

variable {e : Event}

theorem bothStep (kept : Kept s) (single : Single s) (apart : e.apart s = true) (went : step s e = some t) : Kept t ∧ Single t := by
  cases e with
  | register config now =>
    cases went
    rcases registerCases s config now with ⟨same,_⟩ | ⟨up,shape⟩
    · rw [same]
      exact ⟨kept,single⟩
    · obtain ⟨down,runs,records⟩ := unregisterFrame s config.id
      have quiet : config.maxConcurrent = some 1 → (unregister s config.id).2.inFlight config.id = 0 := fun alone => by
        have none_ : s.inFlight config.id = 0 := by simpa [Event.apart,up,alone] using apart
        refine List.countP_eq_zero.mpr (fun run inside named => ?_)
        have named := of_decide_eq_true named
        rw [Manager.idOf,records] at named
        exact List.countP_eq_zero.mp none_ run (runs ▸ inside) (decide_eq_true named)
      have installed := (kept.unregister config.id).install (down.trans up) (freed s config.id)
      have alone := (single.unregister config.id).install (kept.unregister config.id) quiet
      rcases shape with same | same
      · rw [same]
        exact ⟨installed,alone⟩
      · rw [same]
        exact ⟨installed.wrapped liveInstalled,alone.wrapped installed liveInstalled⟩
  | unregister id =>
    cases went
    exact ⟨kept.unregister id,single.unregister id⟩
  | cleanup r =>
    simp only [step,Option.ite_none_right_eq_some] at went
    cases went.2
    exact ⟨kept.unregister _,single.unregister _⟩
  | updateInterval id newIntervalMs =>
    cases went
    refine ⟨kept.updateInterval,?_⟩
    unfold updateInterval
    split
    · exact single
    · rename_i r here
      exact single.shrunk (putSame rfl rfl) rfl (List.Sublist.refl _) (fun _ _ here => here)
  | shutdown =>
    cases went
    exact ⟨kept.shutdown,single.shrunk (fun _ => ⟨rfl,rfl⟩) rfl (List.Sublist.refl _) (by rintro _ _ ⟨⟩)⟩
  | fire handle now =>
    obtain ⟨r,armed,rfl⟩ := Option.map_eq_some_iff.mp went
    have live := ((kept.armed handle r).mp armed).1
    exact ⟨kept.wrapped live,single.wrapped kept live⟩
  | complete run =>
    simp only [step,Option.ite_none_right_eq_some] at went
    cases went.2
    exact ⟨kept.finished went.1,single.shrunk (putSame rfl rfl) rfl List.erase_sublist (fun _ _ here => here)⟩

theorem reachedBoth (reach : machine.ReachableUnder (fun s e => e.apart s = true) s) : Kept s ∧ Single s := by
  refine reach.invariant (P := fun s => Kept s ∧ Single s) ?_ (fun s e t both apart went => bothStep both.1 both.2 apart went)
  rintro s rfl
  exact ⟨⟨List.nodup_nil,by rintro _ _ ⟨⟩,fun _ => rfl,fun _ _ => ⟨by rintro ⟨⟩,fun live => by cases live.1⟩,by rintro _ _ ⟨⟩,by rintro _ ⟨⟩,
    fun _ => by rintro ⟨⟩⟩,⟨fun _ _ => Nat.zero_le _,by rintro _ _ _ ⟨⟩⟩⟩

theorem cleanupOwn (apart : (Event.cleanup r).apart s = true) :
    ¬ (unregister s (s.idOf r)).2.Live r ∧ ∀ other ≠ r, s.Live other → (unregister s (s.idOf r)).2.Live other := by
  obtain ⟨_,_,records⟩ := unregisterFrame s (s.idOf r)
  have names : ∀ other, (unregister s (s.idOf r)).2.idOf other = s.idOf other := fun other => by rw [Manager.idOf,records,Manager.idOf]
  refine ⟨fun live => ?_,fun other ne live => ?_⟩
  · rw [Manager.Live,names,freed] at live
    cases live
  · rw [Manager.Live,names]
    unfold unregister
    split
    · exact live
    · rename_i current here
      have own : current = r := by simpa [Event.apart,here] using apart
      refine (getDeleteOther (fun same => ne ?_)).trans live
      have its : s.intervals.get (s.idOf other) = some other := live
      rw [same,here] at its
      exact (Option.some.inj its).symm.trans own

theorem wrappedStarts (live : s.Live registration) (began : (wrappedCallback s registration now).runs = run::s.runs) :
    (wrappedCallback s registration now).Live run.registration ∧ (wrappedCallback s registration now).isShuttingDown = false := by
  rcases wrappedCases now live with same | ⟨up,_,same⟩
  · rw [same] at began
    simpa using congrArg List.length began
  · rw [same] at began ⊢
    cases (List.cons.inj began).1
    exact ⟨(congrArg (fun id => s.intervals.get id) (startedSame registration).1).trans live,up⟩

theorem startsLive (kept : Kept s) (went : step s e = some t) (began : t.runs = run::s.runs) :
    t.Live run.registration ∧ t.isShuttingDown = false := by
  have still : t.runs.length ≤ s.runs.length → False := fun short => by
    rw [began,List.length_cons] at short
    omega
  cases e with
  | register config now =>
    cases went
    obtain ⟨down,runs,_⟩ := unregisterFrame s config.id
    rcases registerCases s config now with ⟨same,_⟩ | ⟨_,same | same⟩
    · exact (still (by rw [same])).elim
    · exact (still (by rw [same]; exact Nat.le_of_eq (congrArg List.length runs))).elim
    · rw [same] at began ⊢
      exact wrappedStarts liveInstalled (began.trans (congrArg (run::·) runs.symm))
  | fire handle now =>
    obtain ⟨r,armed,rfl⟩ := Option.map_eq_some_iff.mp went
    exact wrappedStarts ((kept.armed handle r).mp armed).1 began
  | unregister id =>
    cases went
    exact (still (Nat.le_of_eq (congrArg List.length (unregisterFrame s id).2.1))).elim
  | cleanup r =>
    simp only [step,Option.ite_none_right_eq_some] at went
    cases went.2
    exact (still (Nat.le_of_eq (congrArg List.length (unregisterFrame s _).2.1))).elim
  | updateInterval id newIntervalMs =>
    cases went
    refine (still (Nat.le_of_eq (congrArg List.length ?_))).elim
    unfold updateInterval
    split <;> rfl
  | shutdown =>
    cases went
    exact (still le_rfl).elim
  | complete run =>
    simp only [step,Option.ite_none_right_eq_some] at went
    cases went.2
    exact (still List.erase_sublist.length_le).elim

theorem intervalsIsolated (reach : machine.ReachableUnder (fun s e => e.apart s = true) s) (apart : e.apart s = true)
    (went : step s e = some t) : Isolated s e t := by
  obtain ⟨before,_⟩ := reachedBoth reach
  obtain ⟨kept,single⟩ := reachedBoth (Machine.reachableNext reach apart went)
  refine ⟨single.flight,?_,?_,fun run began => startsLive before went began,?_⟩
  · rintro r rfl
    simp only [step,Option.ite_none_right_eq_some] at went
    cases Option.some.inj went.2
    exact cleanupOwn apart
  · refine fun r _ => ⟨fun live => ?_,fun gone handle there => gone ((kept.armed handle r).mp there).1⟩
    exact ⟨_,(kept.armed _ r).mpr ⟨live,rfl⟩,fun handle there => ((kept.armed handle r).mp there).2.symm⟩
  · intro info inside r here alone
    obtain ⟨⟨id,interval⟩,entry,rfl⟩ := List.mem_map.mp inside
    cases Option.some.inj ((getOfMem kept.unique entry).symm.trans here)
    have flag := kept.flag r alone
    have counted : 0 < t.runs.countP (fun run => run.registration = r) ↔ ∃ run ∈ t.runs, run.registration = r := by
      simp
    show (t.records r).isRunning = true ↔ _
    rw [← counted,flag]
    split
    · rename_i running
      simp [running]
    · rename_i idle
      simp [idle]

def slow : IntervalConfig := ⟨"poll",1000,true,some 1⟩

def replacedBetween : List Event := [.register slow 0,.complete ⟨0,0⟩,.register slow 1,.fire 1 2,.cleanup 1]

theorem intervalsIsolatedBetween : ∃ s t, machine.runUnder (fun s e => e.apart s) ⟨[],false,fun _ => blank,0,[],0,[]⟩
    replacedBetween = some s ∧ step s .shutdown = some t ∧ Isolated s .shutdown t :=
  ⟨_,_,rfl,rfl,intervalsIsolated (Machine.runReachableUnder replacedBetween rfl rfl) rfl rfl⟩

theorem intervalsOverlap : ¬ ∀ s e t, machine.Reachable s → step s e = some t → Isolated s e t := by
  intro all
  have isolated := all _ (.register slow 1) _ (Machine.runReachable [.register slow 0] rfl rfl) rfl
  have single := isolated.singleFlight "poll" (by
    intro r below _
    rcases (show r = 0 ∨ r = 1 from by have : r < 2 := below; omega) with rfl | rfl <;> rfl)
  revert single
  decide

end Clankermux.IntervalManager
