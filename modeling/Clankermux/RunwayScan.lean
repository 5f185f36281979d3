import Clankermux.RunwayTurn

/-! The scan at pace 1. Until an account dies its turns keep the first instants at which the burns are
full; whatever the demand does afterwards, the earliest death and the first hit stand. -/
namespace Clankermux.RunwayScenario
open CapacityRunway

variable {demand : Demand} {classes : List String} {now t T next horizonEndMs pace : ℚ} {window : ScanWindow} {account : ScanAccount}
  {state : List ScanAccount} {w : Walk} {event : ScanEvent} {capture : BaselineCapture} {place : Place} {pool : Place → Burn}

def KeepsLag (before after : ScanAccount) : Prop :=
  ∀ window ∈ after.windows, ∃ source ∈ before.windows, window.lagMs = source.lagMs ∧ window.lagExhaustAtMs = source.lagExhaustAtMs

theorem KeepsLag.trans {a b c} (first : KeepsLag a b) (second : KeepsLag b c) : KeepsLag a c := by
  intro window its
  obtain ⟨middle,there,lag,pending⟩ := second window its
  obtain ⟨source,member,earlier,waiting⟩ := first middle there
  exact ⟨source,member,lag.trans earlier,pending.trans waiting⟩

def SameLag (change : ScanWindow → ScanWindow) : Prop :=
  ∀ window, (change window).lagMs = window.lagMs ∧ (change window).lagExhaustAtMs = window.lagExhaustAtMs

theorem resetSameLag (atMs : ℚ) : SameLag (resetWindow atMs) := fun _ => ⟨rfl,rfl⟩

theorem reviveSameLag : SameLag reviveWindow := fun _ => ⟨rfl,rfl⟩

theorem deadSameLag (horizonEndMs : ℚ) : SameLag (deadWindow horizonEndMs) := fun _ => ⟨rfl,rfl⟩

theorem keepsLagModify {change} (keeps : SameLag change) (account : ScanAccount) (place : Nat) :
    KeepsLag account { account with windows := account.windows.modify place change } := by
  intro window its
  obtain ⟨j,held⟩ := List.mem_iff_getElem?.mp its
  have held : (account.windows.modify place change)[j]? = some window := held
  rw [List.getElem?_modify] at held
  obtain ⟨source,there,same⟩ := Option.map_eq_some_iff.mp held
  refine ⟨source,List.mem_of_getElem? there,?_⟩
  split at same
  · exact same ▸ keeps source
  · exact same ▸ ⟨rfl,rfl⟩

theorem Quiet.modify (quiet : Quiet state) {change} (keeps : ∀ account, KeepsLag account (change account))
    (i : Nat) : Quiet (state.modify i change) := by
  intro account inside window its
  obtain ⟨k,owner⟩ := List.mem_iff_getElem?.mp inside
  rw [List.getElem?_modify] at owner
  obtain ⟨before,found,same⟩ := Option.map_eq_some_iff.mp owner
  have member := List.mem_of_getElem? found
  split at same
  · subst same
    obtain ⟨source,there,lag,pending⟩ := keeps before window its
    exact ⟨lag.trans (quiet before member source there).1,pending.trans (quiet before member source there).2⟩
  · exact quiet before member window (same ▸ its)

theorem Quiet.modifyWindow (quiet : Quiet state) {change} (keeps : SameLag change) (place : Place) :
    Quiet (modifyWindow state place change) :=
  quiet.modify (fun account => keepsLagModify keeps account place.2) place.1

theorem resetsQuiet (quiet : Quiet state) (resets : List ScanEvent) : Quiet (resets.foldl applyReset state) := by
  induction resets generalizing state with
  | nil => exact quiet
  | cons event resets ih => exact ih (quiet.modifyWindow (resetSameLag event.atMs) event.place)

theorem expiriesQuiet {v} (quiet : Quiet v.1) (expiries : List ScanEvent) :
    Quiet (expiries.foldl applyExpiry v).1 := by
  induction expiries generalizing v with
  | nil => exact quiet
  | cons event expiries ih =>
    refine ih ?_
    rw [applyExpiry]
    split
    · split
      · show Quiet (modifyWindow (v.1.modify event.account _) event.place reviveWindow)
        refine Quiet.modifyWindow (quiet.modify ?_ event.account) reviveSameLag event.place
        exact fun _ window its => ⟨window,its,rfl,rfl⟩
      · exact quiet
    · exact quiet

theorem exhaustKeepsLag (place : Nat) (window : ScanWindow) (account : ScanAccount) :
    KeepsLag account (exhaustAccount horizonEndMs next place window account) := by
  have dead : KeepsLag account { account with windows := account.windows.modify place (deadWindow horizonEndMs) } :=
    keepsLagModify (deadSameLag horizonEndMs) account place
  simp only [exhaustAccount]
  split
  · split
    · rename_i paid taken
      obtain ⟨credit,-,rfl⟩ := Option.map_eq_some_iff.mp taken
      exact dead.trans (keepsLagModify reviveSameLag { account with windows := account.windows.modify place (deadWindow horizonEndMs) } place)
    · exact dead
  · exact dead

theorem exhaustsQuiet {touched v} (quiet : Quiet v.1) (exhausts : List ScanEvent) :
    Quiet (exhausts.foldl (applyExhaust now horizonEndMs next touched) v).1 := by
  induction exhausts generalizing v with
  | nil => exact quiet
  | cons event exhausts ih =>
    refine ih ?_
    rw [applyExhaust]
    split
    · exact quiet
    · split
      · exact quiet
      · split
        · exact quiet
        · exact quiet.modify (exhaustKeepsLag event.window _) event.account

theorem batchQuiet (quiet : Quiet state) (batch : List ScanEvent) (capture : Option BaselineCapture) :
    Quiet (applyBatch now horizonEndMs next batch state capture).1 :=
  exhaustsQuiet (expiriesQuiet (resetsQuiet quiet _) _) _

theorem settledQuiet (quiet : Quiet state) (elapsedMs : ℚ) :
    Quiet ((state.map settleLags).map fun account => { account with windows := account.windows.map (burn elapsedMs) }) := by
  have settled : Quiet (state.map settleLags) := by
    refine quiet.map (fun account inside window its => ?_)
    rw [settleLags] at its
    split at its
    · obtain ⟨before,member,rfl⟩ := List.mem_map.mp its
      exact ⟨before,member,rfl,(quiet account inside before member).2.symm⟩
    · exact ⟨window,its,rfl,rfl⟩
  refine settled.map (fun account _ window its => ?_)
  obtain ⟨before,member,rfl⟩ := List.mem_map.mp its
  refine ⟨before,member,?_⟩
  rw [burn]
  split <;> exact ⟨rfl,rfl⟩

theorem Quiet.later (quiet : Quiet state) (inside : event ∈ candidateEvents t horizonEndMs state) :
    t < event.atMs ∧ event.told = event.atMs := by
  obtain ⟨place,account,window,at_,its,admitted⟩ := candidateMember.mp inside
  have pending := (quiet account at_.accountIn window at_.windowIn).2
  have plain : event.lagOrigin = false ∧ event.exhaustsAtMs = none := by
    rcases List.mem_append.mp its with either | expires
    · rcases List.mem_append.mp either with fills | empties
      · simp only [exhaustEvents,pending] at fills
        split_ifs at fills
        · cases fills
        · cases List.mem_singleton.mp fills
          exact ⟨rfl,rfl⟩
        · cases fills
      · rw [resetEvents] at empties
        split at empties
        · split_ifs at empties
          · cases empties
          · cases List.mem_singleton.mp empties
            exact ⟨rfl,rfl⟩
        · cases empties
    · rw [expiryEvents] at expires
      split at expires
      · split_ifs at expires
        · split at expires
          · cases List.mem_singleton.mp expires
            exact ⟨rfl,rfl⟩
          · cases expires
        · cases expires
      · cases expires
  constructor
  · simpa [ScanEvent.admitted,plain.1] using (Bool.and_eq_true_iff.mp admitted).1
  · rw [ScanEvent.told,plain.2]
    rfl

structure Dying (now T : ℚ) (w : Walk) : Prop where
  live : now ≤ T
  past : T ≤ w.t
  quiet : Quiet w.state
  heard : ∃ capture, w.capture = some capture ∧ Earliest (deaths now capture) (some T)

theorem SameDeaths.heard {before after} (same : SameDeaths after before) (its : before = some capture) :
    ∃ later, after = some later ∧ deaths now later = deaths now capture := by
  subst its
  obtain ⟨later,rfl,told⟩ := Option.map_eq_some_iff.mp same
  have windows : later.exhaustions = capture.exhaustions := congrArg Prod.fst told
  have classes : later.firstExhaustionAfterNow = capture.firstExhaustionAfterNow := congrArg Prod.snd told
  exact ⟨later,rfl,by rw [deaths,deaths,windows,classes]⟩

theorem noticeKeeps (w : Walk) : (notice w).t = w.t ∧ (notice w).state = w.state ∧ (notice w).capture = w.capture := by
  rw [notice]
  split <;> exact ⟨rfl,rfl,rfl⟩

theorem noticeAgain {hit} (its : w.firstHit = some hit) : (notice w).firstHit = some hit := by
  rw [notice,if_neg (by simp [its])]
  exact its

theorem turnCaptured (its : w.capture = some capture) (rule : ShareRule) : turn rule demand classes now horizonEndMs pace w =
    (assign rule demand classes now pace (notice w)).map (advanceWalk now horizonEndMs) := by
  have captured : (notice w).capture = some capture := (noticeKeeps w).2.2.trans its
  rw [turn,captured]
  split
  · cases ‹some capture = none›
  · rfl

theorem Dying.advanced (dying : Dying now T w) :
    (∃ settled, advanceWalk now horizonEndMs w = .done (stopped { w with state := settled } .clear false)) ∨
    ∃ after, advanceWalk now horizonEndMs w = .next after ∧ Dying now T after ∧ after.firstHit = w.firstHit := by
  obtain ⟨capture,its,earliest⟩ := dying.heard
  cases first : ((candidateEvents w.t horizonEndMs w.state).map (·.atMs)).min? with
  | none =>
    simp only [advanceWalk,first]
    exact .inl ⟨_,rfl⟩
  | some next =>
    have ahead : ∀ event ∈ candidateEvents w.t horizonEndMs w.state, T ≤ event.atMs :=
      fun event inside => dying.past.trans (dying.quiet.later inside).1.le
    have since : T ≤ next := by
      obtain ⟨event,inside,rfl⟩ := List.mem_map.mp (List.min?_eq_some_iff.mp first).1
      exact ahead event inside
    simp only [advanceWalk,first]
    refine .inr ⟨_,rfl,⟨dying.live,?_,batchQuiet (settledQuiet dying.quiet _) _ _,?_⟩,rfl⟩
    · show T ≤ Option.getD _ next
      cases last : ((List.filter (fun event : ScanEvent => event.atMs ≤ next + EVENT_TIE_TOLERANCE_MS)
          (candidateEvents w.t horizonEndMs w.state)).map (·.atMs)).max? with
      | none => exact since
      | some x =>
        obtain ⟨event,inside,rfl⟩ := List.mem_map.mp (List.max?_eq_some_iff.mp last).1
        exact ahead event (List.mem_filter.mp inside).1
    · rw [its,applyBatch]
      refine exhaustsKeep rfl earliest (fun event inside => ?_)
      have within := (List.mem_filter.mp (List.mem_filter.mp inside).1).1
      refine ⟨ahead event within,?_⟩
      rw [(dying.quiet.later within).2]
      exact (ahead event within).trans (le_max_right _ _)

theorem stoppedHeard (its : w.capture = some capture) (otherwise : ScanResult) (truncated : Bool)
    (verdict : (stopped w otherwise truncated).result ≠ .budget) : (stopped w otherwise truncated).capture = capture := by
  rw [stopped] at verdict ⊢
  split at verdict
  · have reached : otherwise ≠ .budget := verdict
    simp [finish,its,reached]
  · simp [finish,its]

theorem stoppedHit {hit} (its : w.firstHit = some hit) (otherwise : ScanResult) (truncated : Bool) :
    (stopped w otherwise truncated).result = .hit hit.t hit.causes truncated := by
  rw [stopped,its]
  rfl

structure Ends (now : ℚ) (scanned : Scanned) (first : Option ℚ) (hit : Option HitSnapshot) : Prop where
  earliest : scanned.result ≠ .budget → Earliest (deaths now scanned.capture) first
  hits : ∀ found, hit = some found → ∃ truncated, scanned.result = .hit found.t found.causes truncated

theorem stoppedEnds {first} (its : w.capture = some capture) (earliest : Earliest (deaths now capture) first)
    (otherwise : ScanResult) (truncated : Bool) : Ends now (stopped w otherwise truncated) first w.firstHit :=
  ⟨fun verdict => (stoppedHeard its otherwise truncated verdict).symm ▸ earliest,
    fun _ found => ⟨truncated,stoppedHit found otherwise truncated⟩⟩

theorem Dying.turned (dying : Dying now T w) :
    (∃ scanned, turn proportionalShareRule demand classes now horizonEndMs pace w = .ok (.done scanned) ∧
      Ends now scanned (some T) (notice w).firstHit) ∨
    ∃ after, turn proportionalShareRule demand classes now horizonEndMs pace w = .ok (.next after) ∧ Dying now T after ∧
      after.firstHit = (notice w).firstHit := by
  obtain ⟨capture,its,earliest⟩ := dying.heard
  obtain ⟨clock,state,captured⟩ := noticeKeeps w
  obtain ⟨middle,assigned,assigns⟩ := assignsAlways demand classes now pace (notice w)
  obtain ⟨later,heard,same⟩ := assigns.deaths.heard (captured.trans its)
  have carries : Dying now T middle :=
    ⟨dying.live,(assigns.clock.trans clock).symm ▸ dying.past,assigns.quiet (state.symm ▸ dying.quiet),later,heard,same.symm ▸ earliest⟩
  rw [turnCaptured its,assigned]
  rcases carries.advanced with ⟨settled,done⟩ | ⟨after,next,dying,hit⟩
  · refine .inl ⟨_,congrArg Except.ok done,?_⟩
    rw [← assigns.hit]
    exact stoppedEnds (w := { middle with state := settled }) heard (same.symm ▸ earliest) .clear false
  · exact .inr ⟨after,congrArg Except.ok next,dying,hit.trans assigns.hit⟩

theorem Dying.walk (dying : Dying now T w) (left : Nat) :
    ∃ scanned, walkFrom proportionalShareRule demand classes now horizonEndMs pace left w = .ok scanned ∧
      Ends now scanned (some T) (notice w).firstHit := by
  induction left generalizing w with
  | zero =>
    rw [walkFrom]
    rcases dying.turned with ⟨scanned,done,ends⟩ | ⟨after,next,dying,hit⟩
    · exact ⟨scanned,by rw [done]; rfl,ends⟩
    · obtain ⟨capture,its,earliest⟩ := dying.heard
      exact ⟨_,by rw [next]; rfl,hit ▸ stoppedEnds its earliest .budget true⟩
  | succ left ih =>
    rw [walkFrom]
    rcases dying.turned with ⟨scanned,done,ends⟩ | ⟨after,next,dying,hit⟩
    · exact ⟨scanned,by rw [done]; rfl,ends⟩
    · obtain ⟨scanned,walked,ends⟩ := ih dying
      refine ⟨scanned,by rw [next]; exact walked,ends.earliest,fun found its => ends.hits found ?_⟩
      exact noticeAgain (hit.trans its)

variable {change : Place → ScanAccount → ScanWindow → ScanWindow} {p q : Place → ScanWindow → Bool}

def picked (p : Place → ScanWindow → Bool) (state : List ScanAccount) : List RunwayCause :=
  state.zipIdx.flatMap fun owner => (owner.1.windows.zipIdx.filter fun window => p (owner.2,window.2) window.1).map fun window =>
    ⟨owner.1.accountId,window.1.kind⟩

theorem zipIdxMapIdx {α β : Type} (f : Nat → α → β) (values : List α) :
    (values.mapIdx f).zipIdx = values.zipIdx.map fun entry => (f entry.2 entry.1,entry.2) := by
  refine List.ext_getElem? (fun i => ?_)
  simp [Function.comp_def]

theorem pickedRework (keeps : ∀ place account window, (change place account window).kind = window.kind)
    (same : ∀ place account window, At state place account window → p place (change place account window) = q place window) :
    picked p (rework change state) = picked q state := by
  rw [picked,rework,zipIdxMapIdx,List.flatMap_map,picked,List.flatMap_def,List.flatMap_def]
  refine congrArg List.flatten (List.map_congr_left (fun owner inside => ?_))
  simp only [zipIdxMapIdx,List.filter_map,List.map_map]
  have filters : owner.1.windows.zipIdx.filter ((fun window => p (owner.2,window.2) window.1) ∘
      fun entry => (change (owner.2,entry.2) owner.1 entry.1,entry.2)) = owner.1.windows.zipIdx.filter fun window =>
        q (owner.2,window.2) window.1 := by
    refine List.filter_congr (fun window its => ?_)
    exact same (owner.2,window.2) owner.1 window.1 ⟨List.mk_mem_zipIdx_iff_getElem?.mp inside,List.mk_mem_zipIdx_iff_getElem?.mp its⟩
  rw [filters]
  refine List.map_congr_left (fun window _ => ?_)
  simp only [Function.comp,keeps]

theorem filterZipIdx {α β : Type} (p : α → Bool) (f : α → β) (values : List α) :
    (values.zipIdx.filter fun entry => p entry.1).map (fun entry => f entry.1) = (values.filter p).map f := by
  have whole := List.filter_map (f := Prod.fst) (p := p) (l := values.zipIdx)
  rw [List.zipIdx_map_fst] at whole
  rw [whole,List.map_map]
  rfl

theorem deadPicked : deadWindows state = picked (fun _ window => window.deadUntilMs ≠ none) state := by
  have inner : (fun owner : ScanAccount × Nat => (owner.1.windows.zipIdx.filter fun window : ScanWindow × Nat =>
      decide (window.1.deadUntilMs ≠ none)).map fun window => (⟨owner.1.accountId,window.1.kind⟩ : RunwayCause)) =
      (fun account : ScanAccount => (account.windows.filter (·.deadUntilMs ≠ none)).map fun window =>
        (⟨account.accountId,window.kind⟩ : RunwayCause)) ∘ Prod.fst :=
    funext fun owner => filterZipIdx (fun window : ScanWindow => window.deadUntilMs ≠ none)
      (fun window => (⟨owner.1.accountId,window.kind⟩ : RunwayCause)) owner.1.windows
  rw [picked,inner,deadWindows]
  conv_lhs => rw [← List.zipIdx_map_fst 0 state,List.flatMap_map]
  rfl

structure Running (demand : Demand) (classes : List String) (now horizonEndMs : ℚ) (w : Walk) (pool : Place → Burn) : Prop where
  splits : Splits demand w.state
  covers : ∀ account ∈ w.state, account.demandClass ∈ classes
  bankless : Bankless w.state
  metered : ∀ account ∈ w.state, account.unmetered = false
  filled : w.state ≠ []
  live : now ≤ w.t
  runs : ∀ place account window, At w.state place account window → Runs now w.t (ownSlope account window) window (pool place)
  apart : Burn.Apart (burnsOf w.state pool) EVENT_TIE_TOLERANCE_MS horizonEndMs
  hit : w.firstHit = none
  silent : ∃ capture, w.capture = some capture ∧ deaths now capture = []

theorem paceOwnRework (now t : ℚ) (state : List ScanAccount) :
    state.map (paceOwn now t) = rework (fun _ account window => carried now t (ownSlope account window) window) state :=
  mapRework (fun account window => carried now t (ownSlope account window) window) state

theorem atShape {after later} (at_ : At (rework change state) place after later) :
    ∃ account window, At state place account window := by
  obtain ⟨account,window,there,-,-⟩ := ofRework at_
  exact ⟨account,window,there⟩

theorem memBurnsRework {b} : b ∈ burnsOf (rework change state) pool ↔ b ∈ burnsOf state pool := by
  rw [memBurns,memBurns]
  constructor
  · rintro ⟨place,_,_,at_,same⟩
    obtain ⟨account,window,there⟩ := atShape at_
    exact ⟨place,account,window,there,same⟩
  · rintro ⟨place,account,window,at_,same⟩
    obtain ⟨after,there,-⟩ := @atRework _ _ _ _ change at_
    exact ⟨place,after,_,there,same⟩

theorem Running.noticed (running : Running demand classes now horizonEndMs w pool) : notice w = w := by
  rw [notice,if_neg]
  rintro ⟨dead,-⟩
  obtain ⟨account,inside⟩ := List.exists_mem_of_ne_nil _ running.filled
  have its := List.all_eq_true.mp dead account inside
  simp [running.splits.alive account inside] at its

theorem Running.living (running : Running demand classes now horizonEndMs w pool) :
    Living now w.t (w.state.map (paceOwn now w.t)) pool := by
  refine ⟨running.live,fun account inside => ?_,fun place account window at_ => ?_⟩
  · obtain ⟨before,member,rfl⟩ := List.mem_map.mp inside
    exact paceOwnAlive.trans (running.splits.alive before member)
  · rw [paceOwnRework] at at_
    obtain ⟨before,source,there,rfl,-⟩ := ofRework at_
    have carries := (running.runs place before source there).carried
    rw [carries.assigned]
    exact carries

theorem slopeReading {other before} (same : account.reading = other.reading) (kind : window.kind = before.kind) :
    ownSlope account window = ownSlope other before := by
  have capacity : account.capacityUnits = other.capacityUnits := congrArg (fun reading => reading.2.2.1) same
  rw [ownSlope,ownSlope,weightReading same,kind,capacity]

variable {elapsedMs slope : ℚ} {batch : List ScanEvent} {b : Burn}

theorem turnedKeeps : (turned next elapsedMs horizonEndMs batch place window).kind = window.kind ∧
    (turned next elapsedMs horizonEndMs batch place window).measuredUnitsPerHour = window.measuredUnitsPerHour ∧
    (turned next elapsedMs horizonEndMs batch place window).lagMs = window.lagMs ∧
    (turned next elapsedMs horizonEndMs batch place window).lagExhaustAtMs = none := by
  obtain ⟨pct,whole⟩ := burnedKeeps elapsedMs window
  simp only [turned,whole]
  split_ifs <;> exact ⟨rfl,rfl,rfl,rfl⟩

theorem turnedDead (awake : window.deadUntilMs = none) :
    (turned next elapsedMs horizonEndMs batch place window).deadUntilMs ≠ none ↔ place ∈ filledPlaces batch := by
  obtain ⟨pct,whole⟩ := burnedKeeps elapsedMs window
  simp only [turned,whole]
  split_ifs with filled emptied emptied
  · exact ⟨fun _ => filled,fun _ => nofun⟩
  · exact ⟨fun _ => filled,fun _ => nofun⟩
  · exact ⟨fun dead => absurd rfl dead,fun its => absurd its filled⟩
  · exact ⟨fun dead => absurd awake dead,fun its => absurd its filled⟩

def stepped (now t next horizonEndMs : ℚ) (batch : List ScanEvent) (place : Place) (account : ScanAccount) (window : ScanWindow) : ScanWindow :=
  turned next (next - t) horizonEndMs batch place (carried now t (ownSlope account window) window)

theorem steppedKeeps : KeepsReading (stepped now t next horizonEndMs batch) := by
  intro place account window
  exact ⟨turnedKeeps.1.trans carriedReading.1,turnedKeeps.2.1.trans carriedReading.2.1⟩

theorem steppedSlope (at_ : At (rework (stepped now t next horizonEndMs batch) state) place account window) :
    ∃ before source, At state place before source ∧ window = stepped now t next horizonEndMs batch place before source ∧
      ownSlope account window = ownSlope before source := by
  obtain ⟨before,source,there,rfl,rfl⟩ := ofRework at_
  exact ⟨before,source,there,rfl,slopeReading (workedReading steppedKeeps place.1 before) (steppedKeeps place before source).1⟩

def renewedAt (next : ℚ) (pool : Place → Burn) (place : Place) : Burn :=
  if (pool place).emptiedAt = next then (pool place).renewed else pool place

theorem Runs.fills (runs : Runs now t slope window b) : ∀ timeToFull, b.timeToFull = some timeToFull → 0 < timeToFull := by
  intro timeToFull its
  rw [runs.rate] at its
  split at its
  · cases its
    exact mul_pos (div_pos (by norm_num) ‹0 < slope›) hourPositive
  · cases its

theorem renewedFirst (full : ∀ x, (pool place).fullAt = some x → next ≤ x) :
    (renewedAt next pool place).firstFullAt = (pool place).firstFullAt := by
  rw [renewedAt]
  split
  · rename_i here
    exact Burn.firstFullRenewed (fun x its => here ▸ full x its)
  · rfl

theorem renewedInstant {x} (instant : (renewedAt next pool place).Instant x) : (pool place).Instant x := by
  rw [renewedAt] at instant
  split at instant
  · exact .later _ x instant
  · exact instant

variable {after : Walk}

def paced (now : ℚ) (w : Walk) (capture : Option BaselineCapture) : Walk := { w with state := w.state.map (paceOwn now w.t),capture }

def pacedBatch (now horizonEndMs next : ℚ) (w : Walk) : List ScanEvent :=
  batchAt w.t horizonEndMs next (w.state.map (paceOwn now w.t))

theorem Running.apportioned (running : Running demand classes now horizonEndMs w pool) :
    Bankless (w.state.map (paceOwn now w.t)) ∧
      Burn.Apart (burnsOf (w.state.map (paceOwn now w.t)) pool) EVENT_TIE_TOLERANCE_MS horizonEndMs := by
  rw [paceOwnRework]
  exact ⟨running.bankless.rework,running.apart.instants (fun b inside => ⟨b,memBurnsRework.mp inside,fun _ => id⟩)⟩

theorem atPaced (now t : ℚ) (at_ : At state place account window) :
    At (state.map (paceOwn now t)) place (paceOwn now t account) (carried now t (ownSlope account window) window) := by
  refine ⟨?_,?_⟩
  · rw [List.getElem?_map,at_.owner]
    rfl
  · show (account.windows.map _)[place.2]? = _
    rw [List.getElem?_map,at_.held]
    rfl

theorem ofPaced (nothing : Nothing next (state.map (paceOwn now t)) pool) : Nothing next state pool :=
  ⟨fun place _ _ at_ => nothing.emptied place _ _ (atPaced now t at_),fun place _ _ at_ => nothing.fills place _ _ (atPaced now t at_)⟩

theorem Advanced.stepped (advanced : Advanced now horizonEndMs (paced now w (some capture)) pool next after) :
    after.state = rework (stepped now w.t next horizonEndMs (pacedBatch now horizonEndMs next w)) w.state := by
  refine advanced.state.trans ?_
  show rework (fun place _ => turned next (next - w.t) horizonEndMs (pacedBatch now horizonEndMs next w) place)
    (w.state.map (paceOwn now w.t)) = _
  rw [paceOwnRework]
  exact modifyRework (turned next (next - w.t) horizonEndMs (pacedBatch now horizonEndMs next w))

theorem Running.emptiesAt (running : Running demand classes now horizonEndMs w pool) (near : next < horizonEndMs)
    (at_ : At w.state place account window) :
    place ∈ emptiedPlaces (pacedBatch now horizonEndMs next w) ↔ (pool place).emptiedAt = next :=
  running.living.emptiedAt near (atPaced now w.t at_)

theorem Running.fillsAt (running : Running demand classes now horizonEndMs w pool) (near : next < horizonEndMs)
    (at_ : At w.state place account window) :
    place ∈ filledPlaces (pacedBatch now horizonEndMs next w) ↔ (pool place).fullAt = some next ∧ (pool place).emptiedAt ≠ next :=
  running.living.filledAt near (atPaced now w.t at_)

theorem Advanced.hears (advanced : Advanced now horizonEndMs (paced now w (some capture)) pool next after) (silent : deaths now capture = []) :
    ∃ later, after.capture = some later ∧
      Earliest (deaths now later) (if filledPlaces (pacedBatch now horizonEndMs next w) = [] then none else some next) :=
  advanced.heard capture rfl silent

section
variable (running : Running demand classes now horizonEndMs w pool)
include running

section
variable (advanced : Advanced now horizonEndMs (paced now w (some capture)) pool next after)
include advanced

theorem Running.steps (unfilled : filledPlaces (pacedBatch now horizonEndMs next w) = []) (at_ : At w.state place account window) :
    Runs now next (ownSlope account window) (stepped now w.t next horizonEndMs (pacedBatch now horizonEndMs next w) place account window)
      (renewedAt next pool place) := by
  have carries := (running.runs place account window at_).carried
  have empties := running.emptiesAt advanced.near at_
  have nothing : Nothing next w.state pool := ofPaced advanced.nothing
  rw [RunwayScenario.stepped,turned]
  simp only [unfilled]
  by_cases emptied : (pool place).emptiedAt = next
  · rw [if_pos (empties.mpr emptied),renewedAt,if_pos emptied]
    exact carries.renewed emptied
  · rw [if_neg (empties.not.mpr emptied),renewedAt,if_neg emptied]
    refine carries.burned advanced.since (lt_of_le_of_ne (nothing.emptied place account window at_) (Ne.symm emptied)) (fun x full => ?_)
    refine lt_of_le_of_ne (nothing.fills place account window at_ x full) (fun same => ?_)
    have filled := (running.fillsAt advanced.near at_).mpr ⟨same ▸ full,emptied⟩
    rw [unfilled] at filled
    cases filled

theorem Running.on (silent : deaths now capture = [])
    (unfilled : filledPlaces (pacedBatch now horizonEndMs next w) = []) :
    Running demand classes now horizonEndMs after (renewedAt next pool) := by
  have whole := advanced.stepped
  have same : SameReadings after.state w.state := whole ▸ reworkReadings steppedKeeps
  have runs : ∀ place account window, At after.state place account window →
      Runs now after.t (ownSlope account window) window (renewedAt next pool place) := by
    intro place account window at_
    rw [whole] at at_
    obtain ⟨before,source,there,rfl,slope⟩ := steppedSlope at_
    rw [slope,advanced.clock]
    exact running.steps advanced unfilled there
  have owner : ∀ account ∈ after.state, ∃ before ∈ w.state, account.onWeeklyLimitEnabled = before.onWeeklyLimitEnabled ∧
      account.unmetered = before.unmetered := by
    intro account inside
    rw [whole] at inside
    obtain ⟨i,bound,rfl⟩ := List.mem_mapIdx.mp inside
    exact ⟨_,List.getElem_mem bound,rfl,rfl⟩
  refine ⟨running.splits.same same (fun account inside => ?_),fun account inside => ?_,fun account inside => ?_,fun account inside => ?_,
    ?_,?_,runs,?_,advanced.hit.trans running.hit,?_⟩
  · rw [ScanAccount.isAlive,Bool.or_eq_true]
    refine .inr (List.all_eq_true.mpr (fun window its => ?_))
    obtain ⟨place,at_⟩ := atMember inside its
    simp [(runs place account window at_).awake]
  · obtain ⟨before,member,reading⟩ := same.member inside
    have class_ : account.demandClass = before.demandClass := congrArg (fun reading => reading.2.1) reading
    exact class_ ▸ running.covers before member
  · obtain ⟨before,member,its,-⟩ := owner account inside
    exact its.trans (running.bankless before member)
  · obtain ⟨before,member,-,its⟩ := owner account inside
    exact its.trans (running.metered before member)
  · intro empty
    rw [empty] at same
    exact running.filled (List.map_eq_nil_iff.mp same.symm)
  · exact running.live.trans (advanced.since.trans advanced.clock.ge)
  · rw [whole]
    refine running.apart.instants (fun c inside => ?_)
    obtain ⟨place,account,window,at_,rfl⟩ := memBurns.mp (memBurnsRework.mp inside)
    exact ⟨pool place,memBurns.mpr ⟨place,account,window,at_,rfl⟩,fun x => renewedInstant⟩
  · obtain ⟨later,told,earliest⟩ := advanced.hears silent
    refine ⟨later,told,?_⟩
    rw [if_pos unfilled] at earliest
    exact earliest

theorem Running.dies (silent : deaths now capture = [])
    (filled : filledPlaces (pacedBatch now horizonEndMs next w) ≠ []) : Dying now next after := by
  refine ⟨running.live.trans advanced.since,advanced.clock.ge,?_,?_⟩
  · intro account inside window its
    obtain ⟨place,at_⟩ := atMember inside its
    rw [advanced.stepped] at at_
    obtain ⟨before,source,there,rfl,-⟩ := ofRework at_
    have lag := (running.runs place before source there).carried.lag
    exact ⟨turnedKeeps.2.2.1.trans lag,turnedKeeps.2.2.2⟩
  · obtain ⟨later,told,earliest⟩ := advanced.hears silent
    rw [if_neg filled] at earliest
    exact ⟨later,told,earliest⟩

theorem Running.deadAt (at_ : At w.state place account window) :
    (stepped now w.t next horizonEndMs (pacedBatch now horizonEndMs next w) place account window).deadUntilMs ≠ none ↔
      (pool place).firstFullAt = some next := by
  have runs := running.runs place account window at_
  have least := (ofPaced advanced.nothing).emptied place account window at_
  rw [stepped,turnedDead (carriedReading.2.2.trans runs.awake),running.fillsAt advanced.near at_,Burn.firstFullNow runs.fills least]
  exact and_congr_right fun _ => ⟨fun other => lt_of_le_of_ne least (Ne.symm other),fun less => less.ne'⟩

theorem Running.deadCauses :
    deadWindows after.state = picked (fun place _ => (pool place).firstFullAt = some next) w.state := by
  rw [deadPicked,advanced.stepped]
  refine pickedRework (fun place account window => (steppedKeeps place account window).1) (fun place account window at_ => ?_)
  exact decide_eq_decide.mpr (running.deadAt advanced at_)

theorem Running.firstNow (filled : filledPlaces (pacedBatch now horizonEndMs next w) ≠ []) :
    (firstFulls horizonEndMs (burnsOf w.state pool)).min? = some next ∧
      ∃ place account window, At w.state place account window ∧ (pool place).firstFullAt = some next := by
  have nothing : Nothing next w.state pool := ofPaced advanced.nothing
  have first : ∃ place account window, At w.state place account window ∧ (pool place).firstFullAt = some next := by
    obtain ⟨place,inside⟩ := List.exists_mem_of_ne_nil _ filled
    obtain ⟨event,its,rfl⟩ := List.mem_map.mp inside
    obtain ⟨-,-,after,later,there,-⟩ := running.living.placed (List.mem_filter.mp (List.mem_filter.mp its).1).1
    rw [paceOwnRework] at there
    obtain ⟨account,window,at_⟩ := atShape there
    refine ⟨event.place,account,window,at_,?_⟩
    obtain ⟨full,other⟩ := (running.fillsAt advanced.near at_).mp inside
    exact Burn.firstFullSoon full (lt_of_le_of_ne (nothing.emptied _ _ _ at_) (Ne.symm other))
  refine ⟨?_,first⟩
  obtain ⟨place,account,window,at_,its⟩ := first
  refine List.min?_eq_some_iff.mpr ⟨memFirstFulls.mpr ⟨advanced.near,_,memBurns.mpr ⟨place,account,window,at_,rfl⟩,its⟩,fun x inside => ?_⟩
  obtain ⟨-,b,member,full⟩ := memFirstFulls.mp inside
  obtain ⟨other,_,_,there,rfl⟩ := memBurns.mp member
  exact Burn.firstFullLeast (nothing.emptied _ _ _ there) (nothing.fills _ _ _ there) (running.runs _ _ _ there).fills full

end

theorem Running.never (nothing : Nothing horizonEndMs w.state pool) :
    (firstFulls horizonEndMs (burnsOf w.state pool)).min? = none := by
  refine List.min?_eq_none_iff.mpr (List.eq_nil_iff_forall_not_mem.mpr (fun x inside => ?_))
  obtain ⟨near,b,member,full⟩ := memFirstFulls.mp inside
  obtain ⟨place,account,window,at_,rfl⟩ := memBurns.mp member
  have late := Burn.firstFullLeast (nothing.emptied _ _ _ at_) (nothing.fills _ _ _ at_) (running.runs _ _ _ at_).fills full
  exact absurd near (not_lt.mpr late)

end

def causesOf (state : List ScanAccount) (pool : Place → Burn) (T : ℚ) : List RunwayCause :=
  picked (fun place _ => (pool place).firstFullAt = some T) state

theorem Advanced.kept (advanced : Advanced now horizonEndMs (paced now w (some capture)) pool next after) :
    (firstFulls horizonEndMs (burnsOf after.state (renewedAt next pool))).min? = (firstFulls horizonEndMs (burnsOf w.state pool)).min? ∧
      causesOf after.state (renewedAt next pool) = causesOf w.state pool := by
  have nothing : Nothing next w.state pool := ofPaced advanced.nothing
  have same : ∀ place account window, At w.state place account window →
      (renewedAt next pool place).firstFullAt = (pool place).firstFullAt :=
    fun place account window at_ => renewedFirst (nothing.fills place account window at_)
  rw [advanced.stepped]
  constructor
  · refine minimumMembers (fun x => ?_)
    rw [memFirstFulls,memFirstFulls]
    refine and_congr_right fun _ => ⟨?_,?_⟩
    · rintro ⟨b,inside,first⟩
      obtain ⟨place,account,window,at_,rfl⟩ := memBurns.mp (memBurnsRework.mp inside)
      exact ⟨_,memBurns.mpr ⟨place,account,window,at_,rfl⟩,same place account window at_ ▸ first⟩
    · rintro ⟨b,inside,first⟩
      obtain ⟨place,account,window,at_,rfl⟩ := memBurns.mp inside
      exact ⟨_,memBurnsRework.mpr (memBurns.mpr ⟨place,account,window,at_,rfl⟩),(same place account window at_).trans first⟩
  · refine funext fun T => pickedRework (fun place account window => (steppedKeeps place account window).1) ?_
    exact fun place account window at_ => by rw [same place account window at_]

structure Tells (now : ℚ) (scanned : Scanned) (first : Option ℚ) (causes : ℚ → List RunwayCause) (alone : Prop) : Prop where
  earliest : Earliest (deaths now scanned.capture) first
  clear : first = none → scanned.result = .clear
  hit : alone → ∀ T, first = some T → ∃ truncated, scanned.result = .hit T (causes T) truncated

inductive Turned (demand : Demand) (classes : List String) (now horizonEndMs : ℚ) (w : Walk) (pool : Place → Burn) : Turn → Prop where
  | ends (scanned : Scanned) : scanned.result = .clear → deaths now scanned.capture = [] →
      (firstFulls horizonEndMs (burnsOf w.state pool)).min? = none → Turned demand classes now horizonEndMs w pool (.done scanned)
  | on (after : Walk) (later : Place → Burn) : Running demand classes now horizonEndMs after later →
      (firstFulls horizonEndMs (burnsOf after.state later)).min? = (firstFulls horizonEndMs (burnsOf w.state pool)).min? →
      causesOf after.state later = causesOf w.state pool → after.state.length = w.state.length →
      Turned demand classes now horizonEndMs w pool (.next after)
  | dies (after : Walk) (T : ℚ) : Dying now T after → (firstFulls horizonEndMs (burnsOf w.state pool)).min? = some T →
      after.firstHit = none →
      (w.state.length = 1 → ∃ credits, (notice after).firstHit = some ⟨T,causesOf w.state pool T,credits⟩) →
      Turned demand classes now horizonEndMs w pool (.next after)

theorem Running.out (running : Running demand classes now horizonEndMs w pool)
    (advanced : Advanced now horizonEndMs (RunwayScenario.paced now w (some capture)) pool next after)
    (filled : filledPlaces (pacedBatch now horizonEndMs next w) ≠ []) (alone : w.state.length = 1) :
    ∃ credits, (notice after).firstHit = some ⟨next,causesOf w.state pool next,credits⟩ := by
  obtain ⟨place,account,window,at_,first⟩ := (running.firstNow advanced filled).2
  obtain ⟨only,single⟩ := List.length_eq_one_iff.mp alone
  obtain ⟨dead,there,its⟩ := @atRework _ _ _ _ (stepped now w.t next horizonEndMs (pacedBatch now horizonEndMs next w)) at_
  rw [← advanced.stepped] at there
  have spent : dead.isAlive = false := by
    have metered : dead.unmetered = false := its ▸ running.metered account at_.accountIn
    rw [ScanAccount.isAlive,metered,Bool.false_or,List.all_eq_false]
    exact ⟨_,there.windowIn,by simpa using (running.deadAt advanced at_).mpr first⟩
  have all_ : after.state.all (fun account => !account.isAlive) = true := by
    have length : after.state.length = 1 := by rw [advanced.stepped,rework,List.length_mapIdx,alone]
    obtain ⟨other,whole⟩ := List.length_eq_one_iff.mp length
    have member := there.accountIn
    rw [whole] at member ⊢
    simp [← List.mem_singleton.mp member,spent]
  refine ⟨consumedSoFar after.state,?_⟩
  rw [notice,if_pos ⟨all_,advanced.hit.trans running.hit⟩,running.deadCauses advanced,advanced.clock]
  rfl

theorem Running.turned (running : Running demand classes now horizonEndMs w pool) (once : classes.Nodup) :
    ∃ result, turn proportionalShareRule demand classes now horizonEndMs 1 w = .ok result ∧
      Turned demand classes now horizonEndMs w pool result := by
  obtain ⟨before,its,none_⟩ := running.silent
  obtain ⟨captured,same,assigned⟩ : ∃ captured, SameDeaths captured w.capture ∧
      assign proportionalShareRule demand classes now 1 w = .ok (RunwayScenario.paced now w captured) :=
    running.splits.assigned once running.covers
  obtain ⟨capture,rfl,equal⟩ := same.heard its
  have silent : deaths now capture = [] := equal.trans none_
  obtain ⟨bankless,apart⟩ := running.apportioned
  rw [turnCaptured its,running.noticed,assigned]
  rcases Living.advanced (w := RunwayScenario.paced now w (some capture)) running.living bankless apart with ⟨done,nothing⟩ | ⟨next,after,walked,advanced⟩
  · refine ⟨_,congrArg Except.ok done,?_⟩
    have end_ : stopped { RunwayScenario.paced now w (some capture) with
        state := (RunwayScenario.paced now w (some capture)).state.map settleLags } .clear false =
        ⟨.clear,capture,consumedSoFar ((RunwayScenario.paced now w (some capture)).state.map settleLags)⟩ := by
      simp [stopped,finish,RunwayScenario.paced,running.hit]
    rw [end_]
    exact .ends _ rfl silent (running.never (ofPaced nothing))
  · refine ⟨_,congrArg Except.ok walked,?_⟩
    by_cases filled : filledPlaces (pacedBatch now horizonEndMs next w) = []
    · obtain ⟨first,causes⟩ := advanced.kept
      exact .on after _ (running.on advanced silent filled) first causes (by rw [advanced.stepped,rework,List.length_mapIdx])
    · exact .dies after next (running.dies advanced silent filled) (running.firstNow advanced filled).1 (advanced.hit.trans running.hit)
        (running.out advanced filled)

theorem Running.walk (running : Running demand classes now horizonEndMs w pool) (once : classes.Nodup) (left : Nat) :
    ∃ scanned, walkFrom proportionalShareRule demand classes now horizonEndMs 1 left w = .ok scanned ∧ (scanned.result ≠ .budget →
      Tells now scanned (firstFulls horizonEndMs (burnsOf w.state pool)).min? (causesOf w.state pool) (w.state.length = 1)) := by
  induction left generalizing w pool with
  | zero =>
    obtain ⟨result,done,turned⟩ := running.turned once
    rw [walkFrom,done]
    cases turned with
    | ends scanned clear silent never =>
      refine ⟨scanned,rfl,fun _ => ?_⟩
      rw [never]
      exact ⟨silent,fun _ => clear,fun _ _ => nofun⟩
    | on after later runs =>
      refine ⟨_,rfl,fun verdict => absurd ?_ verdict⟩
      simp [stopped,runs.hit,finish]
    | dies after T dying first hit =>
      refine ⟨_,rfl,fun verdict => absurd ?_ verdict⟩
      simp [stopped,hit,finish]
  | succ left ih =>
    obtain ⟨result,done,turned⟩ := running.turned once
    rw [walkFrom,done]
    cases turned with
    | ends scanned clear silent never =>
      refine ⟨scanned,rfl,fun _ => ?_⟩
      rw [never]
      exact ⟨silent,fun _ => clear,fun _ _ => nofun⟩
    | on after later runs first causes length =>
      obtain ⟨scanned,walked,tells⟩ := ih runs
      refine ⟨scanned,walked,fun verdict => ?_⟩
      rw [← first,← causes,← length]
      exact tells verdict
    | dies after T dying first hit out =>
      obtain ⟨scanned,walked,ends⟩ := @Dying.walk demand classes now T horizonEndMs 1 after dying left
      refine ⟨scanned,walked,fun verdict => ?_⟩
      rw [first]
      refine ⟨ends.earliest verdict,nofun,?_⟩
      rintro alone _ ⟨⟩
      obtain ⟨credits,found⟩ := out alone
      exact ends.hits _ found

end Clankermux.RunwayScenario
