import Clankermux.PeriodicBurn
import Clankermux.RunwayShares

/-! What a batch of events does to the windows at their places, and what the capture hears of it. -/
namespace Clankermux.RunwayScenario

variable {state : List ScanAccount} {account : ScanAccount} {window : ScanWindow} {event : ScanEvent} {events : List ScanEvent}
  {now horizonEndMs next t : ℚ} {touched : List Place} {capture : BaselineCapture}

def modifyAll (change : Place → ScanWindow → ScanWindow) (state : List ScanAccount) : List ScanAccount :=
  state.mapIdx fun i account => { account with windows := account.windows.mapIdx fun j window => change (i,j) window }

theorem modifyAllNone : modifyAll (fun _ => id) state = state := by
  refine List.ext_getElem? (fun i => ?_)
  rw [modifyAll,List.getElem?_mapIdx]
  cases state[i]? with
  | none => rfl
  | some account =>
    have windows : account.windows.mapIdx (fun j window => id window) = account.windows := by
      refine List.ext_getElem? (fun j => ?_)
      rw [List.getElem?_mapIdx]
      cases account.windows[j]? <;> rfl
    exact congrArg (fun windows => some { account with windows }) windows

theorem modifyOne {change} (place : Place) (last : ScanWindow → ScanWindow) :
    modifyWindow (modifyAll change state) place last =
      modifyAll (fun other window => if other = place then last (change other window) else change other window) state := by
  refine List.ext_getElem? (fun i => ?_)
  rw [modifyWindow,List.getElem?_modify,modifyAll,modifyAll,List.getElem?_mapIdx,List.getElem?_mapIdx]
  cases state[i]? with
  | none => simp
  | some account =>
    simp only [Option.map_eq_map,Option.map_some,Option.some.injEq]
    by_cases here : place.1 = i
    · rw [if_pos here]
      refine congrArg (fun windows => { account with windows }) (List.ext_getElem? (fun j => ?_))
      rw [List.getElem?_modify,List.getElem?_mapIdx,List.getElem?_mapIdx]
      cases account.windows[j]? with
      | none => simp
      | some window =>
        by_cases there : place.2 = j
        · have same : ((i,j) : Place) = place := Prod.ext here.symm there.symm
          simp [there,same]
        · have other : ((i,j) : Place) ≠ place := fun same => there (congrArg Prod.snd same).symm
          simp [there,other]
    · rw [if_neg here]
      refine congrArg (fun windows => { account with windows }) (List.ext_getElem? (fun j => ?_))
      have other : ((i,j) : Place) ≠ place := fun same => here (congrArg Prod.fst same).symm
      simp [other]

theorem modifyEach {change} (twice : ∀ window, change (change window) = change window) (places : List Place) :
    ∀ before, places.foldl (fun state place => modifyWindow state place change) (modifyAll before state) =
      modifyAll (fun place window => if place ∈ places then change (before place window) else before place window) state := by
  induction places with
  | nil =>
    intro before
    simp
  | cons place places ih =>
    intro before
    rw [List.foldl_cons,modifyOne,ih]
    refine congrArg (fun change => modifyAll change state) (funext fun other => funext fun window => ?_)
    by_cases here : other = place
    · simp [here,twice]
    · simp [here]

theorem modifyPlaces {change} (twice : ∀ window, change (change window) = change window) (places : List Place) :
    places.foldl (fun state place => modifyWindow state place change) state =
      modifyAll (fun place window => if place ∈ places then change window else window) state := by
  have whole := @modifyEach state change twice places (fun _ => id)
  rw [modifyAllNone] at whole
  exact whole

theorem resetTwice (atMs : ℚ) (window : ScanWindow) : resetWindow atMs (resetWindow atMs window) = resetWindow atMs window := by
  by_cases once : window.durationMs = none <;> simp [resetWindow,once]

theorem resetsApplied (resets : ∀ event ∈ events, event.atMs = next) :
    events.foldl applyReset state = modifyAll (fun place window => if place ∈ events.map (·.place) then resetWindow next window else window) state := by
  rw [← modifyPlaces (resetTwice next),List.foldl_map]
  refine List.foldl_ext _ _ _ (fun state event inside => ?_)
  rw [applyReset,resets event inside]

theorem deadTwice (horizonEndMs : ℚ) (window : ScanWindow) :
    deadWindow horizonEndMs (deadWindow horizonEndMs window) = deadWindow horizonEndMs window := rfl

def Bankless (state : List ScanAccount) : Prop := ∀ account ∈ state, account.onWeeklyLimitEnabled = false

theorem Bankless.modify (bankless : Bankless state) (place : Place) (change : ScanWindow → ScanWindow) :
    Bankless (modifyWindow state place change) := by
  intro account inside
  obtain ⟨i,its⟩ := List.mem_iff_getElem?.mp inside
  rw [modifyWindow,List.getElem?_modify] at its
  obtain ⟨before,found,same⟩ := Option.map_eq_some_iff.mp its
  have kept := bankless before (List.mem_of_getElem? found)
  split at same <;> subst same <;> exact kept

theorem exhaustPlain {place} (plain : account.onWeeklyLimitEnabled = false) :
    exhaustAccount horizonEndMs next place window account =
      { account with windows := account.windows.modify place (deadWindow horizonEndMs) } := by
  rw [exhaustAccount,if_neg (by simp [plain])]

theorem exhaustApplied (bankless : Bankless state) (capture : Option BaselineCapture) (fresh : event.place ∉ touched) :
    (applyExhaust now horizonEndMs next touched (state,capture) event).1 = modifyWindow state event.place (deadWindow horizonEndMs) := by
  rw [applyExhaust,if_neg fresh]
  cases found : state[event.account]? with
  | none =>
    refine List.ext_getElem? (fun i => ?_)
    rw [modifyWindow,List.getElem?_modify]
    by_cases here : event.place.1 = i
    · rw [show state[i]? = none from here ▸ found]
      rfl
    · simp [here]
  | some account =>
    have plain := bankless account (List.mem_of_getElem? found)
    cases there : account.windows[event.window]? with
    | none =>
      simp only [there]
      refine List.ext_getElem? (fun i => ?_)
      rw [modifyWindow,List.getElem?_modify]
      by_cases here : event.place.1 = i
      · rw [show state[i]? = some account from here ▸ found]
        have windows : account.windows.modify event.window (deadWindow horizonEndMs) = account.windows := by
          refine List.ext_getElem? (fun j => ?_)
          rw [List.getElem?_modify]
          by_cases same : event.window = j
          · rw [← same,there]
            rfl
          · simp [same]
        simp only [here]
        exact congrArg (fun windows => some { account with windows }) windows.symm
      · simp [here]
    | some window =>
      simp only [there]
      refine List.ext_getElem? (fun i => ?_)
      rw [modifyWindow,List.getElem?_modify,List.getElem?_modify]
      by_cases here : event.account = i
      · rw [← here,found]
        simp [exhaustPlain plain,ScanEvent.place]
      · simp [here,ScanEvent.place]

theorem exhaustTouched {w} (stale : event.place ∈ touched) :
    applyExhaust now horizonEndMs next touched w event = w := by
  rw [applyExhaust,if_pos stale]

theorem exhaustsApplied (bankless : Bankless state) (capture : Option BaselineCapture) :
    (events.foldl (applyExhaust now horizonEndMs next touched) (state,capture)).1 =
      modifyAll (fun place window =>
        if place ∈ (events.filter (·.place ∉ touched)).map (·.place) then deadWindow horizonEndMs window else window) state := by
  rw [← modifyPlaces (deadTwice horizonEndMs)]
  induction events generalizing state capture with
  | nil => rfl
  | cons event events ih =>
    by_cases stale : event.place ∈ touched
    · rw [List.foldl_cons,exhaustTouched stale,ih bankless]
      simp [stale]
    · have first : (applyExhaust now horizonEndMs next touched (state,capture) event).1 =
          modifyWindow state event.place (deadWindow horizonEndMs) := exhaustApplied bankless capture stale
      rw [List.foldl_cons]
      have pair : applyExhaust now horizonEndMs next touched (state,capture) event =
          (modifyWindow state event.place (deadWindow horizonEndMs),
            (applyExhaust now horizonEndMs next touched (state,capture) event).2) := Prod.ext first rfl
      rw [pair,ih (bankless.modify _ _)]
      simp [stale]

def heardAt (now : ℚ) (exhaustion : RunwayScenarioExhaustion) : ℚ := max now exhaustion.exhaustsAtMs

def deaths (now : ℚ) (capture : BaselineCapture) : List ℚ :=
  (capture.exhaustions.map fun entry => heardAt now entry.2) ++ capture.firstExhaustionAfterNow.map Prod.snd

section
variable {κ ν : Type} [DecidableEq κ] {m : InsertionMap κ ν} {entry : κ × ν} {key : κ} {value : ν} {T : ℚ}

theorem staysSet (inside : entry ∈ m) : entry ∈ InsertionMap.set m key value ∨ InsertionMap.get m key = some entry.2 := by
  induction m with
  | nil => cases inside
  | cons head rest ih =>
    obtain ⟨k,v⟩ := head
    by_cases same : k = key
    · rcases List.mem_cons.mp inside with rfl | later
      · exact .inr (by simp [InsertionMap.get,same])
      · exact .inl (by simp [InsertionMap.set,same,later])
    · rcases List.mem_cons.mp inside with rfl | later
      · exact .inl (by simp [InsertionMap.set,same])
      · rcases ih later with stays | read
        · exact .inl (by simp [InsertionMap.set,same,stays])
        · exact .inr (by simp [InsertionMap.get,same,read])

theorem toldStays (f : ν → ℚ) (spared : ∀ old, InsertionMap.get m key = some old → f old ≠ T) (told : T ∈ m.map fun entry => f entry.2) :
    T ∈ (InsertionMap.set m key value).map fun entry => f entry.2 := by
  obtain ⟨entry,inside,rfl⟩ := List.mem_map.mp told
  rcases @staysSet _ _ _ m entry key value inside with stays | read
  · exact List.mem_map.mpr ⟨entry,stays,rfl⟩
  · exact absurd rfl (spared _ read)

theorem toldLater (f : ν → ℚ) (later : T ≤ f value) (least : ∀ x ∈ m.map (fun entry => f entry.2), T ≤ x) :
    ∀ x ∈ (InsertionMap.set m key value).map fun entry => f entry.2, T ≤ x := by
  intro x inside
  obtain ⟨entry,its,rfl⟩ := List.mem_map.mp inside
  rcases InsertionMap.memSet its with rfl | old
  · exact later
  · exact least _ (List.mem_map.mpr ⟨entry,old,rfl⟩)

end

variable {T : ℚ}

def ScanEvent.told (event : ScanEvent) : ℚ := event.exhaustsAtMs.getD event.atMs

theorem recordClasses : (capture.record now account window event).firstExhaustionAfterNow =
    if event.atMs > now ∧ (InsertionMap.get capture.firstExhaustionAfterNow account.demandClass).all (event.atMs < ·)
    then InsertionMap.set capture.firstExhaustionAfterNow account.demandClass event.atMs else capture.firstExhaustionAfterNow := by
  simp only [BaselineCapture.record]
  split_ifs <;> rfl

theorem recordExhaustions : (capture.record now account window event).exhaustions =
    if window.firstCycle && (InsertionMap.get capture.exhaustions (account.accountId ++ "::" ++ window.kind)).isNone
    then InsertionMap.set capture.exhaustions (account.accountId ++ "::" ++ window.kind) ⟨account.accountId,window.kind,event.told⟩
    else capture.exhaustions := by
  simp only [BaselineCapture.record]
  split_ifs <;> rfl

theorem recordKeeps (earliest : Earliest (deaths now capture) (some T)) (after : T ≤ event.atMs) (late : T ≤ max now event.told) :
    Earliest (deaths now (capture.record now account window event)) (some T) := by
  obtain ⟨heard,least⟩ := earliest
  have leastWindows : ∀ x ∈ capture.exhaustions.map (fun entry => heardAt now entry.2), T ≤ x :=
    fun x inside => least x (List.mem_append_left _ inside)
  have leastClasses : ∀ x ∈ capture.firstExhaustionAfterNow.map Prod.snd, T ≤ x := fun x inside => least x (List.mem_append_right _ inside)
  rw [deaths,recordClasses,recordExhaustions]
  constructor
  · rcases List.mem_append.mp heard with windows | classes
    · refine List.mem_append_left _ ?_
      split
      · rename_i fresh
        obtain ⟨-,none_⟩ := Bool.and_eq_true_iff.mp fresh
        refine toldStays (heardAt now) (fun old read => ?_) windows
        rw [read] at none_
        cases none_
      · exact windows
    · refine List.mem_append_right _ ?_
      split
      · rename_i sooner
        refine toldStays id (fun old read same => ?_) classes
        have less := sooner.2
        rw [read] at less
        exact absurd (of_decide_eq_true less) (not_lt.mpr ((id same : old = T) ▸ after))
      · exact classes
  · intro x inside
    rcases List.mem_append.mp inside with windows | classes
    · split at windows
      · refine toldLater (heardAt now) ?_ leastWindows x windows
        exact late
      · exact leastWindows x windows
    · split at classes
      · exact toldLater id after leastClasses x classes
      · exact leastClasses x classes

theorem recordFirst (silent : deaths now capture = [])
    (first : event.atMs > now ∧ event.told = event.atMs ∨ event.atMs = now ∧ event.told ≤ now ∧ window.firstCycle = true) :
    Earliest (deaths now (capture.record now account window event)) (some event.atMs) := by
  obtain ⟨windows,classes⟩ := List.append_eq_nil_iff.mp silent
  have noWindows := List.map_eq_nil_iff.mp windows
  have noClasses := List.map_eq_nil_iff.mp classes
  have told : max now event.told = event.atMs := by
    rcases first with ⟨ahead,same⟩ | ⟨here,before,-⟩
    · rw [same,max_eq_right ahead.le]
    · rw [here,max_eq_left before]
  rw [deaths,recordClasses,recordExhaustions,noWindows,noClasses]
  rcases first with ⟨ahead,-⟩ | ⟨here,-,cycle⟩
  · cases cycle : window.firstCycle <;> simp [Earliest,InsertionMap.set,heardAt,ahead,told]
  · simp [Earliest,InsertionMap.set,heardAt,told,cycle]

variable {w : List ScanAccount × Option BaselineCapture}

def NotBefore (now T : ℚ) (events : List ScanEvent) : Prop := ∀ event ∈ events, T ≤ event.atMs ∧ T ≤ max now event.told

theorem exhaustKeeps (horizonEndMs next : ℚ) (touched : List Place) (its : w.2 = some capture) (earliest : Earliest (deaths now capture) (some T))
    (after : T ≤ event.atMs) (late : T ≤ max now event.told) : ∃ later, (applyExhaust now horizonEndMs next touched w event).2 = some later ∧
      Earliest (deaths now later) (some T) := by
  rw [applyExhaust]
  split
  · exact ⟨capture,its,earliest⟩
  · split
    · exact ⟨capture,its,earliest⟩
    · split
      · exact ⟨capture,its,earliest⟩
      · exact ⟨_,by rw [its]; rfl,recordKeeps earliest after late⟩

theorem exhaustsKeep (its : w.2 = some capture) (earliest : Earliest (deaths now capture) (some T)) (later : NotBefore now T events) :
    ∃ after, (events.foldl (applyExhaust now horizonEndMs next touched) w).2 = some after ∧ Earliest (deaths now after) (some T) := by
  induction events generalizing w capture with
  | nil => exact ⟨capture,its,earliest⟩
  | cons event events ih =>
    obtain ⟨first,told,kept⟩ := exhaustKeeps horizonEndMs next touched its earliest
      (later event (.head _)).1 (later event (.head _)).2
    exact ih told kept (fun other inside => later other (.tail _ inside))

theorem exhaustsFresh (w : List ScanAccount × Option BaselineCapture) :
    events.foldl (applyExhaust now horizonEndMs next touched) w =
      (events.filter (·.place ∉ touched)).foldl (applyExhaust now horizonEndMs next touched) w := by
  induction events generalizing w with
  | nil => rfl
  | cons event events ih =>
    by_cases stale : event.place ∈ touched
    · rw [List.foldl_cons,exhaustTouched stale,ih]
      simp [stale]
    · rw [List.foldl_cons,ih,List.filter_cons_of_pos (by simpa using stale),List.foldl_cons]

def Sounds (now : ℚ) (event : ScanEvent) (window : ScanWindow) : Prop :=
  event.atMs > now ∧ event.told = event.atMs ∨ event.atMs = now ∧ event.told ≤ now ∧ window.firstCycle = true

theorem Sounds.told (sounds : Sounds now event window) : max now event.told = event.atMs := by
  rcases sounds with ⟨ahead,same⟩ | ⟨here,before,-⟩
  · rw [same,max_eq_right ahead.le]
  · rw [here,max_eq_left before]

theorem exhaustsFirst (its : w.2 = some capture) (silent : deaths now capture = []) (together : ∀ event ∈ events, event.atMs = T)
    (sounds : ∀ event ∈ events, event.place ∉ touched → ∃ account window, w.1[event.account]? = some account ∧
      account.windows[event.window]? = some window ∧ Sounds now event window) :
    ∃ after, (events.foldl (applyExhaust now horizonEndMs next touched) w).2 = some after ∧
      Earliest (deaths now after) (if events.filter (·.place ∉ touched) = [] then none else some T) := by
  rw [exhaustsFresh]
  cases fresh : events.filter (·.place ∉ touched) with
  | nil => exact ⟨capture,its,silent⟩
  | cons event rest =>
    have members : ∀ other, other ∈ event::rest → other ∈ events ∧ other.place ∉ touched := by
      intro other inside
      rw [← fresh] at inside
      simpa using List.mem_filter.mp inside
    obtain ⟨inside,untouched⟩ := members event (.head _)
    obtain ⟨account,window,owner,place,sound⟩ := sounds event inside untouched
    have first : (applyExhaust now horizonEndMs next touched w event).2 = some (capture.record now account window event) := by
      simp [applyExhaust,untouched,owner,place,its]
    have earliest : Earliest (deaths now (capture.record now account window event)) (some event.atMs) := recordFirst silent sound
    rw [together event inside] at earliest
    rw [if_neg (by simp),List.foldl_cons]
    refine exhaustsKeep first earliest (fun other later => ?_)
    obtain ⟨member,free⟩ := members other (.tail _ later)
    obtain ⟨_,_,-,-,heard⟩ := sounds other member free
    exact ⟨(together other member).ge,(heard.told.trans (together other member)).ge⟩

end Clankermux.RunwayScenario
