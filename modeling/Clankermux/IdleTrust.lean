import Clankermux.Machine

/-! The trust in the last poll of an account that has not been used since. With every fetch and every reading it is kept
whether a use of the quota was in flight at any moment since its request was sent. -/
namespace Clankermux.IdleTrust

def USAGE_CACHE_TTL_MS : Int := 10 * 60 * 1000

structure PollingPolicy where
  demandAware : Bool

structure UsageCacheEntry where
  timestamp : Int
  observedAtMs : Option Int
  restored : Bool
  used : Bool

structure Fetch where
  generation : Nat
  tokenProvider : Nat
  fence : Nat
  landed : Bool
  used : Bool

structure UsageCache where
  clock : Int
  tokenProvider : Option Nat
  pollGeneration : Option Nat
  pollingPolicy : Option PollingPolicy
  fence : Nat
  lastActivityAt : Option Int
  resolvedLastActivityAt : Option Int
  lastQuotaUseAt : Option Int
  quotaUseInFlight : List Nat
  tokens : Nat
  fetches : List Fetch
  entry : Option UsageCacheEntry

namespace UsageCache
variable (s : UsageCache)

def start (clock : Int) : UsageCache := ⟨clock,none,none,none,0,none,none,none,[],0,[],none⟩

def noteQuotaUseAt (at_ : Int) : UsageCache :=
  if s.lastQuotaUseAt.all (at_ > ·) then { s with lastQuotaUseAt := some at_ } else s

def markUsed : UsageCache :=
  { s with fetches := s.fetches.map (fun fetch => { fetch with used := true }), entry := s.entry.map (fun entry => { entry with used := true }) }

def beginQuotaUse : UsageCache :=
  ({ s with quotaUseInFlight := s.quotaUseInFlight ++ [s.tokens], tokens := s.tokens + 1 }.noteQuotaUseAt s.clock).markUsed

/-- The function that `beginQuotaUse` returned; only its first call counts. -/
def endQuotaUse (token : Nat) : UsageCache :=
  if token ∈ s.quotaUseInFlight then { s with quotaUseInFlight := s.quotaUseInFlight.erase token }.noteQuotaUseAt s.clock else s

def noteActivity (now : Int) : UsageCache :=
  if s.pollingPolicy.any (·.demandAware) && s.tokenProvider.isSome then { s with lastActivityAt := some now } else s

def armAfterResolve (generation tokenProvider : Nat) (resolved : Option Int) : UsageCache :=
  if s.pollGeneration = some generation ∧ s.tokenProvider = some tokenProvider then
    match resolved with
    | none => s
    | some resolved => { s with resolvedLastActivityAt := some resolved }
  else s

def startPolling (tokenProvider : Nat) (policy : Option PollingPolicy) : UsageCache :=
  { s with pollGeneration := some (s.pollGeneration.getD 0 + 1), tokenProvider := some tokenProvider, pollingPolicy := policy
           lastActivityAt := none, resolvedLastActivityAt := none }

def stopPolling : UsageCache :=
  if s.tokenProvider.isSome then
    { s with tokenProvider := none, pollGeneration := none, pollingPolicy := none, fence := 0, lastActivityAt := none
             resolvedLastActivityAt := none, entry := none }
  else s

def fenceFetches : UsageCache := if s.tokenProvider.isSome then { s with fence := s.fence + 1 } else s

def sendFetch (generation tokenProvider fence : Nat) : UsageCache :=
  { s with fetches := s.fetches ++ [⟨generation,tokenProvider,fence,false,decide (s.quotaUseInFlight ≠ [])⟩] }

def isCurrent (fetch : Fetch) : Bool :=
  s.pollGeneration = some fetch.generation && s.tokenProvider = some fetch.tokenProvider && s.fence = fetch.fence

def land (i : Nat) (fetch : Fetch) : UsageCache := { s with fetches := s.fetches.set i { fetch with landed := true } }

def writeFetchedEntry (fetch : Fetch) : UsageCache :=
  if s.isCurrent fetch then { s with entry := some ⟨s.clock,some s.clock,false,fetch.used⟩ } else s

def restoreReading (readingObservedAt : Int) : UsageCache :=
  if readingObservedAt ≤ s.clock ∧ s.entry.isNone then { s with entry := some ⟨readingObservedAt,some readingObservedAt,true,false⟩ } else s

def evict : UsageCache := if s.entry.any (s.clock - ·.timestamp > USAGE_CACHE_TTL_MS) then { s with entry := none } else s

def pollFreshAtMs (entry : UsageCacheEntry) (now : Int) : Int :=
  if !s.pollingPolicy.any (·.demandAware) then entry.timestamp
  else if now - entry.timestamp > USAGE_CACHE_TTL_MS then entry.timestamp
  else if entry.restored then entry.timestamp
  else if s.quotaUseInFlight ≠ [] then entry.timestamp
  else
    let known := [s.lastActivityAt,s.lastQuotaUseAt,s.resolvedLastActivityAt].filterMap id
    let observedAt := entry.observedAtMs.getD entry.timestamp
    match known.max? with
    | none => entry.timestamp
    | some latest => if latest ≤ observedAt then max now entry.timestamp else entry.timestamp

end UsageCache

inductive Event where
  | pass (elapsed : Nat)
  | beginUse
  | endUse (token : Nat)
  | noteActivity (now : Int)
  | resolved (generation tokenProvider : Nat) (resolved : Option Int)
  | startPolling (tokenProvider : Nat) (policy : Option PollingPolicy)
  | stopPolling
  | fence
  | send (generation tokenProvider fence : Nat)
  | answer (fetch : Nat) (success : Bool)
  | restore (readingObservedAt : Int)
  | evict

def step (s : UsageCache) : Event → Option UsageCache
  | .pass elapsed => some { s with clock := s.clock + elapsed }
  | .beginUse => some s.beginQuotaUse
  | .endUse token => some (s.endQuotaUse token)
  | .noteActivity now => some (s.noteActivity now)
  | .resolved generation tokenProvider resolved => some (s.armAfterResolve generation tokenProvider resolved)
  | .startPolling tokenProvider policy => some (s.startPolling tokenProvider policy)
  | .stopPolling => some s.stopPolling
  | .fence => some s.fenceFetches
  | .send generation tokenProvider fence => some (s.sendFetch generation tokenProvider fence)
  | .answer i success =>
    match s.fetches[i]? with
    | none => none
    | some fetch =>
      if fetch.landed then none
      else if success then some ((s.land i fetch).writeFetchedEntry fetch) else some (s.land i fetch)
  | .restore readingObservedAt => some (s.restoreReading readingObservedAt)
  | .evict => some s.evict

def machine : Machine UsageCache Event where
  init s := ∃ clock, s = .start clock
  step := step

variable {s t : UsageCache} {entry : UsageCacheEntry} {now : Int}

def Vouched (s : UsageCache) (entry : UsageCacheEntry) (now : Int) : Prop := entry.timestamp < s.pollFreshAtMs entry now

theorem vouchedCases (vouched : Vouched s entry now) : now - entry.timestamp ≤ USAGE_CACHE_TTL_MS ∧ entry.restored = false ∧
    s.quotaUseInFlight = [] ∧ ∀ used, s.lastQuotaUseAt = some used → used ≤ entry.observedAtMs.getD entry.timestamp := by
  unfold Vouched UsageCache.pollFreshAtMs at vouched
  split at vouched
  · exact absurd vouched (Int.lt_irrefl _)
  · split at vouched
    · exact absurd vouched (Int.lt_irrefl _)
    · rename_i young
      split at vouched
      · exact absurd vouched (Int.lt_irrefl _)
      · rename_i own
        split at vouched
        · exact absurd vouched (Int.lt_irrefl _)
        · rename_i calm
          refine ⟨Int.not_lt.mp young,by simpa using own,by simpa using calm,fun used noted => ?_⟩
          dsimp only at vouched
          split at vouched
          · exact absurd vouched (Int.lt_irrefl _)
          · rename_i latest most
            split at vouched
            · rename_i before
              have least := (List.max?_eq_some_iff.mp most).2 used (List.mem_filterMap.mpr ⟨some used,by simp [noted],rfl⟩)
              exact Int.le_trans least before
            · exact absurd vouched (Int.lt_irrefl _)

structure Trusted (s : UsageCache) : Prop where
  voided : ∀ entry, s.entry = some entry → entry.restored = false → entry.used = true →
    s.quotaUseInFlight ≠ [] ∨ ∃ used, s.lastQuotaUseAt = some used ∧ entry.observedAtMs.getD entry.timestamp < used

def Apart (s : UsageCache) : Event → Prop
  | .answer i true => ∀ fetch, s.fetches[i]? = some fetch → s.isCurrent fetch = true → fetch.used = true → s.quotaUseInFlight ≠ []
  | .endUse token => s.quotaUseInFlight = [token] → ∀ entry, s.entry = some entry → entry.observedAtMs.getD entry.timestamp < s.clock
  | _ => True

theorem noteUse (s : UsageCache) (at_ : Int) : ∃ used, (s.noteQuotaUseAt at_).lastQuotaUseAt = some used ∧ at_ ≤ used ∧
    ∀ before, s.lastQuotaUseAt = some before → before ≤ used := by
  unfold UsageCache.noteQuotaUseAt
  cases noted : s.lastQuotaUseAt with
  | none => exact ⟨at_,by simp,Int.le_refl _,fun before none_ => absurd none_ (by simp)⟩
  | some last =>
    by_cases later : last < at_
    · exact ⟨at_,by simp [later],Int.le_refl _,fun before same => by cases same; omega⟩
    · exact ⟨last,by simp [later,noted],by omega,fun before same => by cases same; omega⟩

theorem noteSame (s : UsageCache) (at_ : Int) : (s.noteQuotaUseAt at_).entry = s.entry ∧
    (s.noteQuotaUseAt at_).quotaUseInFlight = s.quotaUseInFlight := by
  unfold UsageCache.noteQuotaUseAt
  split <;> exact ⟨rfl,rfl⟩

namespace Trusted

theorem aside (fit : Trusted s) (entry : t.entry = s.entry ∨ t.entry = none) (flights : t.quotaUseInFlight = s.quotaUseInFlight)
    (noted : t.lastQuotaUseAt = s.lastQuotaUseAt) : Trusted t := by
  constructor
  rw [flights,noted]
  rcases entry with same | gone
  · rw [same]
    exact fit.voided
  · intro entry here
    rw [gone] at here
    cases here

theorem beginUse (s : UsageCache) : Trusted s.beginQuotaUse := by
  constructor
  intro entry _ _ _
  refine .inl ?_
  unfold UsageCache.beginQuotaUse UsageCache.markUsed
  rw [(noteSame _ _).2]
  simp

theorem endUse (fit : Trusted s) (token : Nat) (apart : Apart s (.endUse token)) : Trusted (s.endQuotaUse token) := by
  unfold UsageCache.endQuotaUse
  split
  · rename_i out
    constructor
    intro entry here own used
    obtain ⟨last,noted,least,before⟩ := noteUse { s with quotaUseInFlight := s.quotaUseInFlight.erase token } s.clock
    rw [(noteSame _ _).1] at here
    rw [(noteSame _ _).2]
    by_cases alone : s.quotaUseInFlight = [token]
    · exact .inr ⟨last,noted,Int.lt_of_lt_of_le (apart alone entry here) least⟩
    · refine .inl (fun none_ => alone ?_)
      rw [List.erase_eq_nil_iff] at none_
      rcases none_ with none_ | one
      · rw [none_] at out
        cases out
      · exact one
  · exact fit

theorem write (fit : Trusted s) {fetch} (apart : s.isCurrent fetch = true → fetch.used = true → s.quotaUseInFlight ≠ []) :
    Trusted (s.writeFetchedEntry fetch) := by
  unfold UsageCache.writeFetchedEntry
  split
  · rename_i current
    constructor
    rintro entry ⟨⟩ _ used
    exact .inl (apart current used)
  · exact fit

theorem next {e} (fit : Trusted s) (apart : Apart s e) (went : step s e = some t) : Trusted t := by
  cases e with
  | pass elapsed => cases went; exact fit.aside (.inl rfl) rfl rfl
  | beginUse => cases went; exact beginUse s
  | endUse token => cases went; exact fit.endUse token apart
  | noteActivity now =>
    cases went
    unfold UsageCache.noteActivity
    split <;> exact fit.aside (.inl rfl) rfl rfl
  | resolved generation tokenProvider resolved =>
    cases went
    unfold UsageCache.armAfterResolve
    split
    · split <;> exact fit.aside (.inl rfl) rfl rfl
    · exact fit
  | startPolling tokenProvider policy => cases went; exact fit.aside (.inl rfl) rfl rfl
  | stopPolling =>
    cases went
    unfold UsageCache.stopPolling
    split
    · exact fit.aside (.inr rfl) rfl rfl
    · exact fit
  | fence =>
    cases went
    unfold UsageCache.fenceFetches
    split <;> exact fit.aside (.inl rfl) rfl rfl
  | send generation tokenProvider fence => cases went; exact fit.aside (.inl rfl) rfl rfl
  | answer i success =>
    unfold step at went
    cases found : s.fetches[i]? with
    | none => simp [found] at went
    | some fetch =>
      simp only [found,Option.ite_none_left_eq_some] at went
      have landed : Trusted (s.land i fetch) := fit.aside (.inl rfl) rfl rfl
      cases success with
      | false =>
        obtain ⟨_,same⟩ := went
        cases same
        exact landed
      | true =>
        obtain ⟨_,same⟩ := went
        cases same
        exact landed.write (fun current used => apart fetch found current used)
  | restore readingObservedAt =>
    cases went
    unfold UsageCache.restoreReading
    split
    · constructor
      rintro entry ⟨⟩ own
      cases own
    · exact fit
  | evict =>
    cases went
    unfold UsageCache.evict
    split
    · exact fit.aside (.inr rfl) rfl rfl
    · exact fit

end Trusted

theorem vouchedUnused (reach : machine.ReachableUnder Apart s) (here : s.entry = some entry) (vouched : Vouched s entry now) :
    now - entry.timestamp ≤ USAGE_CACHE_TTL_MS ∧ entry.restored = false ∧ entry.used = false := by
  have fit : Trusted s := by
    refine reach.invariant ?_ (fun s e t fit apart went => fit.next apart went)
    rintro s ⟨clock,rfl⟩
    exact ⟨fun entry here => absurd here (by simp [UsageCache.start])⟩
  obtain ⟨young,own,calm,before⟩ := vouchedCases vouched
  refine ⟨young,own,?_⟩
  by_contra used
  rcases fit.voided entry here own (by simpa using used) with out | ⟨last,noted,later⟩
  · exact out calm
  · have := before last noted
    omega

def spannedRun : List Event := [.startPolling 0 (some ⟨true⟩),.send 1 0 0,.pass 5,.beginUse,.pass 10,.endUse 0,.pass 5,.answer 0 true,.pass 60000]

def calmPolled : UsageCache :=
  ⟨60025,some 0,some 1,some ⟨true⟩,0,none,none,some 0,[],1,[⟨1,0,0,true,false⟩],some ⟨25,some 25,false,false⟩⟩

theorem calmReached : machine.ReachableUnder Apart calmPolled := by
  refine ⟨.start 0,⟨0,rfl⟩,?_⟩
  refine .next (e := .pass 60000) (.next (e := .answer 0 true) (.next (e := .pass 20) (.next (e := .send 1 0 0) (.next (e := .pass 5)
    (.next (e := .startPolling 0 (some ⟨true⟩)) (.next (e := .endUse 0) (.next (e := .beginUse) .refl ?_ rfl) ?_ rfl) ?_ rfl)
    ?_ rfl) ?_ rfl) ?_ rfl) ?_ rfl) ?_ rfl
  · trivial
  · intro _ entry here
    cases here
  · trivial
  · trivial
  · trivial
  · trivial
  · rintro fetch ⟨⟩ _ used
    cases used
  · trivial

theorem calmVouched : Vouched calmPolled ⟨25,some 25,false,false⟩ 60025 ∧ (60025 : Int) - 25 ≤ USAGE_CACHE_TTL_MS := by
  have vouched : Vouched calmPolled ⟨25,some 25,false,false⟩ 60025 := by
    unfold Vouched
    decide
  exact ⟨vouched,(vouchedUnused calmReached rfl vouched).1⟩

def spannedPolled : UsageCache :=
  ⟨60020,some 0,some 1,some ⟨true⟩,0,none,none,some 15,[],1,[⟨1,0,0,true,true⟩],some ⟨20,some 20,false,true⟩⟩

theorem spannedVouched : ¬ ∀ s entry, machine.Reachable s → s.entry = some entry → Vouched s entry s.clock → entry.used = false := by
  intro all
  have reach : machine.Reachable spannedPolled := Machine.runReachable (s := .start 0) spannedRun ⟨0,rfl⟩ rfl
  have vouched : Vouched spannedPolled ⟨20,some 20,false,true⟩ 60020 := by
    unfold Vouched
    decide
  exact absurd (all spannedPolled ⟨20,some 20,false,true⟩ reach rfl vouched) (by decide)

end Clankermux.IdleTrust
