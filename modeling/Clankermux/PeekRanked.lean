import Clankermux.SelectServes

/-! The preview the dashboard shows, and the strategy by least use. A preview tests what a
selection will have unpaused, and changes nothing. -/
namespace Clankermux.LoadBalancer
open InsertionMap

def wouldAutoUnpause (account : Account) (now : Int) : Bool :=
  isAutoUnpauseCandidate account now && isSelfHealingPauseReason account.pauseReason

def isPeekAvailable (account : Account) (now : Int) : Bool :=
  if isAccountAvailable account now then true
  else if !wouldAutoUnpause account now then false
  else (present account.rateLimitedUntil).all (· < now)

def peekRanked (cfg : Config) (s : SessionStrategy) (accounts : List Account) (now : Int) : List Account :=
  (accounts.filter (isPeekAvailable · now)).insertionSort (fun a b => sortsBefore cfg s now a b = true)

namespace LeastUsed

def recentPickWindowMs : Int := 500

def recentPickPenalty : Figure := .of 100

structure LeastUsedStrategy where
  lastPickedAt : InsertionMap String Int

/-- A selection's routing is `least_used`, or unset where no account is available. -/
structure Selection where
  strategy : LeastUsedStrategy
  routing : Option Routing
  accounts : List Account

variable (store : Option Store) (l : LeastUsedStrategy) (accounts : List Account) (now : Int)

def score (account : Account) : Figure :=
  let util := (store.bind (·.getAccountUtilization account.id account.provider now)).getD 0
  let lastPick := (get l.lastPickedAt account.id).getD 0
  util + if now - lastPick < recentPickWindowMs then recentPickPenalty else .of 0

-- the difference of two equal infinities is NaN, which a sort takes for no difference
def sortsBefore (a b : Account) : Bool :=
  if a.priority ≠ b.priority then a.priority < b.priority else score store l now a ≤ score store l now b

def ranked : List Account := accounts.insertionSort (fun a b => sortsBefore store l now a b = true)

def peekRanked : List Account := ranked store l (accounts.filter (isPeekAvailable · now)) now

def autoUnpauseElapsedAccounts : List Account :=
  if store.any (·.resumeAccount) then
    accounts.map (fun account => if wouldAutoUnpause account now then { account with paused := false } else account)
  else accounts

def select : Selection :=
  let available := (autoUnpauseElapsedAccounts store accounts now).filter (isAccountAvailable · now)
  match ranked store l available now with
  | [] => ⟨l,none,[]⟩
  | primary::rest =>
    let gcThreshold := now - recentPickWindowMs * 10
    let picked := set l.lastPickedAt primary.id now
    { strategy := ⟨picked.filter (fun entry => ¬ entry.2 < gcThreshold)⟩
      routing := some ⟨"least-used","least_used",none,none,some primary.id,none,rest.length + 1,none⟩
      accounts := primary::rest }

end LeastUsed

section Agree
variable {cfg : Config} {s : SessionStrategy} {accounts : List Account} {request : RequestMeta} {now clock : Int}
  {account a b : Account} {store : Option Store} {l : LeastUsed.LeastUsedStrategy}

def unpaused (now : Int) (account : Account) : Account :=
  if wouldAutoUnpause account now then { account with paused := false } else account

theorem unpausedFields (now : Int) (account : Account) : ∃ paused, unpaused now account = { account with paused := paused } := by
  unfold unpaused
  split
  · exact ⟨false,rfl⟩
  · exact ⟨account.paused,rfl⟩

theorem unpausedAvailable : isAccountAvailable (unpaused now account) now = isPeekAvailable account now := by
  unfold unpaused isPeekAvailable
  cases would : wouldAutoUnpause account now with
  | true =>
    have candidate : isAutoUnpauseCandidate account now = true := by
      rw [wouldAutoUnpause,Bool.and_eq_true] at would
      exact would.1
    simp only [isAutoUnpauseCandidate,Bool.and_eq_true] at candidate
    simp [isAccountAvailable,candidate.1.1.1.1.1]
  | false =>
    simp only [Bool.false_eq_true,if_false]
    cases isAccountAvailable account now with
    | true => rfl
    | false => rfl

theorem filterUnpaused : (accounts.map (unpaused now)).filter (isAccountAvailable · now) =
    (accounts.filter (isPeekAvailable · now)).map (unpaused now) := by
  have same : (fun account => isAccountAvailable account now) ∘ unpaused now = fun account => isPeekAvailable account now :=
    funext (fun _ => unpausedAvailable)
  rw [List.filter_map,same]

theorem autoUnpauseMap (resumes : cfg.store.any (·.resumeAccount) = true) :
    autoUnpause cfg accounts now = accounts.map (unpaused now) := by
  refine List.map_congr_left (fun account _ => ?_)
  simp only [resumes,Bool.and_true]
  rfl

theorem sortsBeforeUnpaused : sortsBefore cfg s now (unpaused now a) (unpaused now b) = sortsBefore cfg s now a b := by
  obtain ⟨first,its⟩ := unpausedFields now a
  obtain ⟨second,other⟩ := unpausedFields now b
  rw [its,other]
  rfl

theorem sortedUnpaused : sortAvailableAccounts cfg s (accounts.map (unpaused now)) now =
    (peekRanked cfg s accounts now).map (unpaused now) := by
  rw [sortAvailableAccounts,filterUnpaused,peekRanked]
  exact (List.map_insertionSort (r := fun a b => sortsBefore cfg s now a b = true)
    (s := fun a b => sortsBefore cfg s now a b = true) (unpaused now) _ (fun a _ b _ => by rw [sortsBeforeUnpaused])).symm

theorem prunedAbsent (cfg : Config) (now : Int) {key} (absent : get s.affinityByKey key = none) :
    get (pruneAffinity cfg s now).affinityByKey key = none := by
  cases found : get (pruneAffinity cfg s now).affinityByKey key with
  | none => rfl
  | some entry =>
    have inside : (key,entry) ∈ s.affinityByKey :=
      (RecencyMap.cappedSublist.trans RecencyMap.sweepSuffix.sublist).subset (memOfGet found)
    obtain ⟨value,its⟩ := getOfMemKeys (List.mem_map.mpr ⟨_,inside,rfl⟩)
    rw [absent] at its
    cases its

structure Unpinned (cfg : Config) (s : SessionStrategy) (request : RequestMeta) : Prop where
  tracked : bypassesSession request = false
  keyed : (getAffinityKey request).isSome = true
  pin : ∀ mapKeys, getAffinityMapKeys cfg request = some mapKeys → get s.affinityByKey mapKeys.pin = none
  anchor : ∀ mapKeys anchor, getAffinityMapKeys cfg request = some mapKeys → mapKeys.anchor = some anchor →
    get s.affinityByKey anchor = none

theorem Unpinned.sticksNowhere (unpinned : Unpinned cfg s request) : stickyAccount cfg s accounts request now = none := by
  unfold stickyAccount
  simp only [unpinned.tracked,unpinned.keyed]
  cases keys : getAffinityMapKeys cfg request with
  | none => rfl
  | some mapKeys =>
    have pruned := prunedAbsent cfg now (unpinned.pin mapKeys keys)
    simp only [Option.map_some,resolveAffinity,pruned,Option.bind_some]
    cases its : mapKeys.anchor with
    | none => rfl
    | some anchor =>
      have absent := prunedAbsent cfg now (unpinned.anchor mapKeys anchor keys its)
      simp [resolveAnchor,absent]

theorem LeastUsed.rankedUnpaused : ranked store l (accounts.map (unpaused now)) now = (ranked store l accounts now).map (unpaused now) := by
  refine (List.map_insertionSort (r := fun a b => sortsBefore store l now a b = true)
    (s := fun a b => sortsBefore store l now a b = true) (unpaused now) _ (fun a _ b _ => ?_)).symm
  obtain ⟨first,its⟩ := unpausedFields now a
  obtain ⟨second,other⟩ := unpausedFields now b
  rw [its,other]
  rfl

end Agree

structure PreviewAgrees (cfg : Config) (accounts : List Account) (now clock : Int) : Prop where
  session : ∀ s request, Unpinned cfg s request → (accounts.map (·.id)).Nodup →
    (select cfg s accounts request now clock).accounts.map (·.id) = (peekRanked cfg s accounts now).map (·.id) ∧
    (select cfg s accounts request now clock).accounts =
      match (peekRanked cfg s accounts now).map (unpaused now) with
      | [] => []
      | first::rest => resetSessionIfExpired cfg first clock::rest
  leastUsed : ∀ l, (LeastUsed.select cfg.store l accounts now).accounts =
    (LeastUsed.peekRanked cfg.store l accounts now).map (unpaused now)

theorem previewAgrees (cfg : Config) (accounts : List Account) (now clock : Int) (resumes : cfg.store.any (·.resumeAccount) = true) :
    PreviewAgrees cfg accounts now clock := by
  constructor
  · intro s request unpinned unique
    have offered : ((autoUnpause cfg accounts now).map (·.id)).Nodup := by rwa [unpausedIds]
    have fresh : ∀ account, started cfg request clock account = resetSessionIfExpired cfg account clock := by
      intro account
      simp only [started,unpinned.tracked,Bool.false_eq_true,if_false]
    have accounts_ : (select cfg s accounts request now clock).accounts =
        match (peekRanked cfg s accounts now).map (unpaused now) with
        | [] => []
        | first::rest => resetSessionIfExpired cfg first clock::rest := by
      rw [(selectServes cfg s accounts request now clock).accounts,servedPicked offered unpinned.sticksNowhere,
        autoUnpauseMap resumes,sortedUnpaused]
      cases (peekRanked cfg s accounts now).map (unpaused now) with
      | nil => rfl
      | cons first rest => exact congrArg (·::rest) (fresh first)
    refine ⟨?_,accounts_⟩
    have ids : ((peekRanked cfg s accounts now).map (unpaused now)).map (·.id) = (peekRanked cfg s accounts now).map (·.id) := by
      rw [List.map_map]
      refine List.map_congr_left (fun account _ => ?_)
      obtain ⟨paused,its⟩ := unpausedFields now account
      simp only [Function.comp,its]
    rw [accounts_,← ids]
    cases (peekRanked cfg s accounts now).map (unpaused now) with
    | nil => rfl
    | cons first rest => simp only [List.map_cons,resetId]
  · intro l
    have elapsed : LeastUsed.autoUnpauseElapsedAccounts cfg.store accounts now = accounts.map (unpaused now) := by
      rw [LeastUsed.autoUnpauseElapsedAccounts,if_pos resumes]
      rfl
    rw [LeastUsed.select,elapsed,filterUnpaused,LeastUsed.rankedUnpaused,LeastUsed.peekRanked]
    split
    · rename_i none_
      rw [none_]
    · rename_i some_
      rw [some_]

def resuming : Config := { fiveHours with store := some ⟨fun _ _ _ => none,fun id _ _ => if id = "b" then some 40 else none,true⟩ }

def recovered : Account := { accountOf "a" 0 none with
  paused := true
  pauseReason := some "overage"
  autoFallbackEnabled := true
  rateLimitReset := some 5000 }

theorem previewAgreesRecovered :
    (peekRanked resuming .start [accountOf "b" 0 none,recovered] 9000).map (·.id) = ["a","b"] ∧
    (select resuming .start [accountOf "b" 0 none,recovered] (requestOn "alpha" none) 9000 9000).accounts.map (·.id) =
      (peekRanked resuming .start [accountOf "b" 0 none,recovered] 9000).map (·.id) := by
  have unpinned : Unpinned resuming .start (requestOn "alpha" none) :=
    ⟨by decide +kernel,by decide +kernel,fun _ _ => rfl,fun _ _ _ _ => rfl⟩
  have agrees := previewAgrees resuming [accountOf "b" 0 none,recovered] 9000 9000 rfl
  exact ⟨by decide +kernel,(agrees.session .start (requestOn "alpha" none) unpinned (by decide)).1⟩

end Clankermux.LoadBalancer
