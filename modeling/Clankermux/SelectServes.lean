import Clankermux.AffinityStability
import Clankermux.FefoOrder

/-! What a selection serves, on each of its paths: the account the request sticks to before the
others in order, or the accounts in order, the first of them with its session reset. -/
namespace Clankermux.LoadBalancer
open InsertionMap

section Serve
variable (cfg : Config) (s : SessionStrategy) (accounts : List Account) (request : RequestMeta) (now clock : Int)

def sessionAccount : Option Account := (activeAccount cfg accounts now).filter (isAccountAvailable · now)

def stickyAccount : Option Account :=
  if bypassesSession request then sessionAccount cfg accounts now
  else
    let mapKeys := getAffinityMapKeys cfg request
    let (s,resolution) := resolveAffinity cfg s accounts (mapKeys.map (·.pin)) now
    match resolution with
    | .hit account => some account
    | .hold _ => none
    | .reassign _ => none
    | .miss => ((mapKeys.bind (·.anchor)).bind (fun anchor => resolveAnchor s accounts anchor now)).or
        (if (getAffinityKey request).isSome then none else sessionAccount cfg accounts now)

def started (account : Account) : Account :=
  if bypassesSession request then account else resetSessionIfExpired cfg account clock

def served : List Account :=
  match stickyAccount cfg s accounts request now with
  | some primary => started cfg request clock primary::sortAvailableAccounts cfg s (others accounts primary) now
  | none =>
    match sortAvailableAccounts cfg s accounts now with
    | [] => []
    | first::rest => started cfg request clock first::others rest first

def comparatorPick : Option Account :=
  match stickyAccount cfg s accounts request now with
  | some _ => none
  | none => (sortAvailableAccounts cfg s accounts now).head?

variable {cfg s accounts request now clock} {t : SessionStrategy} {account first : Account} {rest : List Account}

structure SamePicks (s t : SessionStrategy) : Prop where
  seq : s.pickSeq = t.pickSeq
  last : s.lastPickedSeq = t.lastPickedSeq

theorem samePicksRefl : SamePicks s s := ⟨rfl,rfl⟩

theorem SamePicks.sort (same : SamePicks s t) : sortAvailableAccounts cfg s accounts now = sortAvailableAccounts cfg t accounts now := by
  unfold sortAvailableAccounts sortsBefore
  rw [same.last]

theorem rememberPicks : SamePicks (rememberAffinity cfg s request account now) s := by
  unfold rememberAffinity
  split
  · exact samePicksRefl
  · exact ⟨rfl,rfl⟩

variable (cfg s accounts now) in
theorem resolvePicks (key : Option String) : SamePicks (resolveAffinity cfg s accounts key now).1 s := by
  rcases resolveEffect cfg s accounts key now with same | ⟨dropped,_,same⟩
  · rw [same]
    exact ⟨rfl,rfl⟩
  · rw [same]
    exact ⟨rfl,rfl⟩

theorem resetFields (cfg : Config) (account : Account) (clock : Int) : ∃ start count,
    resetSessionIfExpired cfg account clock = { account with sessionStart := start,sessionRequestCount := count } := by
  unfold resetSessionIfExpired
  simp only
  split
  · exact ⟨_,_,rfl⟩
  · exact ⟨account.sessionStart,account.sessionRequestCount,rfl⟩

theorem othersReset (clock : Int) : others accounts (resetSessionIfExpired cfg account clock) = others accounts account := by
  unfold others
  rw [resetId]

theorem startedId : (started cfg request clock account).id = account.id := by
  unfold started
  split
  · rfl
  · exact resetId account clock

theorem startedAvailable : isAccountAvailable (started cfg request clock account) now = isAccountAvailable account now := by
  unfold started
  split
  · rfl
  · obtain ⟨start,count,same⟩ := resetFields cfg account clock
    rw [same]
    rfl

def recorded (s : SessionStrategy) : Option Account → InsertionMap String Nat
  | some account => set s.lastPickedSeq account.id (s.pickSeq + 1)
  | none => s.lastPickedSeq

structure Serves (cfg : Config) (s : SessionStrategy) (expected : List Account) (pick : Option Account) (selection : Selection) : Prop where
  accounts : selection.accounts = expected
  seq : selection.strategy.pickSeq = s.pickSeq + pick.toList.length
  last : selection.strategy.lastPickedSeq = recorded s pick

theorem SamePicks.recorded (same : SamePicks t s) (pick : Option Account) : recorded t pick = LoadBalancer.recorded s pick := by
  cases pick with
  | none => exact same.last
  | some account => simp only [LoadBalancer.recorded,same.seq,same.last]

theorem Serves.from (same : SamePicks t s) {expected pick selection}
    (serves : Serves cfg t expected pick selection) : Serves cfg s expected pick selection :=
  ⟨serves.accounts,by rw [serves.seq,same.seq],serves.last.trans (same.recorded pick)⟩

variable (cfg s accounts request now clock)

theorem hitServes (account : Account) (previousAccountId : Option String) (tracked : bypassesSession request = false) :
    Serves cfg s (started cfg request clock account::sortAvailableAccounts cfg s (others accounts account) now) none
      (selectHit cfg s accounts request account previousAccountId now clock) := by
  have picks : SamePicks (rememberAffinity cfg s request (resetSessionIfExpired cfg account clock) now) s := rememberPicks
  refine ⟨?_,picks.seq,picks.last⟩
  simp only [selectHit,started,tracked,Bool.false_eq_true,if_false,picks.sort,othersReset]

def pickServed : List Account :=
  match sortAvailableAccounts cfg s accounts now with
  | [] => []
  | first::rest => started cfg request clock first::others rest first

variable {s} in
theorem recordedPicks (same : SamePicks t s) (chosen : Account) (first : Account) (its : chosen.id = first.id) :
    (recordComparatorPick t chosen).pickSeq = s.pickSeq + 1 ∧
      (recordComparatorPick t chosen).lastPickedSeq = set s.lastPickedSeq first.id (s.pickSeq + 1) := by
  unfold recordComparatorPick
  rw [same.seq,same.last,its]
  exact ⟨rfl,rfl⟩

theorem holdServes (heldAccountId : String) (previousAccountId : Option String) (tracked : bypassesSession request = false) :
    Serves cfg s (pickServed cfg s accounts request now clock) (sortAvailableAccounts cfg s accounts now).head?
      (selectHold cfg s accounts request heldAccountId previousAccountId now clock) := by
  unfold selectHold pickServed
  split
  · rename_i sorted
    rw [sorted]
    exact ⟨rfl,rfl,rfl⟩
  · rename_i first rest sorted
    rw [sorted]
    obtain ⟨seq,last⟩ := recordedPicks (samePicksRefl (s := s)) _ first (resetId first clock)
    exact ⟨by simp only [started,tracked,Bool.false_eq_true,if_false,othersReset],seq,last⟩

theorem freshServes (decision : String) (previousAccountId : Option String) (tracked : bypassesSession request = false) :
    Serves cfg s (pickServed cfg s accounts request now clock) (sortAvailableAccounts cfg s accounts now).head?
      (selectFresh cfg s accounts request decision previousAccountId now clock) := by
  unfold selectFresh pickServed
  split
  · rename_i sorted
    rw [sorted]
    exact ⟨rfl,rfl,rfl⟩
  · rename_i first rest sorted
    rw [sorted]
    obtain ⟨seq,last⟩ := recordedPicks (rememberPicks (s := s)) _ first (resetId first clock)
    exact ⟨by simp only [started,tracked,Bool.false_eq_true,if_false,othersReset],seq,last⟩

theorem globalServes : Serves cfg s
    (match sessionAccount cfg accounts now with
      | some active => started cfg request clock active::sortAvailableAccounts cfg s (others accounts active) now
      | none => pickServed cfg s accounts request now clock)
    (match sessionAccount cfg accounts now with
      | some _ => none
      | none => (sortAvailableAccounts cfg s accounts now).head?)
    (selectGlobal cfg s accounts request (bypassesSession request) now clock) := by
  unfold selectGlobal sessionAccount pickServed
  cases bypassed : bypassesSession request with
  | true =>
    simp only [started,bypassed]
    cases (activeAccount cfg accounts now).filter (isAccountAvailable · now) with
    | some active => exact ⟨rfl,rfl,rfl⟩
    | none =>
      cases sorted : sortAvailableAccounts cfg s accounts now with
      | nil => exact ⟨rfl,rfl,rfl⟩
      | cons first rest => exact ⟨rfl,rfl,rfl⟩
  | false =>
    simp only [Bool.false_eq_true,if_false,started,bypassed]
    cases (activeAccount cfg accounts now).filter (isAccountAvailable · now) with
    | some active =>
      have picks : SamePicks (rememberAffinity cfg s request (resetSessionIfExpired cfg active clock) now) s := rememberPicks
      exact ⟨by simp only [picks.sort,othersReset],picks.seq,picks.last⟩
    | none =>
      cases sorted : sortAvailableAccounts cfg s accounts now with
      | nil => exact ⟨rfl,rfl,rfl⟩
      | cons first rest =>
        obtain ⟨seq,last⟩ := recordedPicks (rememberPicks (s := s)) _ first (resetId first clock)
        exact ⟨by simp only [othersReset],seq,last⟩

theorem selectServes :
    Serves cfg s (served cfg s (autoUnpause cfg accounts now) request now clock)
      (comparatorPick cfg s (autoUnpause cfg accounts now) request now) (select cfg s accounts request now clock) := by
  unfold select served comparatorPick stickyAccount
  generalize autoUnpause cfg accounts now = accounts
  cases tracked : bypassesSession request with
  | true =>
    have serves := globalServes cfg s accounts request now clock
    rw [tracked] at serves
    exact serves
  | false =>
    have picks := resolvePicks cfg s accounts now ((getAffinityMapKeys cfg request).map (·.pin))
    have toGlobal := globalServes cfg (resolveAffinity cfg s accounts ((getAffinityMapKeys cfg request).map (·.pin)) now).1
      accounts request now clock
    simp only [Bool.false_eq_true]
    generalize ((getAffinityMapKeys cfg request).bind (fun k => get s.affinityByKey k.pin)).map (·.accountId) = previous
    generalize resolveAffinity cfg s accounts ((getAffinityMapKeys cfg request).map (·.pin)) now = resolved at picks toGlobal
    obtain ⟨t,resolution⟩ := resolved
    rw [tracked] at toGlobal
    simp only [pickServed,picks.sort] at toGlobal
    cases resolution with
    | hit account =>
      have serves := hitServes cfg t accounts request now clock account previous tracked
      simp only [picks.sort] at serves
      exact serves.from picks
    | hold heldAccountId =>
      have serves := holdServes cfg t accounts request now clock heldAccountId previous tracked
      simp only [pickServed,picks.sort] at serves
      exact serves.from picks
    | reassign previousAccountId =>
      have serves := freshServes cfg t accounts request now clock "affinity_reassigned" previous tracked
      simp only [pickServed,picks.sort] at serves
      exact serves.from picks
    | miss =>
      cases ((getAffinityMapKeys cfg request).bind (·.anchor)).bind (fun anchor => resolveAnchor t accounts anchor now) with
      | some anchored =>
        have serves := hitServes cfg t accounts request now clock anchored (some anchored.id) tracked
        simp only [picks.sort] at serves
        exact serves.from picks
      | none =>
        cases keyed : (getAffinityKey request).isSome with
        | true =>
          have serves := freshServes cfg t accounts request now clock "affinity_miss" previous tracked
          simp only [pickServed,picks.sort] at serves
          exact serves.from picks
        | false =>
          exact toGlobal.from picks

end Serve

section Every
variable {cfg : Config} {s : SessionStrategy} {accounts : List Account} {request : RequestMeta} {now clock : Int}
  {primary first account : Account} {rest : List Account}

theorem unpausedIds : (autoUnpause cfg accounts now).map (·.id) = accounts.map (·.id) := by
  rw [autoUnpause,List.map_map]
  refine List.map_congr_left (fun account _ => ?_)
  simp only [Function.comp]
  split <;> rfl

theorem activeMember (active : activeAccount cfg accounts now = some account) : account ∈ accounts := by
  suffices member : ∀ (accounts : List Account) (before : Option Account), accounts.foldl (fun active account =>
      if hasActiveSession cfg account now &&
        (present account.sessionStart).any (fun start =>
          start > ((active.bind (fun a => present a.sessionStart)).getD 0))
      then some account else active) before = some account → before = some account ∨ account ∈ accounts by
    exact (member accounts none active).resolve_left nofun
  intro accounts
  induction accounts with
  | nil => exact fun before same => .inl same
  | cons head tail ih =>
    intro before folded
    rw [List.foldl_cons] at folded
    rcases ih _ folded with here | behind
    · split at here
      · cases here
        exact .inr (.head _)
      · exact .inl here
    · exact .inr (.tail _ behind)

theorem sessionMember (session : sessionAccount cfg accounts now = some account) :
    account ∈ accounts ∧ isAccountAvailable account now = true := by
  obtain ⟨active,available⟩ := Option.filter_eq_some_iff.mp session
  exact ⟨activeMember active,available⟩

theorem anchorMember {anchor} (resolved : resolveAnchor s accounts anchor now = some account) :
    account ∈ accounts ∧ isAccountAvailable account now = true := by
  obtain ⟨entry,_,found⟩ := Option.bind_eq_some_iff.mp resolved
  obtain ⟨found,available⟩ := Option.filter_eq_some_iff.mp found
  exact ⟨List.mem_of_find?_eq_some found,available⟩

theorem hitMember {key} (hit : (resolveAffinity cfg s accounts key now).2 = .hit account) :
    account ∈ accounts ∧ isAccountAvailable account now = true := by
  unfold resolveAffinity at hit
  cases key with
  | none => cases hit
  | some key =>
    dsimp only at hit
    split at hit
    · cases hit
    split at hit
    · cases hit
    rename_i found
    split at hit
    · rename_i available
      cases hit
      exact ⟨List.mem_of_find?_eq_some found,available⟩
    split at hit <;> cases hit

theorem stickyMember (sticky : stickyAccount cfg s accounts request now = some account) :
    account ∈ accounts ∧ isAccountAvailable account now = true := by
  unfold stickyAccount at sticky
  split at sticky
  · exact sessionMember sticky
  dsimp only at sticky
  split at sticky
  · rename_i hit
    cases sticky
    exact hitMember hit
  · cases sticky
  · cases sticky
  · rcases Option.or_eq_some_iff.mp sticky with anchored | ⟨_,session⟩
    · obtain ⟨anchor,_,resolved⟩ := Option.bind_eq_some_iff.mp anchored
      exact anchorMember resolved
    · split at session
      · cases session
      · exact sessionMember session

section
variable (unique : (accounts.map (·.id)).Nodup)
include unique

theorem othersPerm (listed : primary ∈ accounts) :
    List.Perm (primary::others accounts primary) accounts := by
  have nodup : accounts.Nodup := unique.of_map
  refine (List.perm_ext_iff_of_nodup ?_ nodup).mpr (fun account => ?_)
  · refine List.nodup_cons.mpr ⟨fun inside => ?_,nodup.sublist List.filter_sublist⟩
    exact of_decide_eq_true (List.mem_filter.mp inside).2 rfl
  · rw [List.mem_cons,others,List.mem_filter,decide_eq_true_iff]
    constructor
    · rintro (rfl | ⟨inside,_⟩)
      · exact listed
      · exact inside
    · intro inside
      by_cases same : account.id = primary.id
      · exact .inl (List.inj_on_of_nodup_map unique inside listed same)
      · exact .inr ⟨inside,same⟩

theorem othersRest (sorted : sortAvailableAccounts cfg s accounts now = first::rest) :
    others rest first = rest := by
  have ids : ((first::rest).map (·.id)).Nodup := by
    rw [← sorted,((sortedPerm cfg s accounts now).map _).nodup_iff]
    exact unique.sublist (List.filter_sublist.map _)
  refine List.filter_eq_self.mpr (fun account inside => decide_eq_true (fun same => ?_))
  exact (List.nodup_cons.mp ids).1 (List.mem_map.mpr ⟨account,inside,same⟩)

theorem servedPicked (free : stickyAccount cfg s accounts request now = none) :
    served cfg s accounts request now clock =
      match sortAvailableAccounts cfg s accounts now with
      | [] => []
      | first::rest => started cfg request clock first::rest := by
  rw [served,free]
  cases sorted : sortAvailableAccounts cfg s accounts now with
  | nil => rfl
  | cons first rest => simp only [othersRest unique sorted]

theorem servedIds : List.Perm ((served cfg s accounts request now clock).map (·.id))
    ((accounts.filter (isAccountAvailable · now)).map (·.id)) := by
  cases sticky : stickyAccount cfg s accounts request now with
  | some primary =>
    obtain ⟨listed,available⟩ := stickyMember sticky
    rw [served,sticky]
    have tail := ((sortedPerm cfg s (others accounts primary) now).map (·.id)).cons primary.id
    have whole := ((othersPerm unique listed).filter (isAccountAvailable · now)).map (·.id)
    have kept : (primary::others accounts primary).filter (isAccountAvailable · now) =
        primary::(others accounts primary).filter (isAccountAvailable · now) := List.filter_cons_of_pos available
    rw [kept,List.map_cons] at whole
    rw [List.map_cons,startedId]
    exact tail.trans whole
  | none =>
    have sorted := (sortedPerm cfg s accounts now).map (·.id)
    rw [servedPicked unique sticky]
    cases its : sortAvailableAccounts cfg s accounts now with
    | nil => rwa [its] at sorted
    | cons first rest =>
      rw [its] at sorted
      rw [List.map_cons] at sorted ⊢
      rwa [startedId]

theorem servedAvailable :
    ∀ account ∈ served cfg s accounts request now clock, isAccountAvailable account now = true := by
  have sorted : ∀ accounts, ∀ account ∈ sortAvailableAccounts cfg s accounts now, isAccountAvailable account now = true :=
    fun _ _ inside => (memSorted.mp inside).2
  intro account inside
  cases sticky : stickyAccount cfg s accounts request now with
  | some primary =>
    rw [served,sticky] at inside
    rcases List.mem_cons.mp inside with rfl | behind
    · exact startedAvailable.trans (stickyMember sticky).2
    · exact sorted _ account behind
  | none =>
    rw [servedPicked unique sticky] at inside
    cases its : sortAvailableAccounts cfg s accounts now with
    | nil =>
      rw [its] at inside
      cases inside
    | cons first rest =>
      rw [its] at inside
      rcases List.mem_cons.mp inside with rfl | behind
      · exact startedAvailable.trans (sorted accounts first (its ▸ (.head _)))
      · exact sorted accounts account (its ▸ .tail _ behind)

end

theorem stickyPinned {mapKeys entry} (tracked : bypassesSession request = false)
    (keys : getAffinityMapKeys cfg request = some mapKeys)
    (pinned : get (pruneAffinity cfg s now).affinityByKey mapKeys.pin = some entry)
    (found : accounts.find? (·.id = entry.accountId) = some account) (available : isAccountAvailable account now = true) :
    stickyAccount cfg s accounts request now = some account := by
  unfold stickyAccount
  simp only [tracked,Bool.false_eq_true,if_false,keys,Option.map_some,resolveAffinity,pinned,found,available,if_true]

end Every

structure SelectsEvery (cfg : Config) (s : SessionStrategy) (accounts : List Account) (request : RequestMeta) (now clock : Int) :
    Prop where
  unique : ((select cfg s accounts request now clock).accounts.map (·.id)).Nodup
  every : List.Perm ((select cfg s accounts request now clock).accounts.map (·.id))
    (((autoUnpause cfg accounts now).filter (isAccountAvailable · now)).map (·.id))
  available : ∀ account ∈ (select cfg s accounts request now clock).accounts, isAccountAvailable account now = true
  sticky : ∀ primary, stickyAccount cfg s (autoUnpause cfg accounts now) request now = some primary →
    primary ∈ autoUnpause cfg accounts now ∧ isAccountAvailable primary now = true ∧
      (select cfg s accounts request now clock).accounts = started cfg request clock primary::
        sortAvailableAccounts cfg s (others (autoUnpause cfg accounts now) primary) now
  affine : ∀ mapKeys entry account, bypassesSession request = false → getAffinityMapKeys cfg request = some mapKeys →
    get (pruneAffinity cfg s now).affinityByKey mapKeys.pin = some entry →
    (autoUnpause cfg accounts now).find? (·.id = entry.accountId) = some account → isAccountAvailable account now = true →
      stickyAccount cfg s (autoUnpause cfg accounts now) request now = some account
  picked : stickyAccount cfg s (autoUnpause cfg accounts now) request now = none →
    (select cfg s accounts request now clock).accounts =
      match sortAvailableAccounts cfg s (autoUnpause cfg accounts now) now with
      | [] => []
      | first::rest => started cfg request clock first::rest

theorem selectsEvery (cfg : Config) (s : SessionStrategy) (accounts : List Account) (request : RequestMeta) (now clock : Int)
    (unique : (accounts.map (·.id)).Nodup) : SelectsEvery cfg s accounts request now clock := by
  have offered : ((autoUnpause cfg accounts now).map (·.id)).Nodup := by rwa [unpausedIds]
  have serves := (selectServes cfg s accounts request now clock).accounts
  have ids : List.Perm ((served cfg s (autoUnpause cfg accounts now) request now clock).map (·.id)) _ := servedIds offered
  rw [← serves] at ids
  refine ⟨?_,ids,?_,?_,fun _ _ _ => stickyPinned,?_⟩
  · exact ids.nodup_iff.mpr (offered.sublist (List.filter_sublist.map _))
  · rw [serves]
    exact servedAvailable offered
  · intro primary sticky
    refine ⟨(stickyMember sticky).1,(stickyMember sticky).2,?_⟩
    rw [serves,served,sticky]
  · intro free
    rw [serves,servedPicked offered free]

def threeAccounts : List Account := [accountOf "c" 0 (some 90000000),accountOf "b" 0 none,accountOf "a" 10 none]

theorem selectsEveryPinned :
    (select fiveHours pinnedStrategy threeAccounts (requestOn "alpha" none) 2000 2000).accounts.map (·.id) = ["a","b"] ∧
      SelectsEvery fiveHours pinnedStrategy threeAccounts (requestOn "alpha" none) 2000 2000 :=
  ⟨by decide +kernel,selectsEvery fiveHours pinnedStrategy threeAccounts (requestOn "alpha" none) 2000 2000 (by decide)⟩

end Clankermux.LoadBalancer
