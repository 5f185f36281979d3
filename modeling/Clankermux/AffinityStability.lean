import Clankermux.AffinityOrder

/-! A pinned key stays on its account, from the last selection its account has served, as
long as nothing is selected or moved at a clock more than the session duration later. -/
namespace Clankermux.LoadBalancer
open InsertionMap RecencyMap

variable {cfg : Config} {s t : SessionStrategy} {key accountId : String} {stamp now clock : Int}

def pinOf (cfg : Config) (request : RequestMeta) : Option String := (getAffinityMapKeys cfg request).map (·.pin)

def Drops (key : String) (s t : SessionStrategy) : Prop := s.capacityPruned.count key ≤ t.capacityPruned.count key

theorem pruneDrops (cfg : Config) (key : String) (s : SessionStrategy) (now : Int) : Drops key s (pruneAffinity cfg s now) := by
  simp [Drops,pruneAffinity,List.count_append]

theorem rememberDrops (cfg : Config) (key : String) (s : SessionStrategy) (request : RequestMeta) (account : Account) (now : Int) :
    Drops key s (rememberAffinity cfg s request account now) := by
  unfold rememberAffinity
  split
  · exact le_refl _
  · exact pruneDrops cfg key (recordAffinity _ _ _ _) now

theorem resolveEffect (cfg : Config) (s : SessionStrategy) (accounts : List Account) (pin : Option String) (now : Int) :
    (resolveAffinity cfg s accounts pin now).1 = pruneAffinity cfg s now ∨
      ∃ dropped, pin = some dropped ∧
        (resolveAffinity cfg s accounts pin now).1 = dropAffinity (pruneAffinity cfg s now) dropped := by
  unfold resolveAffinity
  cases pin with
  | none => exact .inl rfl
  | some pin =>
    simp only
    split
    · exact .inl rfl
    split
    · exact .inr ⟨pin,rfl,rfl⟩
    split
    · exact .inl rfl
    split
    · exact .inr ⟨pin,rfl,rfl⟩
    · exact .inl rfl

theorem resolvePruned (cfg : Config) (s : SessionStrategy) (accounts : List Account) (pin : Option String) (now : Int) :
    (resolveAffinity cfg s accounts pin now).1.capacityPruned = (pruneAffinity cfg s now).capacityPruned := by
  rcases resolveEffect cfg s accounts pin now with same | ⟨dropped,-,same⟩
  · rw [same]
  · rw [same]
    rfl

theorem resolveDrops (cfg : Config) (key : String) (s : SessionStrategy) (accounts : List Account) (pin : Option String) (now : Int) :
    Drops key s (resolveAffinity cfg s accounts pin now).1 := by
  rw [Drops,resolvePruned]
  exact pruneDrops cfg key s now

def PinnedSince (key accountId : String) (since : Int) (s : SessionStrategy) : Prop :=
  ∃ stamp, get s.affinityByKey key = some ⟨accountId,stamp⟩ ∧ since ≤ stamp

theorem prunedPin {entry} (found : get s.affinityByKey key = some entry)
    (live : now - cfg.sessionDurationMs ≤ entry.lastUsedAt)
    (spared : (pruneAffinity cfg s now).capacityPruned.count key ≤ s.capacityPruned.count key) :
    get (pruneAffinity cfg s now).affinityByKey key = some entry := by
  have swept : get (sweep Affinity.lastUsedAt (now - cfg.sessionDurationMs) s.affinityByKey) key = some entry :=
    getSweep found live
  rw [← swept]
  refine getCapped ?_
  simp only [pruneAffinity,List.count_append] at spared
  exact List.count_eq_zero.mp (by omega)
variable {since : Int} {entry after : Affinity}

theorem PinnedSince.pruned (pinned : PinnedSince key accountId since s) (live : now - cfg.sessionDurationMs ≤ since)
    (spared : (pruneAffinity cfg s now).capacityPruned.count key ≤ s.capacityPruned.count key) :
    PinnedSince key accountId since (pruneAffinity cfg s now) := by
  obtain ⟨stamp,found,used⟩ := pinned
  exact ⟨stamp,prunedPin found (live.trans used) spared,used⟩

theorem PinnedSince.record (pinned : PinnedSince key accountId since s) (recent : Recent s)
    (mapKeys : MapKeys) (other : String) (own : mapKeys.pin = key → other = accountId) (now : Int) :
    PinnedSince key accountId since (recordAffinity s mapKeys other now) := by
  obtain ⟨stamp,found,used⟩ := pinned
  have below : stamp ≤ s.lastAffinityStamp := recent.below _ (memOfGet found)
  obtain ⟨stamp',taken⟩ : ∃ stamp', stamp' = if now > s.lastAffinityStamp then now else s.lastAffinityStamp := ⟨_,rfl⟩
  have up : since ≤ stamp' := by rw [taken]; split <;> omega
  have first : ∃ stamp, get (touch s.affinityByKey mapKeys.pin ⟨other,stamp'⟩) key = some ⟨accountId,stamp⟩ ∧ since ≤ stamp := by
    by_cases same : key = mapKeys.pin
    · subst same
      exact ⟨stamp',by rw [getTouchSelf,own rfl],up⟩
    · exact ⟨stamp,by rw [getTouchOther same,found],used⟩
  unfold recordAffinity PinnedSince
  rw [← taken]
  cases mapKeys.anchor with
  | none => exact first
  | some anchor =>
    obtain ⟨stamp,found',used'⟩ := first
    by_cases same : key = anchor
    · subst same
      exact ⟨stamp',by simp [found'],up⟩
    · exact ⟨stamp,by simp only; rw [getTouchOther same,found'],used'⟩

theorem PinnedSince.remember (pinned : PinnedSince key accountId since s) (recent : Recent s)
    (request : RequestMeta) (account : Account) (own : pinOf cfg request = some key → account.id = accountId)
    (live : now - cfg.sessionDurationMs ≤ since)
    (spared : (rememberAffinity cfg s request account now).capacityPruned.count key ≤ s.capacityPruned.count key) :
    PinnedSince key accountId since (rememberAffinity cfg s request account now) := by
  unfold rememberAffinity at spared ⊢
  split at spared
  · exact pinned
  · rename_i mapKeys found
    have recorded := pinned.record recent mapKeys account.id (fun same => own (by simp [pinOf,found,same])) now
    exact recorded.pruned live spared

theorem PinnedSince.use {request account} (pinned : PinnedSince key accountId since s)
    (recent : Recent s) (asked : pinOf cfg request = some key) (same : account.id = accountId)
    (live : now - cfg.sessionDurationMs ≤ since)
    (spared : (rememberAffinity cfg s request account now).capacityPruned.count key ≤ s.capacityPruned.count key) :
    PinnedSince key accountId now (rememberAffinity cfg s request account now) := by
  obtain ⟨stamp,before,used⟩ := pinned
  have below : stamp ≤ s.lastAffinityStamp := recent.below _ (memOfGet before)
  unfold rememberAffinity at spared ⊢
  split at spared
  · rename_i none_
    simp [pinOf,none_] at asked
  · rename_i mapKeys found
    simp only [pinOf,found,Option.map_some,Option.some.injEq] at asked
    obtain ⟨stamp',taken⟩ : ∃ stamp', stamp' = if now > s.lastAffinityStamp then now else s.lastAffinityStamp := ⟨_,rfl⟩
    have up : now ≤ stamp' ∧ s.lastAffinityStamp ≤ stamp' := by rw [taken]; split <;> omega
    have recorded : get (recordAffinity s mapKeys account.id now).affinityByKey key = some ⟨accountId,stamp'⟩ := by
      unfold recordAffinity
      rw [← taken,asked,same]
      cases mapKeys.anchor with
      | none => exact getTouchSelf
      | some anchor =>
        by_cases twice : key = anchor
        · subst twice
          simp
        · simp only
          rw [getTouchOther twice,getTouchSelf]
    exact ⟨stamp',prunedPin recorded (by show now - cfg.sessionDurationMs ≤ stamp'; omega) spared,up.1⟩

variable {accounts : List Account} {request : RequestMeta} {account : Account}

theorem findUnpaused (cfg : Config) (now : Int) (found : accounts.find? (·.id = accountId) = some account) (awake : account.paused = false) :
    (autoUnpause cfg accounts now).find? (·.id = accountId) = some account := by
  have same : (fun a : Account => decide (a.id = accountId)) ∘ (fun account : Account =>
      if isAutoUnpauseCandidate account now && cfg.store.any (·.resumeAccount) &&
        isSelfHealingPauseReason account.pauseReason
      then { account with paused := false } else account) = fun a => decide (a.id = accountId) := by
    funext a
    simp only [Function.comp]
    split <;> rfl
  rw [autoUnpause,List.find?_map,same,found,Option.map_some]
  simp [isAutoUnpauseCandidate,awake]

theorem notPausedOf (fit : isAccountAvailable account now = true ∨ isAffinityBreakingUnavailability account now = false) :
    account.paused = false := by
  rcases fit with available | held
  · simp only [isAccountAvailable,Bool.and_eq_true,Bool.not_eq_true'] at available
    exact available.1.2
  · unfold isAffinityBreakingUnavailability at held
    cases paused : account.paused with
    | false => rfl
    | true => simp [paused] at held

theorem resolvePinned (pin : get (pruneAffinity cfg s now).affinityByKey key = some ⟨accountId,stamp⟩)
    (found : accounts.find? (·.id = accountId) = some account) :
    resolveAffinity cfg s accounts (some key) now =
      if isAccountAvailable account now then (pruneAffinity cfg s now,.hit account)
      else if isAffinityBreakingUnavailability account now then
        (dropAffinity (pruneAffinity cfg s now) key,.reassign accountId)
      else (pruneAffinity cfg s now,.hold accountId) := by
  unfold resolveAffinity
  simp only [pin,found]

theorem selectAvailable (clock : Int) (asked : pinOf cfg request = some key) (tracked : bypassesSession request = false)
    (pin : get (pruneAffinity cfg s now).affinityByKey key = some ⟨accountId,stamp⟩)
    (found : accounts.find? (·.id = accountId) = some account) (available : isAccountAvailable account now = true) :
    ∃ previous, select cfg s accounts request now clock =
      selectHit cfg (pruneAffinity cfg s now) (autoUnpause cfg accounts now) request account previous now clock := by
  have seen := findUnpaused cfg now found (notPausedOf (.inl available))
  unfold pinOf at asked
  refine ⟨((getAffinityMapKeys cfg request).bind (fun k => get s.affinityByKey k.pin)).map (·.accountId),?_⟩
  simp only [select,tracked,Bool.false_eq_true,if_false,asked,resolvePinned pin seen,if_pos available]

theorem selectHeld (clock : Int) (asked : pinOf cfg request = some key) (tracked : bypassesSession request = false)
    (pin : get (pruneAffinity cfg s now).affinityByKey key = some ⟨accountId,stamp⟩)
    (found : accounts.find? (·.id = accountId) = some account) (unavailable : isAccountAvailable account now = false)
    (held : isAffinityBreakingUnavailability account now = false) :
    ∃ previous, select cfg s accounts request now clock =
      selectHold cfg (pruneAffinity cfg s now) (autoUnpause cfg accounts now) request accountId previous now clock := by
  have seen := findUnpaused cfg now found (notPausedOf (.inr held))
  unfold pinOf at asked
  refine ⟨((getAffinityMapKeys cfg request).bind (fun k => get s.affinityByKey k.pin)).map (·.accountId),?_⟩
  simp only [select,tracked,Bool.false_eq_true,if_false,asked,resolvePinned pin seen,unavailable,held]

theorem holdKeeps (cfg : Config) (s : SessionStrategy) (accounts : List Account) (request : RequestMeta) (heldAccountId : String)
    (previous : Option String) (now clock : Int) :
    (selectHold cfg s accounts request heldAccountId previous now clock).strategy.affinityByKey = s.affinityByKey ∧
      (selectHold cfg s accounts request heldAccountId previous now clock).strategy.capacityPruned = s.capacityPruned := by
  unfold selectHold
  split
  · exact ⟨rfl,rfl⟩
  · exact ⟨rfl,rfl⟩

theorem resetId (account : Account) (clock : Int) : (resetSessionIfExpired cfg account clock).id = account.id := by
  unfold resetSessionIfExpired
  simp only
  split <;> rfl

theorem PinnedSince.resolveOther {pin} (pinned : PinnedSince key accountId since s)
    (other : pin ≠ some key) (live : now - cfg.sessionDurationMs ≤ since)
    (spared : (resolveAffinity cfg s accounts pin now).1.capacityPruned.count key ≤ s.capacityPruned.count key) :
    PinnedSince key accountId since (resolveAffinity cfg s accounts pin now).1 := by
  rcases resolveEffect cfg s accounts pin now with same | ⟨dropped,rfl,same⟩
  · rw [same] at spared ⊢
    exact pinned.pruned live spared
  · rw [same] at spared ⊢
    obtain ⟨stamp,found,used⟩ := pinned.pruned live spared
    have ne : key ≠ dropped := fun same => other (by rw [same])
    exact ⟨stamp,by rw [dropAffinity,getDeleteOther ne,found],used⟩

structure SamePins (s t : SessionStrategy) : Prop where
  pins : s.affinityByKey = t.affinityByKey
  pruned : s.capacityPruned = t.capacityPruned

theorem PinnedSince.same (pinned : PinnedSince key accountId since t) (same : SamePins s t) :
    PinnedSince key accountId since s := by
  obtain ⟨stamp,found,used⟩ := pinned
  exact ⟨stamp,by rw [same.pins,found],used⟩

inductive SelectEffect (cfg : Config) (request : RequestMeta) (now : Int) (s t : SessionStrategy) : Prop where
  | kept (same : SamePins t s)
  | remembered (account : Account) (same : SamePins t (rememberAffinity cfg s request account now))

theorem globalEffect (s : SessionStrategy) (accounts : List Account) (request : RequestMeta) (bypassSession : Bool)
    (now clock : Int) :
    SelectEffect cfg request now s (selectGlobal cfg s accounts request bypassSession now clock).strategy ∧
      (bypassSession = true → SamePins (selectGlobal cfg s accounts request bypassSession now clock).strategy s) := by
  cases bypassSession with
  | true =>
    have same : SamePins (selectGlobal cfg s accounts request true now clock).strategy s := by
      simp only [selectGlobal]
      split
      · exact ⟨rfl,rfl⟩
      split <;> exact ⟨rfl,rfl⟩
    exact ⟨.kept same,fun _ => same⟩
  | false =>
    refine ⟨?_,by simp⟩
    simp only [selectGlobal]
    split
    · exact .remembered _ ⟨rfl,rfl⟩
    split
    · exact .kept ⟨rfl,rfl⟩
    · exact .remembered _ ⟨rfl,rfl⟩

theorem freshEffect (s : SessionStrategy) (accounts : List Account) (request : RequestMeta) (decision : String)
    (previous : Option String) (now clock : Int) :
    SelectEffect cfg request now s (selectFresh cfg s accounts request decision previous now clock).strategy := by
  unfold selectFresh
  split
  · exact .kept ⟨rfl,rfl⟩
  · exact .remembered _ ⟨rfl,rfl⟩

theorem selectBypassed (bypassed : bypassesSession request = true) :
    SamePins (select cfg s accounts request now clock).strategy s := by
  simp only [select,bypassed]
  exact (globalEffect _ _ _ true _ _).2 rfl

theorem selectTracked (s : SessionStrategy) (accounts : List Account) (now clock : Int) (tracked : bypassesSession request = false) :
    SelectEffect cfg request now (resolveAffinity cfg s (autoUnpause cfg accounts now) (pinOf cfg request) now).1
      (select cfg s accounts request now clock).strategy := by
  simp only [select,tracked,Bool.false_eq_true,if_false]
  split
  · exact .remembered _ ⟨rfl,rfl⟩
  · exact .kept ⟨(holdKeeps _ _ _ _ _ _ _ _).1,(holdKeeps _ _ _ _ _ _ _ _).2⟩
  · exact freshEffect _ _ _ _ _ _ _
  · split
    · exact .remembered _ ⟨rfl,rfl⟩
    split
    · exact freshEffect _ _ _ _ _ _ _
    · exact (globalEffect _ _ _ false _ _).1

theorem selectDrops (key : String) (accounts : List Account) (clock : Int) (tracked : bypassesSession request = false) :
    Drops key (pruneAffinity cfg s now) (select cfg s accounts request now clock).strategy := by
  have resolved := resolvePruned cfg s (autoUnpause cfg accounts now) (pinOf cfg request) now
  cases (selectTracked s accounts now clock tracked : SelectEffect cfg request now _ _) with
  | kept same => rw [Drops,same.pruned,resolved]
  | remembered account same =>
    rw [Drops,same.pruned,← resolved]
    exact rememberDrops _ _ _ _ _ _

theorem PinnedSince.selectOther (pinned : PinnedSince key accountId since s) (tidy : Tidy cfg s)
    (tracked : bypassesSession request = false) (other : pinOf cfg request ≠ some key)
    (live : now - cfg.sessionDurationMs ≤ since)
    (spared : (select cfg s accounts request now clock).strategy.capacityPruned.count key ≤ s.capacityPruned.count key) :
    PinnedSince key accountId since (select cfg s accounts request now clock).strategy := by
  have first := resolveDrops cfg key s (autoUnpause cfg accounts now) (pinOf cfg request) now
  have recent := (tidy.toRecent.resolved cfg (autoUnpause cfg accounts now) (pinOf cfg request) now).toRecent
  cases (selectTracked s accounts now clock tracked : SelectEffect cfg request now _ _) with
  | kept same =>
    rw [same.pruned] at spared
    exact (pinned.resolveOther other live spared).same same
  | remembered account same =>
    rw [same.pruned] at spared
    have second := rememberDrops cfg key
      (resolveAffinity cfg s (autoUnpause cfg accounts now) (pinOf cfg request) now).1 request account now
    have resolved : PinnedSince key accountId since
        (resolveAffinity cfg s (autoUnpause cfg accounts now) (pinOf cfg request) now).1 :=
      pinned.resolveOther other live (second.trans spared)
    exact (resolved.remember recent request account (fun own => absurd own other) live (spared.trans first)).same same

structure Watch where
  strategy : SessionStrategy
  usedAt : Int

def servesAt (accounts : List Account) (accountId : String) (now : Int) : Bool :=
  (accounts.find? (·.id = accountId)).any (isAccountAvailable · now)

def uses (cfg : Config) (key accountId : String) : Event → Option Int
  | .select accounts request now _ =>
    if pinOf cfg request = some key ∧ bypassesSession request = false ∧ servesAt accounts accountId now = true
    then some now else none
  | _ => none

def watch (cfg : Config) (key accountId : String) : Machine Watch Event where
  init w := (machine cfg).Reachable w.strategy ∧ PinnedSince key accountId w.usedAt w.strategy
  step w ev := some ⟨apply cfg w.strategy ev,(uses cfg key accountId ev).getD w.usedAt⟩

def Offered (accounts : List Account) (accountId : String) (now : Int) : Prop :=
  ∃ account, accounts.find? (·.id = accountId) = some account ∧
    (isAccountAvailable account now = true ∨ isAffinityBreakingUnavailability account now = false)

def Spares (cfg : Config) (key accountId : String) (w : Watch) (ev : Event) : Prop :=
  (apply cfg w.strategy ev).capacityPruned.count key = w.strategy.capacityPruned.count key ∧
  match ev with
  | .select accounts request now _ => bypassesSession request = true ∨
    now - cfg.sessionDurationMs ≤ w.usedAt ∧ (pinOf cfg request = some key → Offered accounts accountId now)
  | .reassignAffinity request _ now _ => pinOf cfg request ≠ some key ∧ now - cfg.sessionDurationMs ≤ w.usedAt
  | .followAffinity request _ _ now => pinOf cfg request ≠ some key ∧ now - cfg.sessionDurationMs ≤ w.usedAt
  | .importAffinity pins _ => ∀ pin ∈ pins, pin.keyHash ≠ key
  | .clearAffinityForAccount other => other ≠ accountId

theorem idOfFind (found : accounts.find? (·.id = accountId) = some account) : account.id = accountId := by
  simpa using List.find?_some found

theorem PinnedSince.selectOwn (pinned : PinnedSince key accountId since s) (tidy : Tidy cfg s)
    (tracked : bypassesSession request = false) (asked : pinOf cfg request = some key)
    (offered : Offered accounts accountId now) (live : now - cfg.sessionDurationMs ≤ since)
    (spared : (select cfg s accounts request now clock).strategy.capacityPruned.count key ≤ s.capacityPruned.count key) :
    PinnedSince key accountId (if servesAt accounts accountId now then now else since)
        (select cfg s accounts request now clock).strategy ∧
      (servesAt accounts accountId now = true →
        (select cfg s accounts request now clock).accounts.head?.map (·.id) = some accountId) := by
  obtain ⟨account,found,fit⟩ := offered
  have serves : servesAt accounts accountId now = isAccountAvailable account now := by
    rw [servesAt,found,Option.any_some]
  have first := pruneDrops cfg key s now
  have whole := (selectDrops key accounts clock tracked).trans spared
  obtain ⟨stamp,pin,-⟩ := pinned.pruned live whole
  rw [serves]
  cases available : isAccountAvailable account now with
  | true =>
    obtain ⟨previous,result⟩ := selectAvailable clock asked tracked pin found available
    rw [result] at spared ⊢
    have same : (resetSessionIfExpired cfg account clock).id = accountId := (resetId _ _).trans (idOfFind found)
    refine ⟨?_,fun _ => congrArg some same⟩
    exact (pinned.pruned live whole).use (tidy.toRecent.pruned cfg now).toRecent asked same live (spared.trans first)
  | false =>
    have held := fit.resolve_left (by simp [available])
    obtain ⟨previous,result⟩ := selectHeld clock asked tracked pin found available held
    rw [result]
    have kept := holdKeeps cfg (pruneAffinity cfg s now) (autoUnpause cfg accounts now) request accountId previous now clock
    exact ⟨(pinned.pruned live whole).same ⟨kept.1,kept.2⟩,by simp⟩

theorem mergedPin (cfg : Config) (now : Int) (pins : List AffinityPin) (others : ∀ pin ∈ pins, pin.keyHash ≠ key)
    (m : InsertionMap String Affinity) : get (pins.foldl (mergePin cfg now) m) key = get m key := by
  induction pins generalizing m with
  | nil => rfl
  | cons pin rest ih =>
    rw [List.foldl_cons,ih (fun pin inside => others pin (.tail _ inside))]
    have ne : key ≠ pin.keyHash := (others pin (.head _)).symm
    unfold mergePin
    split
    · rfl
    simp only
    split
    · rfl
    split
    · rfl
    · exact getTouchOther ne

theorem PinnedSince.imported (pinned : PinnedSince key accountId since s) (tidy : Tidy cfg s)
    {pins} (others : ∀ pin ∈ pins, pin.keyHash ≠ key)
    (spared : (importAffinity cfg s pins now).capacityPruned.count key ≤ s.capacityPruned.count key) :
    PinnedSince key accountId since (importAffinity cfg s pins now) := by
  obtain ⟨stamp,found,used⟩ := pinned
  refine ⟨stamp,?_,used⟩
  unfold importAffinity at spared ⊢
  split at spared
  · simp only [List.count_append] at spared
    have merged := mergedPin cfg now pins others s.affinityByKey
    have perm := List.perm_insertionSort (fun a b : String × Affinity => a.2.lastUsedAt ≤ b.2.lastUsedAt)
      (pins.foldl (mergePin cfg now) s.affinityByKey)
    rw [if_pos ‹_›]
    have sorted := getOfMem ((perm.map Prod.fst).nodup_iff.mpr (mergedUnique pins tidy.unique))
      (perm.mem_iff.mpr (memOfGet (merged.trans found)))
    rw [← sorted]
    exact getCapped (List.count_eq_zero.mp (by omega))
  · rw [if_neg ‹_›]
    exact found

theorem PinnedSince.cleared {other} (pinned : PinnedSince key accountId since s)
    (spared : other ≠ accountId) : PinnedSince key accountId since (clearAffinityForAccount s other) := by
  obtain ⟨stamp,found,used⟩ := pinned
  exact ⟨stamp,getFilter found (by simpa using spared.symm),used⟩

theorem PinnedSince.reassigned (pinned : PinnedSince key accountId since s) (tidy : Tidy cfg s)
    (other : pinOf cfg request ≠ some key) (live : now - cfg.sessionDurationMs ≤ since)
    (spared : (reassignAffinity cfg s request account now clock).1.capacityPruned.count key ≤ s.capacityPruned.count key) :
    PinnedSince key accountId since (reassignAffinity cfg s request account now clock).1 := by
  unfold reassignAffinity at spared ⊢
  split at spared
  · exact pinned
  split at spared
  · rw [if_pos ‹_›]
    exact pinned
  · rw [if_neg ‹_›]
    exact pinned.remember tidy.toRecent request _ (fun own => absurd own other) live spared

theorem PinnedSince.followed {fromAccountId} (pinned : PinnedSince key accountId since s)
    (tidy : Tidy cfg s) (other : pinOf cfg request ≠ some key) (live : now - cfg.sessionDurationMs ≤ since)
    (spared : (followAffinity cfg s request fromAccountId account now).capacityPruned.count key ≤ s.capacityPruned.count key) :
    PinnedSince key accountId since (followAffinity cfg s request fromAccountId account now) := by
  unfold followAffinity at spared ⊢
  split at spared
  · rw [if_pos ‹_›]
    exact pinned
  rw [if_neg ‹_›]
  split at spared
  · exact pinned
  split at spared
  · rw [if_pos ‹_›]
    exact pinned.remember tidy.toRecent request _ (fun own => absurd own other) live spared
  · rw [if_neg ‹_›]
    exact pinned

structure Watched (cfg : Config) (key accountId : String) (w : Watch) : Prop where
  tidy : Tidy cfg w.strategy
  pinned : PinnedSince key accountId w.usedAt w.strategy

theorem Watched.step {w ev} (watched : Watched cfg key accountId w) (spares : Spares cfg key accountId w ev) :
    PinnedSince key accountId ((uses cfg key accountId ev).getD w.usedAt) (apply cfg w.strategy ev) := by
  obtain ⟨spared,condition⟩ := spares
  replace spared := Nat.le_of_eq spared
  cases ev with
  | select accounts request now clock =>
    simp only [uses,apply]
    by_cases tracked : bypassesSession request = false
    · obtain ⟨live,offered⟩ := condition.resolve_left (by simp [tracked])
      by_cases asked : pinOf cfg request = some key
      · have own := (watched.pinned.selectOwn watched.tidy tracked asked (offered asked) live spared).1
        cases serves : servesAt accounts accountId now <;> simpa [asked,tracked,serves] using own
      · simpa [asked] using watched.pinned.selectOther watched.tidy tracked asked live spared
    · have bypassed : bypassesSession request = true := by simpa using tracked
      simpa [tracked] using watched.pinned.same (selectBypassed bypassed)
  | reassignAffinity request account now clock =>
    exact watched.pinned.reassigned watched.tidy condition.1 condition.2 spared
  | followAffinity request fromAccountId account now =>
    exact watched.pinned.followed watched.tidy condition.1 condition.2 spared
  | importAffinity pins now => exact watched.pinned.imported watched.tidy condition spared
  | clearAffinityForAccount other => exact watched.pinned.cleared condition

theorem prunedRecord {entry} (unique : (keys s.affinityByKey).Nodup)
    (found : get (pruneAffinity cfg s now).affinityByKey key = some entry) : get s.affinityByKey key = some entry :=
  getSublist unique ((List.drop_suffix _ _).trans sweepSuffix).sublist found

theorem rememberedRecord (recent : Recent s) (other : pinOf cfg request ≠ some key)
    (before : get s.affinityByKey key = some entry)
    (found : get (rememberAffinity cfg s request account now).affinityByKey key = some after) :
    after.accountId = entry.accountId := by
  unfold rememberAffinity at found
  split at found
  · cases before.symm.trans found
    rfl
  · rename_i mapKeys keysFound
    have recorded := prunedRecord (recent.recorded mapKeys account.id now).unique found
    have ne : key ≠ mapKeys.pin := fun same => other (by simp [pinOf,keysFound,same])
    unfold recordAffinity at recorded
    cases anchored : mapKeys.anchor with
    | none =>
      simp only [anchored] at recorded
      rw [getTouchOther ne,before] at recorded
      cases recorded
      rfl
    | some anchor =>
      simp only [anchored] at recorded
      by_cases same : key = anchor
      · subst same
        rw [getTouchSelf,getTouchOther ne,before] at recorded
        cases recorded
        rfl
      · rw [getTouchOther same,getTouchOther ne,before] at recorded
        cases recorded
        rfl

theorem Tidy.spares (tidy : Tidy cfg s) : (pruneAffinity cfg s now).capacityPruned.count key ≤ s.capacityPruned.count key := by
  have suffix : List.IsSuffix (sweep Affinity.lastUsedAt (now - cfg.sessionDurationMs) s.affinityByKey) s.affinityByKey :=
    sweepSuffix
  have fits := suffix.length_le.trans tidy.fits
  simp [pruneAffinity,overflow,Nat.sub_eq_zero_of_le fits,keys]

theorem selectedRecord (tidy : Tidy cfg s) (other : pinOf cfg request ≠ some key)
    (before : get s.affinityByKey key = some entry)
    (live : bypassesSession request = false → now - cfg.sessionDurationMs ≤ entry.lastUsedAt)
    (found : get (select cfg s accounts request now clock).strategy.affinityByKey key = some after) :
    after.accountId = entry.accountId := by
  by_cases tracked : bypassesSession request = false
  · have pruned := prunedPin before (live tracked) tidy.spares
    have resolved : get (resolveAffinity cfg s (autoUnpause cfg accounts now) (pinOf cfg request) now).1.affinityByKey key =
        some entry := by
      rcases resolveEffect cfg s (autoUnpause cfg accounts now) (pinOf cfg request) now with same | ⟨dropped,asked,same⟩
      · rw [same,pruned]
      · have ne : key ≠ dropped := fun twice => other (by rw [asked,twice])
        rw [same,dropAffinity,getDeleteOther ne,pruned]
    cases (selectTracked s accounts now clock tracked : SelectEffect cfg request now _ _) with
    | kept same =>
      rw [same.pins,resolved] at found
      cases found
      rfl
    | remembered account same =>
      rw [same.pins] at found
      exact rememberedRecord (tidy.toRecent.resolved _ _ _ _).toRecent other resolved found
  · rw [(selectBypassed (by simpa using tracked)).pins,before] at found
    cases found
    rfl

def requestOf : Event → Option RequestMeta
  | .select _ request _ _ => some request
  | .reassignAffinity request _ _ _ => some request
  | .followAffinity request _ _ _ => some request
  | _ => none

def expires (cfg : Config) (entry : Affinity) : Event → Prop
  | .select _ request now _ => bypassesSession request = false ∧ entry.lastUsedAt < now - cfg.sessionDurationMs
  | _ => False

theorem recordKept {ev} (tidy : Tidy cfg s) (asks : requestOf ev = some request)
    (other : pinOf cfg request ≠ some key) (before : get s.affinityByKey key = some entry) (live : ¬ expires cfg entry ev)
    (found : get (apply cfg s ev).affinityByKey key = some after) : after.accountId = entry.accountId := by
  cases ev with
  | select accounts request now clock =>
    cases asks
    refine selectedRecord tidy other before (fun tracked => ?_) found
    by_contra late
    exact live ⟨tracked,by omega⟩
  | reassignAffinity request account now clock =>
    cases asks
    simp only [apply,reassignAffinity] at found
    split at found
    · cases before.symm.trans found
      rfl
    split at found
    · cases before.symm.trans found
      rfl
    · exact rememberedRecord tidy.toRecent other before found
  | followAffinity request fromAccountId account now =>
    cases asks
    simp only [apply,followAffinity] at found
    split at found
    · cases before.symm.trans found
      rfl
    split at found
    · cases before.symm.trans found
      rfl
    split at found
    · exact rememberedRecord tidy.toRecent other before found
    · cases before.symm.trans found
      rfl
  | importAffinity pins now => cases asks
  | clearAffinityForAccount other => cases asks

theorem affinityStable (cfg : Config) :
    (∀ key accountId w, (watch cfg key accountId).ReachableUnder (Spares cfg key accountId) w →
      (∃ stamp, get w.strategy.affinityByKey key = some ⟨accountId,stamp⟩) ∧
      ∀ accounts request now clock, Spares cfg key accountId w (.select accounts request now clock) →
        pinOf cfg request = some key → bypassesSession request = false → servesAt accounts accountId now = true →
        (select cfg w.strategy accounts request now clock).accounts.head?.map (·.id) = some accountId) ∧
    ∀ s, (machine cfg).Reachable s → ∀ ev request mapKeys anchor entry after, requestOf ev = some request →
      getAffinityMapKeys cfg request = some mapKeys → mapKeys.anchor = some anchor → mapKeys.pin ≠ anchor →
      get s.affinityByKey anchor = some entry → ¬ expires cfg entry ev →
      get (apply cfg s ev).affinityByKey anchor = some after → after.accountId = entry.accountId := by
  constructor
  · intro key accountId w reach
    have watched : Watched cfg key accountId w := by
      refine reach.invariant (P := Watched cfg key accountId) ?_ (fun w ev v watched spares stepped => ?_)
      · exact fun w start => ⟨affinityTidy start.1,start.2⟩
      · cases stepped
        exact ⟨watched.tidy.apply ev,watched.step spares⟩
    refine ⟨watched.pinned.imp fun _ both => both.1,?_⟩
    intro accounts request now clock spares asked tracked serves
    obtain ⟨live,offered⟩ := spares.2.resolve_left (by simp [tracked])
    exact (watched.pinned.selectOwn watched.tidy tracked asked (offered asked) live (Nat.le_of_eq spares.1)).2 serves
  · intro s reach ev request mapKeys anchor entry after asks found anchored apart before live kept
    refine recordKept (affinityTidy reach) asks ?_ before live kept
    simpa [pinOf,found] using apart

def pinnedRun : List Event := [.select [accountOf "a" 10 none] (requestOn "alpha" none) 1000 1000]

def heldSelect : Event :=
  .select [accountOf "a" 10 (some 90000000),accountOf "b" 0 none] (requestOn "alpha" none) 18001000 18001000

def bothAccounts : List Account := [accountOf "a" 10 none,accountOf "b" 0 none]

def anchoredSelect : Event := .select [accountOf "b" 0 none] (requestOn "alpha" (some "opus")) 18001000 18001000

def pinnedStrategy : SessionStrategy := ⟨[(alphaKey,⟨"a",1000⟩)],1,1000,1,[("a",1)],[]⟩

theorem affinityStableHeld :
    (select fiveHours (apply fiveHours pinnedStrategy heldSelect) bothAccounts (requestOn "alpha" none)
      18001000 18001000).accounts.head?.map (·.id) = some "a" ∧
    (get (apply fiveHours pinnedStrategy anchoredSelect).affinityByKey alphaKey).map (·.accountId) = some "a" := by
  have start : (machine fiveHours).Reachable pinnedStrategy := Machine.runReachable pinnedRun rfl (by rfl)
  have pinned : (watch fiveHours alphaKey "a").ReachableUnder (Spares fiveHours alphaKey "a") ⟨pinnedStrategy,1000⟩ :=
    Machine.reachableStart ⟨start,1000,by decide +kernel,by decide⟩
  have held : (watch fiveHours alphaKey "a").ReachableUnder (Spares fiveHours alphaKey "a")
      ⟨apply fiveHours pinnedStrategy heldSelect,1000⟩ := by
    refine Machine.reachableNext pinned (e := heldSelect) ⟨by decide +kernel,.inr ⟨by decide +kernel,fun _ => ?_⟩⟩ rfl
    exact ⟨accountOf "a" 10 (some 90000000),rfl,.inr (by decide +kernel)⟩
  constructor
  · refine ((affinityStable fiveHours).1 alphaKey "a" _ held).2 bothAccounts (requestOn "alpha" none) 18001000 18001000 ?_
      (by decide +kernel) (by decide +kernel) (by decide +kernel)
    exact ⟨by decide +kernel,.inr ⟨by decide +kernel,fun _ => ⟨accountOf "a" 10 none,rfl,.inl (by decide +kernel)⟩⟩⟩
  · have live : ¬ expires fiveHours ⟨"a",1000⟩ anchoredSelect := by
      rintro ⟨-,late⟩
      exact absurd late (by decide +kernel)
    have kept : get (apply fiveHours pinnedStrategy anchoredSelect).affinityByKey alphaKey = some ⟨"a",18001000⟩ := by
      decide +kernel
    have same := (affinityStable fiveHours).2 pinnedStrategy start anchoredSelect (requestOn "alpha" (some "opus"))
      ⟨digest "project:alpha\x00opus",some alphaKey⟩ alphaKey ⟨"a",1000⟩ ⟨"a",18001000⟩
      rfl (by decide +kernel) rfl (by decide +kernel) (by decide +kernel) live kept
    exact (congrArg _ kept).trans (congrArg some same)

/-- A pin is lost when its account is held for long, when another request is selected at a
clock far ahead, and is not asked by a bypassing request; an anchor is, when it has expired. -/
theorem affinityLost :
    (∃ s, (machine fiveHours).run .start (pinnedRun ++ [heldSelect]) = some s ∧
      (select fiveHours s bothAccounts (requestOn "alpha" none) 36001000 36001000).accounts.map (·.id) = ["b","a"]) ∧
    (∃ s, (machine fiveHours).run .start (pinnedRun ++ [.select bothAccounts (requestOn "beta" none) 90000000 90000000]) = some s ∧
      (select fiveHours s bothAccounts (requestOn "alpha" none) 2000 2000).accounts.map (·.id) = ["b","a"]) ∧
    (∃ s, (machine fiveHours).run .start pinnedRun = some s ∧
      (select fiveHours s bothAccounts { requestOn "alpha" none with internal := true,bypassHeader := some "true" } 2000 2000).accounts.map (·.id) = ["b","a"]) ∧
    ∃ s, (machine fiveHours).run .start [.select [accountOf "a" 10 none] (requestOn "alpha" (some "opus")) 1000 1000] = some s ∧
      get s.affinityByKey alphaKey = some ⟨"a",1000⟩ ∧
      get (select fiveHours s [accountOf "b" 0 none] (requestOn "alpha" (some "haiku")) 18001001 18001001).strategy.affinityByKey alphaKey =
        some ⟨"b",18001001⟩ := by
  refine ⟨⟨_,rfl,?_⟩,⟨_,rfl,?_⟩,⟨_,rfl,?_⟩,_,rfl,?_,?_⟩
  all_goals decide +kernel

end Clankermux.LoadBalancer
