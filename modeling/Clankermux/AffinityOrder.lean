import Clankermux.SessionStrategy

/-! The pins stay in the order they were last used in, whatever the clock does and
whatever is imported, so that pruning may stop at the first live one. -/
namespace Clankermux.LoadBalancer
open InsertionMap RecencyMap

structure Recent (s : SessionStrategy) : Prop where
  ordered : Ordered Affinity.lastUsedAt s.affinityByKey
  below : Below Affinity.lastUsedAt s.lastAffinityStamp s.affinityByKey
  unique : (keys s.affinityByKey).Nodup

structure Tidy (cfg : Config) (s : SessionStrategy) : Prop extends Recent s where
  fits : s.affinityByKey.length ≤ cfg.maxAffinityEntries

structure PrunesExactly (cfg : Config) (s : SessionStrategy) (now : Int) : Prop where
  stale : sweep Affinity.lastUsedAt (now - cfg.sessionDurationMs) s.affinityByKey =
    s.affinityByKey.filter (fun entry => now - cfg.sessionDurationMs ≤ entry.2.lastUsedAt)
  kept : s.affinityByKey.filter (fun entry => now - cfg.sessionDurationMs ≤ entry.2.lastUsedAt) =
    overflow cfg.maxAffinityEntries (sweep Affinity.lastUsedAt (now - cfg.sessionDurationMs) s.affinityByKey) ++
      (pruneAffinity cfg s now).affinityByKey
  least : ∀ dropped ∈ overflow cfg.maxAffinityEntries (sweep Affinity.lastUsedAt (now - cfg.sessionDurationMs) s.affinityByKey),
    ∀ entry ∈ (pruneAffinity cfg s now).affinityByKey, dropped.2.lastUsedAt ≤ entry.2.lastUsedAt

variable {cfg : Config} {s : SessionStrategy}

theorem Recent.prunesExactly (recent : Recent s) (now : Int) : PrunesExactly cfg s now := by
  have stale : sweep Affinity.lastUsedAt (now - cfg.sessionDurationMs) s.affinityByKey =
      s.affinityByKey.filter (fun entry => now - cfg.sessionDurationMs ≤ entry.2.lastUsedAt) := recent.ordered.sweepEqFilter
  refine ⟨stale,?_,?_⟩
  · rw [← stale]
    exact (overflowAppend _ _).symm
  · exact (recent.ordered.sublist sweepSuffix.sublist).overflowLeast

theorem Recent.sublist {left : InsertionMap String Affinity} {changes pruned}
    (recent : Recent s) (sub : List.Sublist left s.affinityByKey) :
    Recent { s with affinityByKey := left,affinityChanges := changes,capacityPruned := pruned } :=
  ⟨recent.ordered.sublist sub,recent.below.sublist sub,nodupSublist recent.unique sub⟩

theorem Tidy.sublist {left : InsertionMap String Affinity} {changes pruned}
    (tidy : Tidy cfg s) (sub : List.Sublist left s.affinityByKey) :
    Tidy cfg { s with affinityByKey := left,affinityChanges := changes,capacityPruned := pruned } :=
  ⟨tidy.toRecent.sublist sub,sub.length_le.trans tidy.fits⟩

theorem Recent.pruned (recent : Recent s) (cfg : Config) (now : Int) : Tidy cfg (pruneAffinity cfg s now) :=
  ⟨recent.sublist (cappedSublist.trans sweepSuffix.sublist),lengthCapped⟩

theorem Recent.recorded (recent : Recent s) (mapKeys : MapKeys) (accountId : String) (now : Int) :
    Recent (recordAffinity s mapKeys accountId now) := by
  obtain ⟨stamp,taken⟩ : ∃ stamp, stamp = if now > s.lastAffinityStamp then now else s.lastAffinityStamp := ⟨_,rfl⟩
  have up : s.lastAffinityStamp ≤ stamp := by rw [taken]; split <;> omega
  have below := recent.below.weaken up
  have pinnedOrdered : Ordered Affinity.lastUsedAt (touch s.affinityByKey mapKeys.pin ⟨accountId,stamp⟩) :=
    recent.ordered.touch below
  have pinnedBelow : Below Affinity.lastUsedAt stamp (touch s.affinityByKey mapKeys.pin ⟨accountId,stamp⟩) :=
    below.touch (le_refl stamp)
  have pinnedUnique : (keys (touch s.affinityByKey mapKeys.pin ⟨accountId,stamp⟩)).Nodup := nodupTouch recent.unique
  unfold recordAffinity
  rw [← taken]
  cases mapKeys.anchor with
  | none => exact ⟨pinnedOrdered,pinnedBelow,pinnedUnique⟩
  | some anchor => exact ⟨pinnedOrdered.touch pinnedBelow,pinnedBelow.touch (le_refl stamp),nodupTouch pinnedUnique⟩

theorem Tidy.remembered (tidy : Tidy cfg s) (request : RequestMeta) (account : Account) (now : Int) :
    Tidy cfg (rememberAffinity cfg s request account now) := by
  unfold rememberAffinity
  split
  · exact tidy
  · exact (tidy.toRecent.recorded _ _ _).pruned cfg now

theorem Recent.resolved (recent : Recent s) (cfg : Config) (accounts : List Account) (key : Option String) (now : Int) :
    Tidy cfg (resolveAffinity cfg s accounts key now).1 := by
  have pruned := recent.pruned cfg now
  unfold resolveAffinity
  cases key with
  | none => exact pruned
  | some key =>
    simp only
    split
    · exact pruned
    split
    · exact pruned.sublist deleteSublist
    split
    · exact pruned
    split
    · exact pruned.sublist deleteSublist
    · exact pruned

theorem mergedUnique {now} (pins : List AffinityPin) {m}
    (unique : (keys m).Nodup) : (keys (pins.foldl (mergePin cfg now) m)).Nodup := by
  induction pins generalizing m with
  | nil => exact unique
  | cons pin rest ih =>
    refine ih ?_
    unfold mergePin
    split
    · exact unique
    simp only
    split
    · exact unique
    split
    · exact unique
    · exact nodupTouch unique

theorem foldLast (m : InsertionMap String Affinity) (last : Int) :
    let result := m.foldl (fun last entry => if entry.2.lastUsedAt > last then entry.2.lastUsedAt else last) last
    last ≤ result ∧ Below Affinity.lastUsedAt result m := by
  induction m generalizing last with
  | nil => exact ⟨le_refl last,fun _ inside => by cases inside⟩
  | cons head rest ih =>
    obtain ⟨up,below⟩ := ih (if head.2.lastUsedAt > last then head.2.lastUsedAt else last)
    have both : last ≤ (if head.2.lastUsedAt > last then head.2.lastUsedAt else last) ∧
        head.2.lastUsedAt ≤ (if head.2.lastUsedAt > last then head.2.lastUsedAt else last) := by
      split <;> omega
    refine ⟨both.1.trans up,?_⟩
    intro entry inside
    rcases List.mem_cons.mp inside with rfl | tail
    · exact both.2.trans up
    · exact below entry tail

def mergedPins (cfg : Config) (s : SessionStrategy) (pins : List AffinityPin) (now : Int) : InsertionMap String Affinity :=
  (pins.foldl (mergePin cfg now) s.affinityByKey).insertionSort (fun a b => a.2.lastUsedAt ≤ b.2.lastUsedAt)

theorem mergedOrdered (cfg : Config) (s : SessionStrategy) (pins : List AffinityPin) (now : Int) :
    Ordered Affinity.lastUsedAt (mergedPins cfg s pins now) := by
  have total : Std.Total (fun a b : String × Affinity => a.2.lastUsedAt ≤ b.2.lastUsedAt) := ⟨fun _ _ => le_total _ _⟩
  have trans : IsTrans (String × Affinity) (fun a b => a.2.lastUsedAt ≤ b.2.lastUsedAt) := ⟨fun _ _ _ => le_trans⟩
  exact List.pairwise_insertionSort _ _

theorem Tidy.imported (tidy : Tidy cfg s) (pins : List AffinityPin) (now : Int) : Tidy cfg (importAffinity cfg s pins now) := by
  unfold importAffinity
  split
  · have perm := List.perm_insertionSort (fun a b : String × Affinity => a.2.lastUsedAt ≤ b.2.lastUsedAt)
      (pins.foldl (mergePin cfg now) s.affinityByKey)
    have unique : (keys (mergedPins cfg s pins now)).Nodup :=
      (perm.map Prod.fst).nodup_iff.mpr (mergedUnique pins tidy.unique)
    have sorted := mergedOrdered cfg s pins now
    exact ⟨⟨sorted.sublist cappedSublist,(foldLast _ _).2,nodupSublist unique cappedSublist⟩,lengthCapped⟩
  · exact tidy

theorem importedLeast {pins now} (merges : mergesPin cfg now s.affinityByKey pins = true) :
    ∀ dropped ∈ overflow cfg.maxAffinityEntries (mergedPins cfg s pins now),
      ∀ entry ∈ (importAffinity cfg s pins now).affinityByKey, dropped.2.lastUsedAt ≤ entry.2.lastUsedAt := by
  unfold importAffinity
  rw [if_pos merges]
  exact (mergedOrdered cfg s pins now).overflowLeast

theorem Tidy.picked (tidy : Tidy cfg s) (account : Account) : Tidy cfg (recordComparatorPick s account) :=
  ⟨⟨tidy.ordered,tidy.below,tidy.unique⟩,tidy.fits⟩

variable {accounts : List Account} {request : RequestMeta} {previous : Option String} {now clock : Int}

section
variable (tidy : Tidy cfg s)
include tidy

theorem Tidy.hit (account : Account) :
    Tidy cfg (selectHit cfg s accounts request account previous now clock).strategy := tidy.remembered _ _ _

theorem Tidy.hold (heldAccountId : String) :
    Tidy cfg (selectHold cfg s accounts request heldAccountId previous now clock).strategy := by
  unfold selectHold
  split
  · exact tidy
  · exact tidy.picked _

theorem Tidy.fresh (decision : String) :
    Tidy cfg (selectFresh cfg s accounts request decision previous now clock).strategy := by
  unfold selectFresh
  split
  · exact tidy
  · exact (tidy.remembered _ _ _).picked _

theorem Tidy.global (bypassSession : Bool) :
    Tidy cfg (selectGlobal cfg s accounts request bypassSession now clock).strategy := by
  unfold selectGlobal
  cases bypassSession with
  | true =>
    simp only [if_true]
    split
    · exact tidy
    split
    · exact tidy
    · exact tidy.picked _
  | false =>
    simp only [Bool.false_eq_true]
    split
    · exact tidy.remembered _ _ _
    split
    · exact tidy
    · exact (tidy.remembered _ _ _).picked _

theorem Tidy.selected : Tidy cfg (select cfg s accounts request now clock).strategy := by
  unfold select
  split
  · exact tidy.global true
  · have resolved := tidy.toRecent.resolved cfg (autoUnpause cfg accounts now)
      ((getAffinityMapKeys cfg request).map (·.pin)) now
    simp only
    split
    · exact resolved.hit _
    · exact resolved.hold _
    · exact resolved.fresh _
    · split
      · exact resolved.hit _
      · split
        · exact resolved.fresh _
        · exact resolved.global false

theorem Tidy.apply (ev : Event) : Tidy cfg (apply cfg s ev) := by
  cases ev with
  | select accounts request now clock => exact tidy.selected
  | reassignAffinity request account now clock =>
    change Tidy cfg (reassignAffinity cfg s request account now clock).1
    unfold reassignAffinity
    split
    · exact tidy
    split
    · exact tidy
    · exact tidy.remembered _ _ _
  | followAffinity request fromAccountId account now =>
    change Tidy cfg (followAffinity cfg s request fromAccountId account now)
    unfold followAffinity
    split
    · exact tidy
    split
    · exact tidy
    split
    · exact tidy.remembered _ _ _
    · exact tidy
  | importAffinity pins now => exact tidy.imported pins now
  | clearAffinityForAccount accountId => exact tidy.sublist List.filter_sublist

end

theorem affinityTidy (reach : (machine cfg).Reachable s) : Tidy cfg s := by
  refine reach.invariant (P := Tidy cfg) ?_ (fun s ev t tidy stepped => ?_)
  · rintro s rfl
    exact ⟨⟨List.Pairwise.nil,fun entry inside => absurd inside List.not_mem_nil,List.nodup_nil⟩,Nat.zero_le _⟩
  · cases stepped
    exact tidy.apply ev

/-- The pins stay ordered, below the last stamp and within the cap, and every prune (the
one of a resolution and the one after a write) and every import drops exactly what it should. -/
theorem affinityOrdered (reach : (machine cfg).Reachable s) :
    Tidy cfg s ∧ ∀ now, PrunesExactly cfg s now ∧
      (∀ mapKeys accountId, PrunesExactly cfg (recordAffinity s mapKeys accountId now) now ∧
        ∀ accounts key, PrunesExactly cfg
          (recordAffinity (resolveAffinity cfg s accounts key now).1 mapKeys accountId now) now) ∧
      ∀ pins, mergesPin cfg now s.affinityByKey pins = true →
        ∀ dropped ∈ overflow cfg.maxAffinityEntries (mergedPins cfg s pins now),
          ∀ entry ∈ (importAffinity cfg s pins now).affinityByKey, dropped.2.lastUsedAt ≤ entry.2.lastUsedAt := by
  have tidy := affinityTidy reach
  refine ⟨tidy,fun now => ⟨tidy.toRecent.prunesExactly now,fun mapKeys accountId => ⟨?_,fun accounts key => ?_⟩,?_⟩⟩
  · exact (tidy.toRecent.recorded mapKeys accountId now).prunesExactly now
  · exact ((tidy.toRecent.resolved cfg accounts key now).toRecent.recorded mapKeys accountId now).prunesExactly now
  · exact fun pins merges => importedLeast merges

def digest (value : String) : String :=
  if value = "project:alpha" then "a2e485bc9476f7968f733663ab3881ed76699334845aba10e05455c16cb12c00"
  else if value = "project:beta" then "89b6dc3fb439088afaef751e408fa9646bb5d383a70f9c8a6c496959ff080cfe"
  else if value = "project:alpha\x00opus" then "50b281a252ae89beb96aaa3845db04d70f616ce9d089c0560c9cef050dcc3ecf"
  else if value = "project:alpha\x00haiku" then "ebae6beb700bbe641212a5c5ae9acec64a8f37752dd029993595adc25eb9c0a5"
  else ""

def alphaKey : String := digest "project:alpha"

def fiveHours : Config := ⟨5 * 60 * 60 * 1000,maxAffinityEntries,none,digest⟩

def accountOf (id : String) (priority : Int) (rateLimitedUntil : Option Int) : Account :=
  ⟨id,"codex",priority,false,false,none,false,none,rateLimitedUntil,
    rateLimitedUntil.map fun _ => .upstream529OverloadedNoReset,none,0,none,none⟩

def requestOn (project : String) (model : Option String) : RequestMeta :=
  ⟨none,none,none,model,some project,false,none,none⟩

def unorderedRun : List Event :=
  [.select [accountOf "a" 10 none] (requestOn "alpha" none) 1000 1000,
   .importAffinity [⟨digest "project:beta","b",some 9000⟩,⟨"unknown","b",none⟩,⟨alphaKey,"b",some 400⟩] 900,
   .select [accountOf "a" 10 none] (requestOn "alpha" (some "opus")) 500 500]

theorem affinityOrderedBackwards : ∃ s, (machine fiveHours).run .start unorderedRun = some s ∧
    s.affinityByKey.length = 3 ∧ s.lastAffinityStamp = 1000 ∧ Tidy fiveHours s :=
  ⟨_,rfl,by decide +kernel,by decide +kernel,(affinityOrdered (Machine.runReachable unorderedRun rfl rfl)).1⟩

/-- What a fresh strategy takes over of the pins: the live ones, none of them used after the import. -/
def restored (cfg : Config) (pins : InsertionMap String Affinity) (now : Int) : InsertionMap String Affinity :=
  (pins.map (fun entry => (entry.1,⟨entry.2.accountId,min entry.2.lastUsedAt now⟩))).filter (fun entry =>
    now - cfg.sessionDurationMs ≤ entry.2.lastUsedAt)

theorem exportMerged (unique : (keys s.affinityByKey).Nodup) :
    (exportAffinity s).foldl (mergePin cfg now) [] = restored cfg s.affinityByKey now := by
  unfold exportAffinity
  generalize s.affinityByKey = pins at unique
  induction pins using List.reverseRecOn with
  | nil => rfl
  | append_singleton rest last ih =>
    rw [keys,List.map_append,List.nodup_append] at unique
    have absent : last.1 ∉ keys (restored cfg rest now) := by
      intro inside
      obtain ⟨_,kept,same⟩ := List.mem_map.mp inside
      obtain ⟨_,was,rfl⟩ := List.mem_map.mp (List.mem_of_mem_filter kept)
      exact unique.2.2 _ (List.mem_map_of_mem was) _ List.mem_cons_self same
    have grown : restored cfg (rest ++ [last]) now = restored cfg rest now ++ restored cfg [last] now := by simp [restored]
    rw [List.map_append,List.foldl_append,ih unique.1,grown]
    generalize restored cfg rest now = merged at absent
    simp only [List.map_cons,List.foldl_cons,mergePin,getOfNotMem absent,touchEqAppend,deleteAbsent absent,restored,List.filter_cons]
    split <;> simp_all

theorem mergesNothing {m pins} (nothing : ¬ mergesPin cfg now m pins = true) : pins.foldl (mergePin cfg now) m = m := by
  induction pins with
  | nil => rfl
  | cons pin rest ih =>
    rw [mergesPin,Bool.or_eq_true,not_or] at nothing
    have same : mergePin cfg now m pin = m := by
      unfold mergePin
      split <;> simp_all
    rw [List.foldl_cons,same,ih nothing.2]

theorem restartKeepsPins (cfg : Config) (events : List Event) (now : Int) :
    let s := events.foldl (apply cfg) .start
    (importAffinity cfg .start (exportAffinity s) now).affinityByKey = restored cfg s.affinityByKey now := by
  intro s
  have tidy : Tidy cfg s := List.foldlRecOn events _ (affinityTidy (Machine.reachableStart rfl)) (fun _ tidy ev _ => tidy.apply ev)
  have merged : (exportAffinity s).foldl (mergePin cfg now) [] = restored cfg s.affinityByKey now := exportMerged tidy.unique
  unfold importAffinity
  split
  · have ordered : (restored cfg s.affinityByKey now).Pairwise (fun a b => a.2.lastUsedAt ≤ b.2.lastUsedAt) :=
      .filter _ (List.pairwise_map.mpr (tidy.ordered.imp (min_le_min_right now)))
    have fits : (restored cfg s.affinityByKey now).length ≤ cfg.maxAffinityEntries :=
      (List.length_filter_le _ _).trans ((List.length_map _).trans_le tidy.fits)
    change capped _ (((exportAffinity s).foldl (mergePin cfg now) []).insertionSort _) = _
    rw [merged,ordered.insertionSort_eq,capped,Nat.sub_eq_zero_of_le fits,List.drop_zero]
  · rename_i nothing
    exact (mergesNothing nothing).symm.trans merged

end Clankermux.LoadBalancer
