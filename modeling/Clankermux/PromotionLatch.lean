import Clankermux.SessionPromotion

/-! What the tracker keeps to as long as no tracked session without its latch is promoted by a turn in
static mode, and no streak is left over when dynamic mode begins. -/
namespace Clankermux.SessionPromotion
open InsertionMap RecencyMap

structure Obeys (w : Watched) : Prop where
  latch : ∀ turn life, w.tracker.mode = .dynamic → w.lives turn.sessionKey = some life → life.everPromoted = true →
    w.tracker.isPromoted turn.sessionKey = false → (w.next (.observe turn)).tracker.isPromoted turn.sessionKey = true →
    turn.now - life.lastTurn ≥ IDLE_GAP_FOR_PROMOTION_MS
  destick : ∀ turn life, w.tracker.mode = .dynamic → w.lives turn.sessionKey = some life →
    w.tracker.isPromoted turn.sessionKey = true →
    ((w.next (.observe turn)).tracker.isPromoted turn.sessionKey = false ↔
      turn.now - life.lastTurn < IDLE_GAP_FOR_PROMOTION_MS ∧ life.active + 1 = DESTICK_AFTER_ACTIVE_TURNS)
  sticky : ∀ call key after, w.tracker.mode = .static → w.tracker.isPromoted key = true →
    (w.next call).tracker.entries.get key = some after → after.promoted = true
  tracked : ∀ turn, w.tracker.mode ≠ .off → (w.next (.observe turn)).tracker.entries.get turn.sessionKey ≠ none
  off : w.tracker.mode = .off → w.tracker.entries = [] ∧ ∀ turn, (w.tracker.observe turn).1 = false
  cap : w.tracker.entries.length ≤ MAX_PROMOTION_TRACKER_ENTRIES
  recent : ∀ turn gone kept lost held, w.lives gone = some lost → w.lives kept = some held →
    (w.next (.observe turn)).tracker.entries.get gone = none → (w.next (.observe turn)).tracker.entries.get kept ≠ none →
    kept ≠ turn.sessionKey → lost.place < held.place

def Call.apart (w : Watched) : Call → Bool
  | .observe turn =>
    !(w.tracker.mode = .static && decide (turn.estimatedTokens ≥ turn.minTokens) &&
      (w.tracker.entries.get turn.sessionKey).any (fun entry => !entry.establishedOnce))
  | .setMode .dynamic => w.tracker.mode = .dynamic || w.tracker.entries.all (fun (_,entry) => !entry.promoted || entry.activeStreak == 0)
  | _ => true

structure Matches (mode : CacheWarmingMode) (entry : PromotionEntry) (life : Life) : Prop where
  seen : entry.lastSeenTs = life.lastTurn
  latched : entry.establishedOnce = life.everPromoted
  ever : entry.promoted = true → life.everPromoted = true
  streak : mode = .dynamic → entry.promoted = true → entry.activeStreak = life.active ∧ life.active < DESTICK_AFTER_ACTIVE_TURNS

variable {w : Watched} {call : Call} {existing : Option PromotionEntry} {life : Option Life} {now : Int} {place : Nat}

theorem staticMatches {eligible} (same : Option.Rel (Matches .static) existing life)
    (apart : eligible = true → existing.any (fun entry => !entry.establishedOnce) = false) :
    Matches .static (staticTurn existing now eligible)
      (Life.turn life now place (existing.elim false PromotionEntry.promoted) (staticTurn existing now eligible).promoted) := by
  cases same with
  | none => exact ⟨rfl,by simp [staticTurn,Life.turn],by simp [Life.turn],by rintro ⟨⟩⟩
  | @some entry l same =>
    refine ⟨rfl,?_,fun promoted => ?_,by rintro ⟨⟩⟩
    · have latched := same.latched
      have ever := same.ever
      cases eligible with
      | false =>
        cases promoted : entry.promoted with
        | false => simp [staticTurn,Life.turn,latched,promoted]
        | true => simp [staticTurn,Life.turn,latched,ever promoted]
      | true =>
        have set : entry.establishedOnce = true := by simpa using apart rfl
        simp [staticTurn,Life.turn,set]
    · show (l.everPromoted || _) = true
      rw [promoted,Bool.or_true]

theorem dynamicMatches (same : Option.Rel (Matches .dynamic) existing life) :
    Matches .dynamic (dynamicTurn existing now)
      (Life.turn life now place (existing.elim false PromotionEntry.promoted) (dynamicTurn existing now).promoted) := by
  cases same with
  | none => exact ⟨rfl,rfl,by simp [Life.turn],by simp [dynamicTurn,PROMOTE_AFTER_TURNS]⟩
  | @some entry l same =>
    obtain ⟨seen,latched,ever,streak⟩ := same
    constructor <;> grind [dynamicTurn,Life.turn,DESTICK_AFTER_ACTIVE_TURNS]
variable {entry : PromotionEntry}

theorem deStick {l} (same : Matches .dynamic entry l) (promoted : entry.promoted = true) :
    (dynamicTurn (some entry) now).promoted = false ↔
      now - l.lastTurn < IDLE_GAP_FOR_PROMOTION_MS ∧ l.active + 1 = DESTICK_AFTER_ACTIVE_TURNS := by
  obtain ⟨seen,_,_,streak⟩ := same
  have counted := streak rfl promoted
  grind [dynamicTurn]

theorem latchHolds {l} (same : Matches .dynamic entry l) (ever : l.everPromoted = true)
    (before : entry.promoted = false) (after : (dynamicTurn (some entry) now).promoted = true) :
    now - l.lastTurn ≥ IDLE_GAP_FOR_PROMOTION_MS := by
  have seen := same.seen
  have latched := same.latched
  grind [dynamicTurn]

structure Kept (w : Watched) : Prop where
  off : w.tracker.mode = .off → w.tracker.entries = []
  unique : (keys w.tracker.entries).Nodup
  cap : w.tracker.entries.length ≤ MAX_PROMOTION_TRACKER_ENTRIES
  same : ∀ key, Option.Rel (Matches w.tracker.mode) (w.tracker.entries.get key) (w.lives key)
  past : ∀ key life, w.lives key = some life → life.place < w.turns
  ordered : w.tracker.entries.Pairwise (fun a b => ∀ l l', w.lives a.1 = some l → w.lives b.1 = some l' → l.place < l'.place)

variable {key : String} {turn : Turn}

theorem placeNext {later} (found : (w.next call).lives key = some later) :
    (∃ turn, call = .observe turn ∧ turn.sessionKey = key) ∧ later.place = w.turns ∨
      ∃ earlier, w.lives key = some earlier ∧ earlier.place = later.place := by
  obtain ⟨entry,_,after⟩ := Option.bind_eq_some_iff.mp found
  unfold Watched.lifeAfter at after
  split at after
  · split at after
    · rename_i same
      subst same
      cases after
      exact .inl ⟨⟨_,rfl,rfl⟩,rfl⟩
    · exact .inr ⟨later,after,rfl⟩
  · split at after
    · obtain ⟨earlier,known,rfl⟩ := Option.map_eq_some_iff.mp after
      exact .inr ⟨earlier,known,rfl⟩
    · exact .inr ⟨later,after,rfl⟩
  · exact .inr ⟨later,after,rfl⟩

theorem Kept.pastNext (kept : Kept w) : ∀ key life, (w.next call).lives key = some life → life.place < (w.next call).turns := by
  intro key life found
  show life.place < w.turns + 1
  rcases placeNext found with ⟨_,same⟩ | ⟨earlier,known,same⟩
  · omega
  · have := kept.past key earlier known
    omega

theorem observedEntries (on : w.tracker.mode ≠ .off) : (w.next (.observe turn)).tracker.entries =
    enforceCap (touch w.tracker.entries turn.sessionKey (turnEntry w.tracker turn)) := congrArg Tracker.entries (observeOn on)

theorem entriesNext (w : Watched) (call : Call) : List.Sublist (w.next call).tracker.entries w.tracker.entries ∧
      (∀ turn, call = .observe turn → w.tracker.mode = .off) ∨
    ∃ turn entry, call = .observe turn ∧ w.tracker.mode ≠ .off ∧ entry = turnEntry w.tracker turn ∧
      (w.next call).tracker.mode = w.tracker.mode ∧
      (w.next call).tracker.entries = enforceCap (touch w.tracker.entries turn.sessionKey entry) := by
  cases call with
  | observe turn =>
    by_cases off : w.tracker.mode = .off
    · left
      refine ⟨?_,fun _ _ => off⟩
      show List.Sublist (w.tracker.observe turn).2.entries _
      rw [observeOff off]
    · refine .inr ⟨turn,_,rfl,off,rfl,?_,observedEntries off⟩
      show (w.tracker.observe turn).2.mode = _
      rw [observeOn off]
  | setMode mode =>
    refine .inl ⟨?_,by simp⟩
    show List.Sublist (w.tracker.setMode mode).entries _
    unfold Tracker.setMode
    split
    · exact List.nil_sublist _
    · exact List.Sublist.refl _
  | evict key => exact .inl ⟨deleteSublist,by simp⟩
  | clear => exact .inl ⟨List.nil_sublist _,by simp⟩

theorem placeObserved {later} (found : (w.next (.observe turn)).lives turn.sessionKey = some later) :
    later.place = w.turns := by
  obtain ⟨entry,_,after⟩ := Option.bind_eq_some_iff.mp found
  simp only [Watched.lifeAfter,if_true,Option.some.injEq] at after
  rw [← after]
  rfl

theorem Kept.orderedNext (kept : Kept w) : (w.next call).tracker.entries.Pairwise (fun a b => ∀ l l',
    (w.next call).lives a.1 = some l → (w.next call).lives b.1 = some l' → l.place < l'.place) := by
  rcases entriesNext w call with ⟨sub,apart⟩ | ⟨turn,entry,rfl,_,_,_,wrote⟩
  · have old : ∀ key later, (w.next call).lives key = some later → ∃ earlier, w.lives key = some earlier ∧ earlier.place = later.place := by
      intro key later found
      rcases placeNext found with ⟨⟨_,observed,_⟩,_⟩ | earlier
      · obtain ⟨entry,got,_⟩ := Option.bind_eq_some_iff.mp found
        have inside := sub.subset (memOfGet got)
        rw [kept.off (apart _ observed)] at inside
        cases inside
      · exact earlier
    refine (kept.ordered.sublist sub).imp (fun before l l' here there => ?_)
    obtain ⟨first,here,same⟩ := old _ _ here
    obtain ⟨second,there,same'⟩ := old _ _ there
    rw [← same,← same']
    exact before first second here there
  · have old : ∀ a ∈ w.tracker.entries.delete turn.sessionKey, ∀ later,
        (w.next (.observe turn)).lives a.1 = some later → ∃ earlier, w.lives a.1 = some earlier ∧ earlier.place = later.place := by
      intro a inside later found
      rcases placeNext found with ⟨⟨_,observed,same⟩,_⟩ | earlier
      · cases observed
        have other := (memKeysDelete.mp (List.mem_map.mpr ⟨a,inside,rfl⟩)).2
        exact absurd same.symm other
      · exact earlier
    rw [wrote]
    refine List.Pairwise.sublist capSublist ?_
    rw [touchEqAppend]
    refine List.pairwise_append.mpr ⟨?_,List.pairwise_singleton _ _,?_⟩
    · refine (kept.ordered.sublist deleteSublist).imp_of_mem (fun inA inB before l l' here there => ?_)
      obtain ⟨first,here,same⟩ := old _ inA _ here
      obtain ⟨second,there,same'⟩ := old _ inB _ there
      rw [← same,← same']
      exact before first second here there
    · intro a inA b last l l' here there
      cases List.mem_singleton.mp last
      obtain ⟨first,known,same⟩ := old a inA l here
      rw [placeObserved there,← same]
      exact kept.past _ _ known

theorem matchesTurn (on : w.tracker.mode ≠ .off)
    (same : Option.Rel (Matches w.tracker.mode) (w.tracker.entries.get turn.sessionKey) (w.lives turn.sessionKey))
    (apart : Call.apart w (.observe turn) = true) : Matches w.tracker.mode (turnEntry w.tracker turn)
      (Life.turn (w.lives turn.sessionKey) turn.now w.turns (w.tracker.isPromoted turn.sessionKey) (turnEntry w.tracker turn).promoted) := by
  rw [Tracker.isPromoted,if_neg on]
  unfold turnEntry
  cases mode : w.tracker.mode with
  | off => exact absurd mode on
  | static =>
    rw [mode] at same
    refine staticMatches same (fun eligible => ?_)
    simpa [Call.apart,mode,of_decide_eq_true eligible] using apart
  | dynamic =>
    rw [mode] at same
    exact dynamicMatches same

theorem setModeMatches {mode l}
    (known : w.lives key = some l) (same : Matches w.tracker.mode entry l)
    (unstreaked : mode = .dynamic → w.tracker.mode = .dynamic ∨ (entry.promoted = true → entry.activeStreak = 0)) (after : Bool) :
    ∃ life, w.lifeAfter key after (.setMode mode) = some life ∧ Matches mode entry life := by
  by_cases switched : mode = .dynamic ∧ w.tracker.mode ≠ .dynamic
  · refine ⟨{l with active := 0},by simp only [Watched.lifeAfter,if_pos switched,known,Option.map_some],same.seen,same.latched,same.ever,?_⟩
    intro _ promoted
    exact ⟨(unstreaked switched.1).resolve_left switched.2 promoted,Nat.zero_lt_succ _⟩
  · refine ⟨l,by simp only [Watched.lifeAfter,if_neg switched,known],same.seen,same.latched,same.ever,fun dynamic => ?_⟩
    exact same.streak (by_contra fun other => switched ⟨dynamic,other⟩)

theorem Kept.lifeOf (kept : Kept w) (here : w.tracker.entries.get key = some entry) :
    ∃ life, w.lives key = some life ∧ Matches w.tracker.mode entry life := by
  have same := kept.same key
  rw [here] at same
  generalize w.lives key = life at same
  cases same with
  | some same => exact ⟨_,rfl,same⟩

theorem Kept.sameNext (kept : Kept w) (apart : Call.apart w call = true) :
    ∀ key, Option.Rel (Matches (w.next call).tracker.mode) ((w.next call).tracker.entries.get key) ((w.next call).lives key) := by
  intro key
  have known := kept.same key
  suffices later : ∀ entry, (w.next call).tracker.entries.get key = some entry →
      ∃ life, w.lifeAfter key entry.promoted call = some life ∧ Matches (w.next call).tracker.mode entry life by
    show Option.Rel _ _ (((w.next call).tracker.entries.get key).bind _)
    cases got : (w.next call).tracker.entries.get key with
    | none => exact .none
    | some entry =>
      obtain ⟨life,after,same⟩ := later entry got
      rw [Option.bind_some,after]
      exact .some same
  intro entry got
  rcases entriesNext w call with ⟨sub,off⟩ | ⟨turn,written,rfl,on,made,mode,wrote⟩
  · cases call with
    | observe turn =>
      have inside := sub.subset (memOfGet got)
      rw [kept.off (off _ rfl)] at inside
      cases inside
    | setMode mode =>
      change (w.tracker.setMode mode).entries.get key = _ at got
      show ∃ life, _ ∧ Matches (w.tracker.setMode mode).mode entry life
      unfold Tracker.setMode at got ⊢
      split at got
      · cases got
      · rename_i on
        obtain ⟨l,here,same⟩ := kept.lifeOf got
        rw [if_neg on]
        refine setModeMatches here same (fun dynamic => ?_) _
        subst dynamic
        simp only [Call.apart,Bool.or_eq_true,decide_eq_true_eq,List.all_eq_true] at apart
        refine apart.imp_right (fun all promoted => ?_)
        simpa [promoted] using all _ (memOfGet got)
    | evict gone =>
      change (w.tracker.entries.delete gone).get key = _ at got
      rw [getDelete] at got
      split at got
      · cases got
      · exact kept.lifeOf got
    | clear => cases got
  · rw [wrote] at got
    rw [mode]
    by_cases self : key = turn.sessionKey
    · subst self made
      rw [capKeepsSelf] at got
      cases got
      exact ⟨_,if_pos rfl,matchesTurn on known apart⟩
    · have unchanged : w.tracker.entries.get key = some entry := by
        rcases capKeepsOther key (nodupTouch kept.unique) with gone | same
        · cases gone ▸ got
        · rw [← getTouchOther self,← same]
          exact got
      obtain ⟨life,here,same⟩ := kept.lifeOf unchanged
      exact ⟨life,(if_neg self).trans here,same⟩

theorem Kept.next (kept : Kept w) (apart : Call.apart w call = true) : Kept (w.next call) := by
  refine ⟨fun off => ?_,?_,?_,kept.sameNext apart,kept.pastNext,kept.orderedNext⟩
  · cases call with
    | setMode mode =>
      change (w.tracker.setMode mode).mode = .off at off
      show (w.tracker.setMode mode).entries = []
      unfold Tracker.setMode at off ⊢
      split at off
      · rename_i into
        rw [if_pos into]
      · contradiction
    | observe =>
      rcases entriesNext w _ with ⟨sub,was⟩ | ⟨_,_,_,on,_,mode,_⟩
      · exact List.sublist_nil.mp (kept.off (was _ rfl) ▸ sub)
      · exact absurd (mode.symm.trans off) on
    | evict key =>
      have emptied : w.tracker.entries = [] := kept.off off
      exact List.sublist_nil.mp (emptied ▸ deleteSublist (m := w.tracker.entries))
    | clear => rfl
  · rcases entriesNext w call with ⟨sub,_⟩ | ⟨_,_,_,_,_,_,wrote⟩
    · exact kept.unique.sublist (sub.map _)
    · rw [wrote]
      exact (nodupTouch kept.unique).sublist (capSublist.map _)
  · rcases entriesNext w call with ⟨sub,_⟩ | ⟨_,_,_,_,_,_,wrote⟩
    · exact sub.length_le.trans kept.cap
    · rw [wrote]
      exact lengthCap

theorem keptReachable (reach : machine.ReachableUnder (fun w call => call.apart w = true) w) : Kept w := by
  refine reach.invariant ?_ ?_
  · rintro w rfl
    exact ⟨fun _ => rfl,List.nodup_nil,Nat.zero_le _,fun _ => .none,by rintro _ _ ⟨⟩,List.Pairwise.nil⟩
  · intro w call w' kept apart step
    cases step
    exact kept.next apart

theorem Kept.entryOf (kept : Kept w) {life} (known : w.lives key = some life) :
    ∃ entry, w.tracker.entries.get key = some entry ∧ Matches w.tracker.mode entry life := by
  have same := kept.same key
  rw [known] at same
  generalize w.tracker.entries.get key = entry at same
  cases same with
  | some same => exact ⟨_,rfl,same⟩

theorem observedPromoted (on : w.tracker.mode ≠ .off) :
    (w.next (.observe turn)).tracker.isPromoted turn.sessionKey = (turnEntry w.tracker turn).promoted := by
  show Tracker.isPromoted (w.tracker.observe turn).2 _ = _
  rw [observeOn on,Tracker.isPromoted,if_neg on]
  simp only [capKeepsSelf,Option.elim_some]

theorem Kept.recent (kept : Kept w) {gone other lost held} (lostLife : w.lives gone = some lost)
    (heldLife : w.lives other = some held) (dropped : (w.next (.observe turn)).tracker.entries.get gone = none)
    (stays : (w.next (.observe turn)).tracker.entries.get other ≠ none) (apart : other ≠ turn.sessionKey) :
    lost.place < held.place := by
  obtain ⟨entry,here,_⟩ := kept.entryOf lostLife
  have on : w.tracker.mode ≠ .off := by
    intro off
    rw [kept.off off] at here
    cases here
  rw [observedEntries on] at dropped stays
  have order : (touch w.tracker.entries turn.sessionKey (turnEntry w.tracker turn)).Pairwise (fun a b => b.1 ≠ turn.sessionKey →
      ∀ l l', w.lives a.1 = some l → w.lives b.1 = some l' → l.place < l'.place) := by
    rw [touchEqAppend]
    refine List.pairwise_append.mpr ⟨?_,List.pairwise_singleton _ _,?_⟩
    · refine List.Pairwise.imp ?_ (kept.ordered.sublist deleteSublist)
      intro a b before _
      exact before
    · intro a _ b last ne
      cases List.mem_singleton.mp last
      exact absurd rfl ne
  have inside : (gone,entry) ∈ touch w.tracker.entries turn.sessionKey (turnEntry w.tracker turn) := by
    refine memOfGet ((getTouchOther ?_).trans here)
    rintro rfl
    simp [capKeepsSelf] at dropped
  obtain ⟨still,there⟩ := Option.ne_none_iff_exists'.mp stays
  rw [enforceCapCapped] at dropped there
  rw [← overflowAppend MAX_PROMOTION_TRACKER_ENTRIES (touch _ _ _)] at order inside
  rcases List.mem_append.mp inside with out | in_
  · exact (List.pairwise_append.mp order).2.2 _ out _ (memOfGet there) apart lost held lostLife heldLife
  · obtain ⟨value,found⟩ := getOfMemKeys (List.mem_map.mpr ⟨_,in_,rfl⟩)
    cases found.symm.trans dropped

theorem Kept.sticky (kept : Kept w) {after} (static : w.tracker.mode = .static)
    (before : w.tracker.isPromoted key = true) (here : (w.next call).tracker.entries.get key = some after) : after.promoted = true := by
  have on : w.tracker.mode ≠ .off := by rw [static]; decide
  have unchanged : w.tracker.entries.get key = some after → after.promoted = true := by
    intro same
    simpa only [Tracker.isPromoted,if_neg on,same,Option.elim_some] using before
  rcases entriesNext w call with ⟨sub,_⟩ | ⟨turn,written,rfl,_,made,_,wrote⟩
  · exact unchanged (getOfMem kept.unique (sub.subset (memOfGet here)))
  · rw [wrote] at here
    by_cases self : key = turn.sessionKey
    · subst self made
      rw [capKeepsSelf] at here
      cases here
      rw [Tracker.isPromoted,if_neg on] at before
      simp [turnEntry,static,staticTurn,before]
    · rcases capKeepsOther key (nodupTouch kept.unique) with gone | same
      · cases gone ▸ here
      · exact unchanged ((getTouchOther self).symm.trans (same.symm.trans here))

theorem promotionLatched (reach : machine.ReachableUnder (fun w call => call.apart w = true) w) : Obeys w := by
  have kept := keptReachable reach
  refine ⟨?latch,?destick,?sticky,?tracked,fun off => ⟨kept.off off,fun _ => by rw [observeOff off]⟩,kept.cap,
    fun _ _ _ _ _ lost held gone stays apart => kept.recent lost held gone stays apart⟩
  case latch =>
    intro turn life dynamic known ever before after
    obtain ⟨entry,here,same⟩ := kept.entryOf known
    have on : w.tracker.mode ≠ .off := by rw [dynamic]; decide
    rw [observedPromoted on] at after
    simp only [Tracker.isPromoted,if_neg on,here] at before
    simp only [turnEntry,dynamic,here] at after
    exact latchHolds (dynamic ▸ same) ever before after
  case destick =>
    intro turn life dynamic known before
    obtain ⟨entry,here,same⟩ := kept.entryOf known
    have on : w.tracker.mode ≠ .off := by rw [dynamic]; decide
    simp only [Tracker.isPromoted,if_neg on,here] at before
    rw [observedPromoted on,turnEntry,dynamic,here]
    exact deStick (dynamic ▸ same) before
  case sticky =>
    intro call key after static before here
    exact kept.sticky static before here
  case tracked =>
    intro turn on
    rw [observedEntries on,capKeepsSelf]
    exact Option.some_ne_none _

def desticked : List Call :=
  .setMode .dynamic::(List.range 8).map (fun i => .observe ⟨"a",1000 * i,0,0⟩) ++
    [.setMode .static,.observe ⟨"b",8000,1,0⟩,.setMode .dynamic]

theorem promotionLatchedDesticked : ∃ w, machine.runUnder (fun w call => call.apart w) ⟨⟨.off,[]⟩,fun _ => none,0⟩ desticked = some w ∧
    Obeys w := by
  refine ⟨_,rfl,promotionLatched (Machine.runReachableUnder desticked rfl rfl)⟩

def unlatched : List Call :=
  .setMode .static::(List.range 2).map (fun i => .observe ⟨"a",1000 * i,i,1⟩) ++
    .setMode .dynamic::(List.range 5).map (fun i => .observe ⟨"a",1000 * (i + 2),1,1⟩)

theorem promotionUnlatched : ¬ ∀ w, machine.Reachable w → Obeys w := by
  intro all
  have obeys := all _ (Machine.runReachable unlatched rfl rfl)
  have gap := obeys.latch ⟨"a",7000,1,1⟩ _ rfl rfl rfl rfl rfl
  revert gap
  decide

end Clankermux.SessionPromotion
