import Clankermux.Machine
import Clankermux.RecencyMap

/-! The tracker that decides at request time which sessions write their prompt cache for an hour.
Beside it stands an onlooker that reads only the calls, which entries are there and which of them
are promoted: for every live entry it keeps whether the entry was ever promoted, when and as the
how manieth turn it was last observed, and its consecutive non-idle turns. -/
namespace Clankermux.SessionPromotion
open InsertionMap RecencyMap

def IDLE_GAP_FOR_PROMOTION_MS : Int := 3 * 60000
def DESTICK_AFTER_ACTIVE_TURNS : Nat := 5
def PROMOTE_AFTER_TURNS : Nat := 3
def MAX_PROMOTION_TRACKER_ENTRIES : Nat := 500

inductive CacheWarmingMode where
  | off
  | static
  | dynamic
  deriving DecidableEq

structure PromotionEntry where
  turnCount : Nat
  lastSeenTs : Int
  promoted : Bool
  establishedOnce : Bool
  activeStreak : Nat

abbrev Entries := InsertionMap String PromotionEntry

structure Tracker where
  mode : CacheWarmingMode
  entries : Entries

def enforceCap : Entries → Entries
  | [] => []
  | oldest::rest => if rest.length + 1 > MAX_PROMOTION_TRACKER_ENTRIES then enforceCap rest else oldest::rest

def staticTurn (existing : Option PromotionEntry) (now : Int) (eligible : Bool) : PromotionEntry :=
  let wasPromoted := existing.elim false PromotionEntry.promoted
  let promoted := wasPromoted || eligible
  { turnCount := existing.elim 0 PromotionEntry.turnCount + 1
    lastSeenTs := now
    promoted
    establishedOnce := existing.elim promoted PromotionEntry.establishedOnce
    activeStreak := 0 }

def dynamicTurn (existing : Option PromotionEntry) (now : Int) : PromotionEntry :=
  let turnCount := existing.elim 0 PromotionEntry.turnCount + 1
  let promoted := existing.elim false PromotionEntry.promoted
  let establishedOnce := existing.elim false PromotionEntry.establishedOnce
  let activeStreak := existing.elim 0 PromotionEntry.activeStreak
  let idle := existing.elim false (fun entry => decide (now - entry.lastSeenTs ≥ IDLE_GAP_FOR_PROMOTION_MS))
  if promoted then
    if idle then ⟨turnCount,now,promoted,establishedOnce,0⟩
    else if activeStreak + 1 ≥ DESTICK_AFTER_ACTIVE_TURNS then ⟨turnCount,now,false,establishedOnce,0⟩
    else ⟨turnCount,now,promoted,establishedOnce,activeStreak + 1⟩
  else if idle || !establishedOnce && decide (turnCount ≥ PROMOTE_AFTER_TURNS) then ⟨turnCount,now,true,true,0⟩
  else ⟨turnCount,now,promoted,establishedOnce,activeStreak⟩

namespace Tracker

def setMode (t : Tracker) (mode : CacheWarmingMode) : Tracker :=
  if mode = .off then ⟨mode,[]⟩ else {t with mode}

def observeAndShouldInject (t : Tracker) (sessionKey : String) (now estimatedTokens minTokens : Int) : Bool × Tracker :=
  match t.mode with
  | .off => (false,t)
  | .static =>
    let entry := staticTurn (t.entries.get sessionKey) now (decide (estimatedTokens ≥ minTokens))
    (entry.promoted,{t with entries := enforceCap (touch t.entries sessionKey entry)})
  | .dynamic =>
    let entry := dynamicTurn (t.entries.get sessionKey) now
    (entry.promoted && decide (estimatedTokens ≥ minTokens),
      {t with entries := enforceCap (touch t.entries sessionKey entry)})

def isPromoted (t : Tracker) (sessionKey : String) : Bool :=
  if t.mode = .off then false else (t.entries.get sessionKey).elim false PromotionEntry.promoted

def evict (t : Tracker) (sessionKey : String) : Tracker := {t with entries := t.entries.delete sessionKey}

def clear (t : Tracker) : Tracker := {t with entries := []}

end Tracker

structure Turn where
  sessionKey : String
  now : Int
  estimatedTokens : Int
  minTokens : Int

def Tracker.observe (t : Tracker) (turn : Turn) : Bool × Tracker :=
  t.observeAndShouldInject turn.sessionKey turn.now turn.estimatedTokens turn.minTokens

inductive Call where
  | setMode (mode : CacheWarmingMode)
  | observe (turn : Turn)
  | evict (sessionKey : String)
  | clear

def Call.perform (t : Tracker) : Call → Tracker
  | .setMode mode => t.setMode mode
  | .observe turn => (t.observe turn).2
  | .evict sessionKey => t.evict sessionKey
  | .clear => t.clear

structure Life where
  everPromoted : Bool
  lastTurn : Int
  place : Nat
  active : Nat

def Life.turn (life : Option Life) (now : Int) (place : Nat) (before after : Bool) : Life where
  everPromoted := life.elim false Life.everPromoted || after
  lastTurn := now
  place := place
  active := life.elim 0 (fun l => if before && decide (now - l.lastTurn < IDLE_GAP_FOR_PROMOTION_MS) then l.active + 1 else 0)

structure Watched where
  tracker : Tracker
  lives : String → Option Life
  turns : Nat

def Watched.lifeAfter (w : Watched) (key : String) (after : Bool) : Call → Option Life
  | .observe turn =>
    if key = turn.sessionKey then some (Life.turn (w.lives key) turn.now w.turns (w.tracker.isPromoted key) after) else w.lives key
  | .setMode mode =>
    -- a switch into dynamic mode starts every count again
    if mode = .dynamic ∧ w.tracker.mode ≠ .dynamic then (w.lives key).map (fun life => {life with active := 0})
    else w.lives key
  | _ => w.lives key

def Watched.next (w : Watched) (call : Call) : Watched where
  tracker := call.perform w.tracker
  lives key := ((call.perform w.tracker).entries.get key).bind (fun entry => w.lifeAfter key entry.promoted call)
  turns := w.turns + 1

def machine : Machine Watched Call where
  init w := w = ⟨⟨.off,[]⟩,fun _ => none,0⟩
  step w call := some (w.next call)

def turnEntry (t : Tracker) (turn : Turn) : PromotionEntry :=
  match t.mode with
  | .static => staticTurn (t.entries.get turn.sessionKey) turn.now (decide (turn.estimatedTokens ≥ turn.minTokens))
  | _ => dynamicTurn (t.entries.get turn.sessionKey) turn.now

variable {t : Tracker} {m : Entries} {key : String} {turn : Turn} {entry : PromotionEntry}

theorem observeOff (off : t.mode = .off) : t.observe turn = (false,t) := by
  simp only [Tracker.observe,Tracker.observeAndShouldInject,off]

theorem observeOn (on : t.mode ≠ .off) :
    (t.observe turn).2 = {t with entries := enforceCap (touch t.entries turn.sessionKey (turnEntry t turn))} := by
  unfold Tracker.observe Tracker.observeAndShouldInject turnEntry
  cases mode : t.mode with
  | off => exact absurd mode on
  | static => rfl
  | dynamic => rfl

theorem enforceCapCapped : enforceCap m = capped MAX_PROMOTION_TRACKER_ENTRIES m := by
  induction m with
  | nil => rfl
  | cons oldest rest ih =>
    unfold enforceCap
    split
    · rename_i full
      have more : (oldest::rest).length - MAX_PROMOTION_TRACKER_ENTRIES =
          rest.length - MAX_PROMOTION_TRACKER_ENTRIES + 1 := by rw [List.length_cons]; omega
      rw [ih,capped,capped,more,List.drop_succ_cons]
    · rename_i room
      have nothing : (oldest::rest).length - MAX_PROMOTION_TRACKER_ENTRIES = 0 := by rw [List.length_cons]; omega
      rw [capped,nothing,List.drop_zero]

theorem lengthCap : (enforceCap m).length ≤ MAX_PROMOTION_TRACKER_ENTRIES := by
  rw [enforceCapCapped]
  exact lengthCapped

theorem capSublist : List.Sublist (enforceCap m) m := by
  rw [enforceCapCapped]
  exact cappedSublist

theorem capKeepsSelf : (enforceCap (touch m key entry)).get key = some entry := by
  have room : (m.delete key).length + 1 - MAX_PROMOTION_TRACKER_ENTRIES ≤ (m.delete key).length := by
    unfold MAX_PROMOTION_TRACKER_ENTRIES
    omega
  have absent : key ∉ keys ((m.delete key).drop ((m.delete key).length + 1 - MAX_PROMOTION_TRACKER_ENTRIES)) := by
    intro inside
    obtain ⟨found,member,same⟩ := List.mem_map.mp inside
    exact (memKeysDelete.mp (List.mem_map.mpr ⟨found,List.mem_of_mem_drop member,same⟩)).2 rfl
  rw [enforceCapCapped,touchEqAppend,capped,List.length_append,List.length_singleton,
    List.drop_append_of_le_length room,getAppend,getOfNotMem absent]
  simp [InsertionMap.get]

theorem capKeepsOther (key : String) (unique : (keys m).Nodup) : (enforceCap m).get key = none ∨ (enforceCap m).get key = m.get key := by
  rw [enforceCapCapped]
  by_cases dropped : key ∈ keys (overflow MAX_PROMOTION_TRACKER_ENTRIES m)
  · refine .inl (getOfNotMem (fun kept => ?_))
    rw [← overflowAppend MAX_PROMOTION_TRACKER_ENTRIES m,keys,List.map_append] at unique
    exact (List.nodup_append.mp unique).2.2 _ dropped _ kept rfl
  · exact .inr (getCapped dropped)

end Clankermux.SessionPromotion
