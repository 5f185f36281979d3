import Clankermux.History
import Clankermux.Machine
import Clankermux.RecencyMap

/-! The session → project cache behind inherited attribution. One overwritten entry a key is
kept of the whole history of its seeds; the history is kept beside it here, newest first,
with what the bound and `clear` made the cache forget. -/
namespace Clankermux.SessionProjectCache
open InsertionMap RecencyMap History

def TTL_MS : Int := 6 * 60 * 60 * 1000
def MAX_ENTRIES : Nat := 2048

structure CacheEntry where
  project : String
  expiresAt : Int
  ambiguousUntil : Option Int

structure SessionProjectLookup where
  project : Option String
  ambiguous : Bool
  deriving DecidableEq

abbrev Entries := InsertionMap String CacheEntry

def miss : SessionProjectLookup := ⟨none,false⟩

def existing (entries : Entries) (key : String) (now : Int) : Option CacheEntry :=
  (get entries key).filter (fun entry => ¬ now ≥ entry.expiresAt)

def reseeded (existing : Option CacheEntry) (project : String) (now : Int) : CacheEntry :=
  let previous := existing.map (·.project)
  let carried := (existing.bind (·.ambiguousUntil)).filter (fun until_ => now < until_)
  ⟨project,now + TTL_MS,if previous.any (· ≠ project) then some (now + TTL_MS) else carried⟩

def oldest (entries : Entries) : Option String :=
  if entries.length > MAX_ENTRIES then (keys entries).head? else none

def evict (entries : Entries) : Entries :=
  match oldest entries with
  | some key => delete entries key
  | none => entries

def seeded (entries : Entries) (key project : String) (now : Int) : Entries :=
  touch entries key (reseeded (existing entries key now) project now)

def set (entries : Entries) (key project : String) (now : Int) : Entries × Option String :=
  (evict (seeded entries key project now),(existing entries key now).map (·.project))

def CacheEntry.ambiguous (entry : CacheEntry) (now : Int) : Bool := entry.ambiguousUntil.any (now < ·)

def lookup (entries : Entries) (key : String) (now : Int) : Entries × SessionProjectLookup :=
  match get entries key with
  | none => (entries,miss)
  | some entry =>
    if now ≥ entry.expiresAt then (delete entries key,miss)
    else (touch entries key entry,⟨if entry.ambiguous now then none else some entry.project,entry.ambiguous now⟩)

inductive Call where
  | set (key project : String)
  | lookup (key : String)
  | clear

structure Event where
  now : Int
  call : Call

inductive Record where
  | set (key project : String) (at_ : Int)
  | evicted (key : String)
  | hit (key : String)
  | missed (key : String)
  | cleared

structure World where
  entries : Entries
  clock : Int
  history : List Record

def Call.apply (call : Call) (entries : Entries) (now : Int) : Entries :=
  match call with
  | .set key project => (SessionProjectCache.set entries key project now).1
  | .lookup key => (SessionProjectCache.lookup entries key now).1
  | .clear => []

def Call.records (call : Call) (entries : Entries) (now : Int) : List Record :=
  match call with
  | .set key project => (oldest (seeded entries key project now)).toList.map .evicted ++ [.set key project now]
  | .lookup key => [if (existing entries key now).isSome then .hit key else .missed key]
  | .clear => [.cleared]

def machine : Machine World Event where
  init w := w.entries = [] ∧ w.history = []
  step w e := if e.now < w.clock then none else
    some ⟨e.call.apply w.entries e.now,e.now,e.call.records w.entries e.now ++ w.history⟩

structure Seed where
  at_ : Int
  project : String

def seeds (key : String) : List Record → List Seed
  | [] => []
  | .set key' project at_::older => if key' = key then ⟨at_,project⟩::seeds key older else seeds key older
  | .evicted key'::older => if key' = key then [] else seeds key older
  | .cleared::_ => []
  | .hit _::older => seeds key older
  | .missed _::older => seeds key older

def Record.seed (key : String) : Record → Option Seed
  | .set key' project at_ => if key' = key then some ⟨at_,project⟩ else none
  | _ => none

def Held (seeds : List Seed) (now : Int) (project : String) : Prop :=
  ∃ last older, seeds = last::older ∧ now - last.at_ < TTL_MS ∧ last.project = project

def Conflicts (seed before : Seed) : Prop := seed.at_ - before.at_ < TTL_MS ∧ seed.project ≠ before.project

def Conflicted (seeds : List Seed) (now : Int) : Prop :=
  ∃ newer seed before older, seeds = newer ++ seed::before::older ∧ now - seed.at_ < TTL_MS ∧ Conflicts seed before

def Record.Uses (key : String) : Record → Prop
  | .set key' _ _ => key' = key
  | .hit key' => key' = key
  | _ => False

def UsedSince (history : List Record) (stale used : String) : Prop :=
  ∃ newer use older, history = newer ++ use::older ∧ use.Uses used ∧ ∀ record ∈ use::newer, ¬ record.Uses stale

section Key
variable {entry : Option CacheEntry} {found : CacheEntry} {seeds older newer : List Seed} {seed last : Seed}
  {clock now : Int} {project : String}

structure Stands (entry : CacheEntry) (seeds : List Seed) (clock : Int) : Prop where
  last : ∃ last older, seeds = last::older ∧ entry.project = last.project ∧ entry.expiresAt = last.at_ + TTL_MS
  conflict : ∀ now, clock ≤ now → (entry.ambiguous now = true ↔ Conflicted seeds now)

structure Tracked (entry : Option CacheEntry) (seeds : List Seed) (clock : Int) : Prop where
  past : ∀ seed ∈ seeds, seed.at_ ≤ clock
  sorted : seeds.Pairwise (fun newer older => older.at_ ≤ newer.at_)
  gone : entry = none → ∀ project, ¬ Held seeds clock project
  stands : ∀ found, entry = some found → Stands found seeds clock

theorem heldCons : Held (last::older) now project ↔ now - last.at_ < TTL_MS ∧ last.project = project := by
  constructor
  · rintro ⟨_,_,same,held⟩
    obtain ⟨rfl,rfl⟩ := List.cons.inj same
    exact held
  · exact fun held => ⟨last,older,rfl,held⟩

theorem Held.early (held : Held seeds now project) (le : clock ≤ now) : Held seeds clock project := by
  obtain ⟨last,older,rfl,live,same⟩ := held
  exact ⟨last,older,rfl,by omega,same⟩

theorem conflictedCons : Conflicted (seed::seeds) now ↔
    (∃ before older, seeds = before::older ∧ now - seed.at_ < TTL_MS ∧ Conflicts seed before) ∨ Conflicted seeds now := by
  constructor
  · rintro ⟨newer,its,before,older,same,recent,conflicts⟩
    rcases splitCons.mp same with ⟨_,rfl,rfl⟩ | ⟨rest,_,rfl⟩
    · exact .inl ⟨before,older,rfl,recent,conflicts⟩
    · exact .inr ⟨rest,its,before,older,rfl,recent,conflicts⟩
  · rintro (⟨before,older,rfl,recent,conflicts⟩ | ⟨newer,its,before,older,rfl,recent,conflicts⟩)
    · exact ⟨[],seed,before,older,rfl,recent,conflicts⟩
    · exact ⟨seed::newer,its,before,older,rfl,recent,conflicts⟩

theorem Conflicted.recent (conflicted : Conflicted seeds now) : ∃ seed ∈ seeds, now - seed.at_ < TTL_MS := by
  obtain ⟨newer,seed,before,older,rfl,recent,_⟩ := conflicted
  exact ⟨seed,by simp,recent⟩

theorem notConflicted (sorted : (last::older).Pairwise (fun newer older => older.at_ ≤ newer.at_))
    (stale : TTL_MS ≤ now - last.at_) : ¬ Conflicted (last::older) now := by
  intro conflicted
  obtain ⟨seed,inside,recent⟩ := conflicted.recent
  have before : seed.at_ ≤ last.at_ := by
    rcases List.mem_cons.mp inside with rfl | behind
    · exact le_refl _
    · exact (List.pairwise_cons.mp sorted).1 seed behind
  omega

theorem trackedForgotten : Tracked none [] clock := by
  refine ⟨by simp,.nil,?_,nofun⟩
  rintro - project ⟨last,older,same,-⟩
  cases same

theorem Tracked.wait (tracked : Tracked entry seeds clock) (le : clock ≤ now) : Tracked entry seeds now where
  past seed inside := (tracked.past seed inside).trans le
  sorted := tracked.sorted
  gone none_ project held := tracked.gone none_ project (held.early le)
  stands found some_ := ⟨(tracked.stands found some_).last,fun _ later => (tracked.stands found some_).conflict _ (le.trans later)⟩

theorem Tracked.expire (tracked : Tracked (some found) seeds clock) (le : clock ≤ now) (past : now ≥ found.expiresAt) :
    Tracked none seeds now := by
  refine ⟨(tracked.wait le).past,tracked.sorted,?_,nofun⟩
  intro _ project held
  obtain ⟨last,older,rfl,_,until_⟩ := (tracked.stands found rfl).last
  have live := (heldCons.mp held).1
  omega

theorem Tracked.existing (tracked : Tracked entry seeds clock) (le : clock ≤ now) :
    (entry.filter (fun entry => ¬ now ≥ entry.expiresAt)).map (·.project) = some project ↔ Held seeds now project := by
  cases entry with
  | none =>
    refine iff_of_false (by simp) ?_
    exact (tracked.wait le).gone rfl project
  | some found =>
    obtain ⟨last,older,rfl,same,until_⟩ := (tracked.stands found rfl).last
    rw [heldCons]
    by_cases past : now ≥ found.expiresAt
    · refine iff_of_false (by simp [past]) ?_
      omega
    · have live : now - last.at_ < TTL_MS := by omega
      simp [Option.filter,past,live,same]

theorem Tracked.reseed (tracked : Tracked entry seeds clock) (le : clock ≤ now) (project : String) :
    Tracked (some (reseeded (entry.filter (fun entry => ¬ now ≥ entry.expiresAt)) project now)) (⟨now,project⟩::seeds) now := by
  have before := (tracked.wait le).past
  refine ⟨List.forall_mem_cons.mpr ⟨le_refl _,before⟩,List.pairwise_cons.mpr ⟨before,tracked.sorted⟩,nofun,?_⟩
  rintro _ written
  cases written
  refine ⟨⟨_,seeds,rfl,rfl,rfl⟩,fun later after => ?_⟩
  rw [conflictedCons]
  cases live : entry.filter (fun entry => ¬ now ≥ entry.expiresAt) with
  | none =>
    -- the first seed, or one behind an entry that had expired
    have none_ : ∀ project, ¬ Held seeds now project := by
      intro project held
      have its := (tracked.existing le).mpr held
      rw [live] at its
      cases its
    refine iff_of_false (by simp [reseeded,CacheEntry.ambiguous]) ?_
    cases seeds with
    | nil =>
      rintro (⟨before,older,same,-⟩ | ⟨newer,its,before,older,same,-⟩)
      · cases same
      · simp at same
    | cons last older =>
      have stale : TTL_MS ≤ now - last.at_ := by
        by_contra recent
        exact none_ last.project (heldCons.mpr ⟨by omega,rfl⟩)
      rintro (⟨_,_,same,_,recent,_⟩ | conflicted)
      · obtain ⟨rfl,rfl⟩ := List.cons.inj same
        exact absurd recent (not_lt.mpr stale)
      · exact notConflicted tracked.sorted (by omega) conflicted
  | some found =>
    obtain ⟨some_,fresh⟩ := Option.filter_eq_some_iff.mp live
    have stands := tracked.stands found some_
    obtain ⟨last,older,rfl,same,until_⟩ := stands.last
    have open_ := stands.conflict later (le.trans after)
    have recent : now - last.at_ < TTL_MS := by simp at fresh; omega
    have behind : ∀ seed ∈ last::older, seed.at_ ≤ now := before
    by_cases differs : found.project = project
    · -- no conflict: the deadline is carried while it is ahead
      have first : ¬ ∃ before older', last::older = before::older' ∧ later - now < TTL_MS ∧ Conflicts ⟨now,project⟩ before := by
        rintro ⟨_,_,its,_,_,ne⟩
        obtain ⟨rfl,rfl⟩ := List.cons.inj its
        exact ne (by rw [← same,differs])
      rw [or_iff_right first,← open_]
      simp only [reseeded,CacheEntry.ambiguous,Option.map_some,differs,Option.bind_some]
      cases found.ambiguousUntil with
      | none => simp
      | some until_ =>
        by_cases ahead : now < until_
        · simp [ahead]
        · have passed : ¬ later < until_ := by omega
          simp [ahead,passed]
    · have stamped : (reseeded (some found) project now).ambiguous later = true ↔ later - now < TTL_MS := by
        simp [reseeded,CacheEntry.ambiguous,differs]
        omega
      rw [stamped]
      constructor
      · exact fun within => .inl ⟨last,older,rfl,within,recent,by rw [← same]; exact Ne.symm differs⟩
      · rintro (⟨_,_,_,within,_⟩ | conflicted)
        · exact within
        · obtain ⟨seed,inside,its⟩ := conflicted.recent
          have early := behind seed inside
          omega

end Key

end Clankermux.SessionProjectCache
