import Clankermux.Machine
import Mathlib.Algebra.Order.BigOperators.Group.List
import Mathlib.Algebra.Order.Ring.Rat
import Mathlib.Data.List.MinMax
import Mathlib.Data.List.Sort
import Mathlib.Data.Nat.Cast.Order.Ring

/-! The retention of stored payloads: the rule by age, the payloads whose request is gone and
the byte budget. Between two statements other connections may leave any table. -/
namespace Clankermux.PayloadCleanup

def CLEANUP_DELETE_BATCH_ROWS : Nat := 50
def PAYLOAD_EVICT_BATCH_BYTES : Nat := 4 * 1024 * 1024

structure Row where
  rowid : Nat
  id : String
  timestamp : Option Int
  bytes : Option Nat
  deriving DecidableEq

structure Table where
  rows : List Row
  ascending : rows.Pairwise (·.rowid < ·.rowid)

def Table.keep (t : Table) (stays : Row → Bool) : Table := ⟨t.rows.filter stays,t.ascending.filter stays⟩

-- `ORDER BY timestamp, bytes`, on which SQLite puts NULL first
def noLater (a b : Row) : Bool := ((compare a.timestamp b.timestamp).then (compare a.bytes b.bytes)).isLE

def counted (r : Row) : Nat := r.bytes.getD PAYLOAD_EVICT_BATCH_BYTES

def matching (whereCond : Row → Bool) (t : Table) : List Row :=
  (t.rows.filter whereCond).insertionSort (noLater · ·)

-- each row with its `ROW_NUMBER()` and its `SUM(…)` under `ROWS UNBOUNDED PRECEDING`
def windowed (rn running : Nat) : List Row → List (Row × Nat × Nat)
  | [] => []
  | r::rest => (r,rn + 1,running + counted r)::windowed (rn + 1) (running + counted r) rest

def fitting (windows : List (Row × Nat × Nat)) : List Row :=
  (windows.filter (fun w => w.2.1 = 1 ∨ w.2.2 ≤ PAYLOAD_EVICT_BATCH_BYTES)).map Prod.fst

def selected (whereCond : Row → Bool) (t : Table) : List Row :=
  fitting ((windowed 0 0 (matching whereCond t)).take CLEANUP_DELETE_BATCH_ROWS)

def deleteBatch (whereCond : Row → Bool) (t : Table) : Table :=
  t.keep (·.rowid ∉ (selected whereCond t).map Row.rowid)

def changes (before after : Table) : Nat := before.rows.length - after.rows.length

inductive Stage (α : Type) where
  | going (at_ : α)
  | returned
  | threw
  deriving DecidableEq

-- a transient lock ends a loop that has made progress
def afterLock {α : Type} (total : Nat) : Stage α := if total > 0 then .returned else .threw

structure Statement (α : Type) where
  found : α
  left : Table

structure Batched where
  table : Table
  total : Nat
  stage : Stage Unit
  statements : List (Statement Table)

inductive Event (α : Type) where
  | write (found : α)
  | statement
  | locked
  | failed

section
variable (whereCond : Row → Bool)

def deletePayloadsBatched (s : Batched) : Event Table → Option Batched
  | .write table => some {s with table}
  | .statement =>
    if s.stage = .going () then
      let left := deleteBatch whereCond s.table
      let removed := changes s.table left
      let ran := {s with table := left, statements := ⟨s.table,left⟩::s.statements}
      some (if removed = 0 then {ran with stage := .returned} else {ran with total := s.total + removed})
    else none
  | .locked => if s.stage = .going () then some {s with stage := afterLock s.total} else none
  | .failed => if s.stage = .going () then some {s with stage := .threw} else none

def start (t : Table) : Batched := ⟨t,0,.going (),[]⟩

def batches : Machine Batched (Event Table) where
  init s := ∃ t, s = start t
  step := deletePayloadsBatched whereCond

def Quiet (t : Table) (s : Batched) : Prop := (batches whereCond).Steps (fun _ e => e = .statement) (start t) s

end

structure Database where
  payloads : Table
  requests : List String

def orphan (db : Database) (r : Row) : Bool := r.id ∉ db.requests

def candidates (db : Database) : List String :=
  ((db.payloads.rows.filter (orphan db)).take CLEANUP_DELETE_BATCH_ROWS).map Row.id

structure Orphaned where
  db : Database
  total : Nat
  -- the ids selected last
  stage : Stage (Option (List String))
  statements : List (Statement Database)

def deleteOrphanedPayloads (s : Orphaned) : Event Database → Option Orphaned
  | .write db => some {s with db}
  | .statement =>
    match s.stage with
    | .going none =>
      let ids := candidates s.db
      some {s with stage := if ids.length = 0 then .returned else .going (some ids)}
    | .going (some ids) =>
      let left := s.db.payloads.keep (fun r => !(ids.contains r.id && orphan s.db r))
      let removed := changes s.db.payloads left
      some ⟨{s.db with payloads := left},s.total + removed,
        if removed = 0 ∨ ids.length < CLEANUP_DELETE_BATCH_ROWS then .returned else .going none,⟨s.db,left⟩::s.statements⟩
    | _ => none
  | .locked => match s.stage with
    | .going _ => some {s with stage := afterLock s.total}
    | _ => none
  | .failed => match s.stage with
    | .going _ => some {s with stage := .threw}
    | _ => none

def orphans : Machine Orphaned (Event Database) where
  init s := ∃ db, s = ⟨db,0,.going none,[]⟩
  step := deleteOrphanedPayloads

def counts (r : Row) : Bool := r.bytes.isSome && r.timestamp.isSome

-- asked of rows whose timestamp is not NULL only
def Row.stamp (r : Row) : Int := r.timestamp.getD 0

def bytesOf (rows : List Row) : Nat := (rows.map (·.bytes.getD 0)).sum

-- a window without a frame sums the peers of its row too
def running (t : Table) (r : Row) : Nat := bytesOf (t.rows.filter (fun s => counts s && decide (r.stamp ≤ s.stamp)))

/-- The first row in the order of the window, which `LIMIT 1` stops at. -/
def cutoffRow (t : Table) (payloadMaxBytes : ℚ) : Option Row :=
  ((t.rows.filter counts).insertionSort (·.stamp ≥ ·.stamp)).find? (fun r => payloadMaxBytes < running t r)

def evictable (cutoff : Int) (r : Row) : Bool := counts r && decide (r.stamp ≤ cutoff)

/-- The byte-budget pass leads from `t` to `u` while nothing else writes. -/
inductive Evicts (t : Table) (payloadMaxBytes : ℚ) : Table → Prop where
  | disabled (off : payloadMaxBytes ≤ 0) : Evicts t payloadMaxBytes t
  | under (none_ : cutoffRow t payloadMaxBytes = none) : Evicts t payloadMaxBytes t
  | evicted {cutoff s} (enabled : 0 < payloadMaxBytes) (exceeds : cutoffRow t payloadMaxBytes = some cutoff)
      (run : Quiet (evictable cutoff.stamp) t s) (ended : s.stage = .returned) : Evicts t payloadMaxBytes s.table

/-- One statement took the rows `taken`, which it found first among those that meet its predicate. -/
structure Takes (whereCond : Row → Bool) (found left : Table) (taken : List Row) : Prop where
  oldest : taken <+: matching whereCond found
  rows : taken.length ≤ CLEANUP_DELETE_BATCH_ROWS
  bytes : taken.length ≠ 1 → (taken.map counted).sum ≤ PAYLOAD_EVICT_BATCH_BYTES
  gone : left.rows = found.rows.filter (· ∉ taken)
  named : ∀ r ∈ taken, r ∈ found.rows ∧ whereCond r = true
  some_ : taken = [] → found.rows.filter whereCond = []

variable {whereCond : Row → Bool} {t u : Table} {r : Row} {rows : List Row} {rn sum : Nat}

theorem fittingCons (windows : List (Row × Nat × Nat)) : fitting ((r,rn,sum)::windows) =
    if rn = 1 ∨ sum ≤ PAYLOAD_EVICT_BATCH_BYTES then r::fitting windows else fitting windows := by
  by_cases fits : rn = 1 ∨ sum ≤ PAYLOAD_EVICT_BATCH_BYTES <;> simp [fitting,fits]

/-- Behind the first row the running sum decides, and it never falls. -/
theorem fittingTaken (within : 1 ≤ rn) : fitting (windowed rn sum rows) <+: rows ∧
    (fitting (windowed rn sum rows) = [] ∨
      sum + ((fitting (windowed rn sum rows)).map counted).sum ≤ PAYLOAD_EVICT_BATCH_BYTES) := by
  induction rows generalizing rn sum with
  | nil => exact ⟨List.prefix_rfl,.inl rfl⟩
  | cons r rest ih =>
    obtain ⟨front,bound⟩ := @ih (rn + 1) (sum + counted r) (Nat.le_add_left 1 rn)
    have later : ¬ rn + 1 = 1 := by omega
    rw [windowed,fittingCons]
    simp only [later,false_or]
    split
    · rename_i fits
      refine ⟨List.cons_prefix_cons.mpr ⟨rfl,front⟩,.inr ?_⟩
      rcases bound with none_ | bound
      · simpa [none_] using fits
      · simpa [Nat.add_assoc] using bound
    · rename_i exceeds
      have none_ := bound.resolve_right (by omega)
      exact ⟨none_ ▸ List.nil_prefix,.inl none_⟩

theorem windowedTake (n : Nat) : (windowed rn sum rows).take n = windowed rn sum (rows.take n) := by
  induction rows generalizing rn sum n with
  | nil => simp [windowed]
  | cons r rest ih =>
    cases n with
    | zero => rfl
    | succ n => simp [windowed,ih]

theorem selectedTakes : selected whereCond t <+: matching whereCond t ∧
    (selected whereCond t).length ≤ CLEANUP_DELETE_BATCH_ROWS ∧
    ((selected whereCond t).length ≠ 1 → ((selected whereCond t).map counted).sum ≤ PAYLOAD_EVICT_BATCH_BYTES) ∧
    (selected whereCond t = [] → matching whereCond t = []) := by
  rw [selected,windowedTake]
  cases matching whereCond t with
  | nil => simp [windowed,fitting]
  | cons r rest =>
    obtain ⟨front,bound⟩ := @fittingTaken (rest.take 49) 1 (counted r) le_rfl
    have first : fitting (windowed 0 0 ((r::rest).take CLEANUP_DELETE_BATCH_ROWS)) = r::fitting (windowed 1 (counted r) (rest.take 49)) := by
      simp [CLEANUP_DELETE_BATCH_ROWS,windowed,fittingCons]
    rw [first]
    refine ⟨List.cons_prefix_cons.mpr ⟨rfl,front.trans (List.take_prefix _ _)⟩,?_,fun several => ?_,by simp⟩
    · have short := front.length_le
      rw [List.length_take] at short
      rw [List.length_cons,CLEANUP_DELETE_BATCH_ROWS]
      omega
    · rcases bound with none_ | bound
      · simp [none_] at several
      · simpa using bound

theorem deleteTakes : Takes whereCond t (deleteBatch whereCond t) (selected whereCond t) := by
  obtain ⟨oldest,rows,bytes,some_⟩ := @selectedTakes whereCond t
  have named : ∀ r ∈ selected whereCond t, r ∈ t.rows ∧ whereCond r = true :=
    fun r taken => List.mem_filter.mp ((List.mem_insertionSort _).mp (oldest.subset taken))
  refine ⟨oldest,rows,bytes,List.filter_congr (fun r there => ?_),named,fun none_ => ?_⟩
  · have same : r.rowid ∈ (selected whereCond t).map Row.rowid ↔ r ∈ selected whereCond t := by
      refine ⟨fun listed => ?_,List.mem_map_of_mem⟩
      obtain ⟨s,taken,equal⟩ := List.mem_map.mp listed
      have unique := List.inj_on_of_nodup_map (t.ascending.map Row.rowid (fun _ _ less => Nat.ne_of_lt less) : (t.rows.map Row.rowid).Nodup)
      exact unique (named s taken).1 there equal ▸ taken
    simp [same]
  · exact ((List.perm_insertionSort _ _).symm.trans (.of_eq (some_ none_))).eq_nil

theorem Takes.others {taken} (takes : Takes whereCond t u taken) :
    u.rows.filter (!whereCond ·) = t.rows.filter (!whereCond ·) := by
  rw [takes.gone,List.filter_filter]
  refine List.filter_congr (fun r there => ?_)
  by_cases taken_ : r ∈ taken
  · simp [(takes.named r taken_).2]
  · simp [taken_]

theorem Takes.changed {taken} (takes : Takes whereCond t u taken) :
    changes t u + (u.rows.filter whereCond).length = (t.rows.filter whereCond).length := by
  have less : u.rows.length ≤ t.rows.length := takes.gone ▸ List.length_filter_le _ _
  have before := List.length_eq_length_filter_add (l := t.rows) whereCond
  have after := List.length_eq_length_filter_add (l := u.rows) whereCond
  rw [takes.others] at after
  unfold changes
  omega

theorem Takes.idle {taken} (takes : Takes whereCond t u taken) (none_ : changes t u = 0) :
    t.rows.filter whereCond = [] := by
  refine takes.some_ (List.eq_nil_iff_forall_not_mem.mpr (fun r there => ?_))
  have less : u.rows.length ≤ t.rows.length := takes.gone ▸ List.length_filter_le _ _
  have all : (t.rows.filter (· ∉ taken)).length = t.rows.length := by
    rw [← takes.gone]
    unfold changes at none_
    omega
  simpa [there] using List.length_filter_eq_length_iff.mp all r (takes.named r there).1

structure Logged (whereCond : Row → Bool) (s : Batched) : Prop where
  takes : ∀ st ∈ s.statements, ∃ taken, Takes whereCond st.found st.left taken
  total : s.total = (s.statements.map (fun st => changes st.found st.left)).sum

structure Drained (whereCond : Row → Bool) (t : Table) (s : Batched) : Prop where
  others : s.table.rows.filter (!whereCond ·) = t.rows.filter (!whereCond ·)
  total : s.total + (s.table.rows.filter whereCond).length = (t.rows.filter whereCond).length
  ended : s.stage = .returned → s.table.rows.filter whereCond = []
  unbroken : s.stage ≠ .threw

variable {s : Batched}

theorem statementStep (going : s.stage = .going ()) :
    ∃ n, (batches whereCond).step s .statement = some n ∧ n.table = deleteBatch whereCond s.table ∧
      n.statements = ⟨s.table,n.table⟩::s.statements ∧ n.total = s.total + changes s.table n.table ∧
      n.stage = if changes s.table n.table = 0 then .returned else .going () := by
  by_cases none_ : changes s.table (deleteBatch whereCond s.table) = 0 <;>
    simp [batches,deletePayloadsBatched,going,none_]

theorem statementGoing {n} (step : (batches whereCond).step s .statement = some n) : s.stage = .going () := by
  by_contra ended
  simp [batches,deletePayloadsBatched,ended] at step

theorem reachedLogged (reach : (batches whereCond).Reachable s) : Logged whereCond s := by
  refine reach.invariant ?_ ?_
  · rintro _ ⟨t,rfl⟩
    exact ⟨by simp [start],rfl⟩
  · intro s event next logged step
    cases event with
    | write table => cases step; exact ⟨logged.takes,logged.total⟩
    | statement =>
      obtain ⟨n,stepped,table,statements,total,_⟩ := statementStep (statementGoing step)
      cases step.symm.trans stepped
      refine ⟨?_,by rw [total,statements,logged.total]; simp [Nat.add_comm]⟩
      rw [statements,List.forall_mem_cons]
      exact ⟨⟨_,table ▸ deleteTakes⟩,logged.takes⟩
    | locked =>
      obtain ⟨_,same⟩ := Option.ite_none_right_eq_some.mp step
      cases same
      exact ⟨logged.takes,logged.total⟩
    | failed =>
      obtain ⟨_,same⟩ := Option.ite_none_right_eq_some.mp step
      cases same
      exact ⟨logged.takes,logged.total⟩

theorem quietDrained (run : Quiet whereCond t s) : Drained whereCond t s := by
  refine run.keeps ⟨rfl,by simp [start],by simp [start],by simp [start]⟩ ?_
  rintro s _ next drained rfl step
  obtain ⟨n,stepped,table,_,total,stage⟩ := statementStep (statementGoing step)
  cases step.symm.trans stepped
  have takes : Takes whereCond s.table next.table _ := table ▸ deleteTakes
  have changed := takes.changed
  refine ⟨takes.others.trans drained.others,by have := drained.total; omega,fun ended => ?_,?_⟩
  · have none_ : changes s.table next.table = 0 := by
      by_contra some_
      simp [stage,some_] at ended
    rw [takes.idle none_,none_] at changed
    exact List.length_eq_zero_iff.mp (by simpa using changed)
  · rw [stage]
    split <;> simp

theorem quietEnds (whereCond : Row → Bool) (t : Table) : ∃ s, Quiet whereCond t s ∧ s.stage = .returned := by
  suffices ends : ∀ n s, Quiet whereCond t s → s.stage = .going () → (s.table.rows.filter whereCond).length = n →
      ∃ s, Quiet whereCond t s ∧ s.stage = .returned from ends _ _ .refl rfl rfl
  -- what a statement removes is missing from the rows that still match
  intro n
  induction n using Nat.strong_induction_on with
  | _ n ih =>
    rintro s run going rfl
    obtain ⟨next,stepped,table,_,_,stage⟩ := @statementStep whereCond s going
    have takes : Takes whereCond s.table next.table _ := table ▸ deleteTakes
    have later : Quiet whereCond t next := run.next rfl stepped
    by_cases none_ : changes s.table next.table = 0
    · exact ⟨next,later,by rw [stage,if_pos none_]⟩
    · exact ih _ (by have := takes.changed; omega) next later (by rw [stage,if_neg none_]) rfl

theorem Drained.left (drained : Drained whereCond t s) (ended : s.stage = .returned) :
    s.table.rows = t.rows.filter (!whereCond ·) := by
  rw [← drained.others]
  refine (List.filter_eq_self.mpr (fun r there => ?_)).symm
  simpa using List.filter_eq_nil_iff.mp (drained.ended ended) r there

def Spares (o : Orphaned) : Prop :=
  ∀ st ∈ o.statements, ∀ r ∈ st.found.payloads.rows, r ∉ st.left.rows → r.id ∉ st.found.requests

theorem reachedSpares {o} (reach : orphans.Reachable o) : Spares o := by
  refine reach.invariant ?_ ?_
  · rintro _ ⟨db,rfl⟩
    simp [Spares]
  · intro o event next spares step
    simp only [orphans,deleteOrphanedPayloads] at step
    split at step
    · cases step; exact spares
    · split at step
      · cases step; exact spares
      · cases step
        refine List.forall_mem_cons.mpr ⟨fun r there gone => ?_,spares⟩
        simp only [Table.keep,List.mem_filter,there,true_and,Bool.not_eq_true',Bool.not_eq_false,Bool.and_eq_true,orphan,
          decide_eq_true_eq] at gone
        exact gone.2
      · cases step
    · split at step
      · cases step; exact spares
      · cases step
    · split at step
      · cases step; exact spares
      · cases step

theorem bytesLess {p q} (less : ∀ r, p r = true → q r = true) :
    bytesOf (rows.filter p) ≤ bytesOf (rows.filter q) :=
  ((List.monotone_filter_right rows less).map _).sum_le_sum (fun _ _ => Nat.zero_le _)

theorem runningOlder {older newer} (order : older.stamp ≤ newer.stamp) : running t newer ≤ running t older := by
  refine bytesLess (fun s there => ?_)
  simp only [Bool.and_eq_true,decide_eq_true_eq] at there ⊢
  exact ⟨there.1,order.trans there.2⟩

variable {budget : ℚ}

/-- The rows that are left are those with which all that are not older fit. -/
structure Fits (t : Table) (budget : ℚ) (u : Table) : Prop where
  total : (bytesOf (u.rows.filter counts) : ℚ) ≤ budget
  longest : ∀ r ∈ t.rows, counts r = true → (r ∈ u.rows ↔ (running t r : ℚ) ≤ budget)
  uncounted : u.rows.filter (!counts ·) = t.rows.filter (!counts ·)
  sub : u.rows.Sublist t.rows

theorem keptFits (enabled : 0 < budget)
    (kept : u.rows = t.rows.filter (fun r => !counts r || decide ((running t r : ℚ) ≤ budget))) : Fits t budget u := by
  have counting : u.rows.filter counts = t.rows.filter (fun r => counts r && decide ((running t r : ℚ) ≤ budget)) := by
    rw [kept,List.filter_filter]
    exact List.filter_congr (fun r _ => by cases counts r <;> simp)
  refine ⟨?_,fun r there counted_ => by simp [kept,there,counted_],?_,kept ▸ List.filter_sublist⟩
  · cases newest : (u.rows.filter counts).argmin Row.stamp with
    | none => simp [List.argmin_eq_none.mp newest,bytesOf,enabled.le]
    | some oldest =>
      have within := List.argmin_mem newest
      rw [counting,List.mem_filter,Bool.and_eq_true,decide_eq_true_eq] at within
      have whole : (u.rows.filter counts).filter (fun s => decide (oldest.stamp ≤ s.stamp)) = u.rows.filter counts :=
        List.filter_eq_self.mpr (fun s there => decide_eq_true (List.le_of_mem_argmin there newest))
      refine le_trans (Nat.cast_le.mpr ?_) within.2.2
      rw [← whole,counting,List.filter_filter]
      refine bytesLess (fun s there => ?_)
      simp only [Bool.and_eq_true] at there ⊢
      exact ⟨there.2.1,there.1⟩
  · rw [kept,List.filter_filter]
    exact List.filter_congr (fun r _ => by cases counts r <;> simp)

theorem cutoffSplits {cutoff} (exceeds : cutoffRow t budget = some cutoff) (there : r ∈ t.rows) :
    (!evictable cutoff.stamp r) = (!counts r || decide ((running t r : ℚ) ≤ budget)) := by
  cases counted_ : counts r with
  | false => simp [evictable,counted_]
  | true =>
    obtain ⟨over_,newer,older,split,fit⟩ := List.find?_eq_some_iff_append.mp exceeds
    have sorted := List.pairwise_insertionSort (fun a b : Row => a.stamp ≥ b.stamp) (t.rows.filter counts)
    have listed : r ∈ newer ++ cutoff::older :=
      split ▸ (List.mem_insertionSort _).mpr (List.mem_filter.mpr ⟨there,counted_⟩)
    rw [split,List.pairwise_append] at sorted
    have exceeds_ : budget < running t cutoff := by simpa using over_
    by_cases old : r.stamp ≤ cutoff.stamp
    · have more : ¬ (running t r : ℚ) ≤ budget := not_le.mpr (exceeds_.trans_le (Nat.cast_le.mpr (runningOlder old)))
      simp [evictable,counted_,old,more]
    · rcases List.mem_append.mp listed with before | behind
      · have fits : (running t r : ℚ) ≤ budget := by simpa using fit r before
        simp [evictable,counted_,old,fits]
      · rcases List.mem_cons.mp behind with rfl | behind
        · exact absurd le_rfl old
        · exact absurd ((List.pairwise_cons.mp sorted.2.1).1 r behind) old

theorem evictsFits (enabled : 0 < budget) (evicts : Evicts t budget u) : Fits t budget u := by
  cases evicts with
  | disabled off => exact absurd enabled off.not_gt
  | under none_ =>
    refine keptFits enabled (List.filter_eq_self.mpr (fun r there => ?_)).symm
    cases counted_ : counts r with
    | false => rfl
    | true =>
      have fits := List.find?_eq_none.mp none_ r ((List.mem_insertionSort _).mpr (List.mem_filter.mpr ⟨there,counted_⟩))
      simpa using fits
  | evicted _ exceeds run ended =>
    exact keptFits enabled (((quietDrained run).left ended).trans (List.filter_congr (fun r there => cutoffSplits exceeds there)))

theorem evictsEnds (t : Table) (budget : ℚ) : ∃ u, Evicts t budget u := by
  rcases le_or_gt budget 0 with off | enabled
  · exact ⟨t,.disabled off⟩
  · cases found : cutoffRow t budget with
    | none => exact ⟨t,.under found⟩
    | some cutoff =>
      obtain ⟨s,run,ended⟩ := quietEnds (evictable cutoff.stamp) t
      exact ⟨s.table,.evicted enabled found run ended⟩

theorem payloadsKept : (∀ whereCond,
      (∀ s, (batches whereCond).Reachable s → Logged whereCond s) ∧
      (∀ t, (∃ s, Quiet whereCond t s ∧ s.stage = .returned) ∧ ∀ s, Quiet whereCond t s → s.stage = .returned →
        s.table.rows = t.rows.filter (!whereCond ·) ∧ s.total = (t.rows.filter whereCond).length)) ∧
    (∀ o, orphans.Reachable o → Spares o) ∧
    (∀ t budget, 0 < budget → (∃ u, Evicts t budget u) ∧ ∀ u, Evicts t budget u → Fits t budget u) := by
  refine ⟨fun whereCond => ⟨fun s => reachedLogged,fun t => ⟨quietEnds whereCond t,fun s run ended => ?_⟩⟩,fun o => reachedSpares,
    fun t budget enabled => ⟨evictsEnds t budget,fun u => evictsFits enabled⟩⟩
  have drained := quietDrained run
  exact ⟨drained.left ended,by simpa [drained.ended ended] using drained.total⟩

end Clankermux.PayloadCleanup
