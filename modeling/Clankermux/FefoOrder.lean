import Clankermux.SessionStrategy
import Mathlib.Data.Prod.Lex
import Mathlib.Tactic.Linarith

/-! The order of the accounts that are not pinned. The comparator subtracts figures that may
be infinite; where it subtracts they differ, so the difference is never NaN and its sign is
that of the keys, which are linearly ordered. -/
namespace Clankermux.LoadBalancer
open InsertionMap

/-- `x - y`, which is NaN where both are the same infinity. -/
def Figure.difference : Figure → Figure → Option Figure
  | some (some x),some (some y) => some (.of (x - y))
  | some none,some none => none
  | none,none => none
  | some none,_ => some ⊤
  | none,_ => some ⊥
  | _,some none => some ⊥
  | _,none => some ⊤

abbrev Rank := Int ×ₗ Nat ×ₗ Figure ×ₗ Figure ×ₗ Figureᵒᵈ

abbrev SortKey := Rank ×ₗ Nat

section Sign
variable {α β : Type*} [LinearOrder α] [LinearOrder β] {a c : α} {b d : β} {result : Option Figure} {x y : Figure}

structure Signs (result : Option Figure) (a c : α) : Prop where
  tells : ∃ sign, result = some sign ∧ (sign < 0 ↔ a < c) ∧ (0 < sign ↔ c < a)

theorem Signs.first (signs : Signs result a c) (ne : a ≠ c) : Signs result (toLex (a,b)) (toLex (c,d)) := by
  obtain ⟨sign,its,less,more⟩ := signs.tells
  refine ⟨sign,its,?_,?_⟩
  · rw [less,Prod.Lex.toLex_lt_toLex]
    exact ⟨.inl,fun lt => lt.resolve_right (fun same => ne same.1)⟩
  · rw [more,Prod.Lex.toLex_lt_toLex]
    exact ⟨.inl,fun lt => lt.resolve_right (fun same => ne same.1.symm)⟩

theorem Signs.second (signs : Signs result b d) (same : a = c) : Signs result (toLex (a,b)) (toLex (c,d)) := by
  obtain ⟨sign,its,less,more⟩ := signs.tells
  subst same
  exact ⟨sign,its,by simpa [Prod.Lex.toLex_lt_toLex] using less,by simpa [Prod.Lex.toLex_lt_toLex] using more⟩

theorem Signs.dual (signs : Signs result c a) : Signs result (OrderDual.toDual a) (OrderDual.toDual c) := signs.tells.elim
  (fun sign told => ⟨sign,told.1,by simpa using told.2.1,by simpa using told.2.2⟩)

def NotAfter (result : Option Figure) : Prop := ∃ sign, result = some sign ∧ sign ≤ 0

theorem Signs.notAfter (signs : Signs result a c) : NotAfter result ↔ a ≤ c := by
  obtain ⟨sign,rfl,_,more⟩ := signs.tells
  rw [← not_lt,← more,not_lt]
  constructor
  · rintro ⟨_,its,le⟩
    cases its
    exact le
  · exact fun le => ⟨sign,rfl,le⟩

theorem Signs.before (signs : Signs result a c) (ne : a ≠ c) : NotAfter result ↔ a < c :=
  signs.notAfter.trans ⟨fun le => lt_of_le_of_ne le ne,le_of_lt⟩

theorem figureOfLt {p q : Rat} : Figure.of p < .of q ↔ p < q := by
  rw [Figure.of,Figure.of,WithBot.coe_lt_coe,WithTop.coe_lt_coe]

theorem differenceFinite (p q : Rat) : Signs (Figure.difference (.of p) (.of q)) p q := by
  refine ⟨.of (p - q),rfl,?_,?_⟩
  · exact (figureOfLt (q := 0)).trans sub_neg
  · exact (figureOfLt (p := 0)).trans sub_pos

theorem differenceSigns (ne : x ≠ y) : Signs (x.difference y) x y := by
  have low : (⊥ : Figure) < 0 := WithBot.bot_lt_coe _
  have high : (0 : Figure) < ⊤ := WithBot.coe_lt_coe.mpr (WithTop.coe_lt_top _)
  match x,y with
  | some (some p),some (some q) =>
    obtain ⟨sign,its,less,more⟩ := (differenceFinite p q).tells
    exact ⟨sign,its,less.trans figureOfLt.symm,more.trans figureOfLt.symm⟩
  | some none,some none => exact absurd rfl ne
  | none,none => exact absurd rfl ne
  | some none,some (some q) =>
    have lt : Figure.of q < ⊤ := WithBot.coe_lt_coe.mpr (WithTop.coe_lt_top _)
    exact ⟨⊤,rfl,iff_of_false high.not_gt lt.not_gt,iff_of_true high lt⟩
  | some none,none =>
    have lt : (⊥ : Figure) < ⊤ := low.trans high
    exact ⟨⊤,rfl,iff_of_false high.not_gt lt.not_gt,iff_of_true high lt⟩
  | none,some none =>
    have lt : (⊥ : Figure) < ⊤ := low.trans high
    exact ⟨⊥,rfl,iff_of_true low lt,iff_of_false low.not_gt lt.not_gt⟩
  | none,some (some q) =>
    have lt : (⊥ : Figure) < .of q := WithBot.bot_lt_coe _
    exact ⟨⊥,rfl,iff_of_true low lt,iff_of_false low.not_gt lt.not_gt⟩
  | some (some p),some none =>
    have lt : Figure.of p < ⊤ := WithBot.coe_lt_coe.mpr (WithTop.coe_lt_top _)
    exact ⟨⊥,rfl,iff_of_true low lt,iff_of_false low.not_gt lt.not_gt⟩
  | some (some p),none =>
    have lt : (⊥ : Figure) < .of p := WithBot.bot_lt_coe _
    exact ⟨⊤,rfl,iff_of_false high.not_gt lt.not_gt,iff_of_true high lt⟩

theorem differenceInts (p q : Int) : Signs (Figure.difference (.of p) (.of q)) p q := by
  obtain ⟨sign,its,less,more⟩ := (differenceFinite p q).tells
  exact ⟨sign,its,less.trans Int.cast_lt,more.trans Int.cast_lt⟩

theorem differenceNats (p q : Nat) : Signs (Figure.difference (.of p) (.of q)) p q := by
  obtain ⟨sign,its,less,more⟩ := (differenceFinite p q).tells
  exact ⟨sign,its,less.trans Nat.cast_lt,more.trans Nat.cast_lt⟩

end Sign

section Compare
variable (cfg : Config) (s : SessionStrategy) (now : Int) (a b : Account)

def pickedSeq (account : Account) : Nat := (get s.lastPickedSeq account.id).getD 0

def comparator : Option Figure :=
  let x := capacityMetricFor cfg a now
  let y := capacityMetricFor cfg b now
  let seq := Figure.difference (.of (pickedSeq s a)) (.of (pickedSeq s b))
  if a.priority ≠ b.priority then Figure.difference (.of a.priority) (.of b.priority)
  else if x.bucket ≠ y.bucket then Figure.difference (.of x.bucket.rank) (.of y.bucket.rank)
  else
    match x.bucket with
    | .harvest =>
      if x.harvestDeadline ≠ y.harvestDeadline then x.harvestDeadline.difference y.harvestDeadline
      else if x.weeklyHeadroom ≠ y.weeklyHeadroom then y.weeklyHeadroom.difference x.weeklyHeadroom
      else seq
    | .unknown => if x.util ≠ y.util then x.util.difference y.util else seq
    | .nearLimit =>
      if x.recoveryDeadline ≠ y.recoveryDeadline then x.recoveryDeadline.difference y.recoveryDeadline
      else if x.binding ≠ y.binding then x.binding.difference y.binding
      else seq

def CapacityMetric.ownKey (m : CapacityMetric) : Figure ×ₗ Figure ×ₗ Figureᵒᵈ :=
  match m.bucket with
  | .harvest => toLex (m.harvestDeadline,toLex (0,OrderDual.toDual m.weeklyHeadroom))
  | .unknown => toLex (m.util,toLex (0,OrderDual.toDual 0))
  | .nearLimit => toLex (m.recoveryDeadline,toLex (m.binding,OrderDual.toDual 0))

def rankOf : Rank :=
  let metric := capacityMetricFor cfg a now
  toLex (a.priority,toLex (metric.bucket.rank,metric.ownKey))

def sortKey : SortKey := toLex (rankOf cfg now a,pickedSeq s a)

variable {cfg s now a b}

theorem bucketRanks {x y : CapacityBucket} (same : x.rank = y.rank) : x = y := by
  cases x <;> cases y <;> first | rfl | cases same

theorem ownSigns {x y result} (bucket : x.bucket = y.bucket)
    (priority : a.priority = b.priority) (here : capacityMetricFor cfg a now = x) (there : capacityMetricFor cfg b now = y)
    (own : Signs result (toLex (x.ownKey,pickedSeq s a)) (toLex (y.ownKey,pickedSeq s b))) :
    Signs result (sortKey cfg s now a) (sortKey cfg s now b) := by
  obtain ⟨sign,its,less,more⟩ := own.tells
  refine ⟨sign,its,?_,?_⟩
  · simp only [sortKey,rankOf,here,there,Prod.Lex.toLex_lt_toLex,less,priority,bucket,lt_self_iff_false,true_and,false_or,
      EmbeddingLike.apply_eq_iff_eq,Prod.mk.injEq]
  · simp only [sortKey,rankOf,here,there,Prod.Lex.toLex_lt_toLex,more,priority,bucket,lt_self_iff_false,true_and,false_or,
      EmbeddingLike.apply_eq_iff_eq,Prod.mk.injEq]

theorem comparatorSigns : Signs (comparator cfg s now a b) (sortKey cfg s now a) (sortKey cfg s now b) := by
  have seq := differenceNats (pickedSeq s a) (pickedSeq s b)
  rw [comparator]
  split
  · rename_i priority
    exact ((differenceInts _ _).first priority).first (fun same => priority (congrArg (fun r : Rank => (ofLex r).1) same))
  rename_i priority
  split
  · rename_i bucket
    have ranks : (capacityMetricFor cfg a now).bucket.rank ≠ (capacityMetricFor cfg b now).bucket.rank :=
      fun same => bucket (bucketRanks same)
    refine Signs.first (((differenceNats _ _).first ranks).second (not_not.mp priority)) ?_
    exact fun same => ranks (congrArg (fun r : Rank => (ofLex (ofLex r).2).1) same)
  rename_i bucket
  have priority := not_not.mp priority
  have bucket := not_not.mp bucket
  refine ownSigns bucket priority rfl rfl ?_
  generalize capacityMetricFor cfg a now = x at bucket
  generalize capacityMetricFor cfg b now = y at bucket
  cases own : x.bucket with
  | harvest =>
    simp only [CapacityMetric.ownKey,own,← bucket]
    split
    · rename_i deadline
      exact ((differenceSigns deadline).first deadline).first (fun same => deadline (congrArg (fun r => (ofLex r).1) same))
    rename_i deadline
    have deadline := not_not.mp deadline
    split
    · rename_i headroom
      refine Signs.first ((((differenceSigns (Ne.symm headroom)).dual).second rfl).second deadline) ?_
      exact fun same => headroom (congrArg (fun r : Figure ×ₗ Figure ×ₗ Figureᵒᵈ => OrderDual.ofDual (ofLex (ofLex r).2).2) same)
    · rename_i headroom
      exact seq.second (by rw [deadline,not_not.mp headroom])
  | unknown =>
    simp only [CapacityMetric.ownKey,own,← bucket]
    split
    · rename_i util
      exact ((differenceSigns util).first util).first (fun same => util (congrArg (fun r => (ofLex r).1) same))
    · rename_i util
      exact seq.second (by rw [not_not.mp util])
  | nearLimit =>
    simp only [CapacityMetric.ownKey,own,← bucket]
    split
    · rename_i deadline
      exact ((differenceSigns deadline).first deadline).first (fun same => deadline (congrArg (fun r => (ofLex r).1) same))
    rename_i deadline
    have deadline := not_not.mp deadline
    split
    · rename_i binding
      refine Signs.first (((differenceSigns binding).first binding).second deadline) ?_
      exact fun same => binding (congrArg (fun r => (ofLex (ofLex r).2).1) same)
    · rename_i binding
      exact seq.second (by rw [deadline,not_not.mp binding])

theorem sortsBeforeNotAfter : sortsBefore cfg s now a b = true ↔ NotAfter (comparator cfg s now a b) := by
  have seq := differenceNats (pickedSeq s a) (pickedSeq s b)
  rw [sortsBefore,comparator]
  split
  · rename_i priority
    rw [decide_eq_true_iff,(differenceInts _ _).before priority]
  split
  · rename_i bucket
    rw [decide_eq_true_iff,(differenceNats _ _).before (fun same => bucket (bucketRanks same))]
  generalize capacityMetricFor cfg a now = x
  generalize capacityMetricFor cfg b now = y
  cases x.bucket with
  | harvest =>
    dsimp only
    split
    · rename_i deadline
      rw [decide_eq_true_iff,(differenceSigns deadline).before deadline]
    split
    · rename_i headroom
      rw [decide_eq_true_iff,(differenceSigns (Ne.symm headroom)).before (Ne.symm headroom)]
    · rw [decide_eq_true_iff,seq.notAfter,pickedSeq,pickedSeq]
  | unknown =>
    dsimp only
    split
    · rename_i util
      rw [decide_eq_true_iff,(differenceSigns util).before util]
    · rw [decide_eq_true_iff,seq.notAfter,pickedSeq,pickedSeq]
  | nearLimit =>
    dsimp only
    split
    · rename_i deadline
      rw [decide_eq_true_iff,(differenceSigns deadline).before deadline]
    split
    · rename_i binding
      rw [decide_eq_true_iff,(differenceSigns binding).before binding]
    · rw [decide_eq_true_iff,seq.notAfter,pickedSeq,pickedSeq]

theorem sortsBeforeKeys : sortsBefore cfg s now a b = true ↔ sortKey cfg s now a ≤ sortKey cfg s now b :=
  sortsBeforeNotAfter.trans comparatorSigns.notAfter

theorem memSorted {accounts : List Account} :
    a ∈ sortAvailableAccounts cfg s accounts now ↔ a ∈ accounts ∧ isAccountAvailable a now = true := by
  rw [sortAvailableAccounts,List.mem_insertionSort,List.mem_filter]

theorem sortedPerm (cfg : Config) (s : SessionStrategy) (accounts : List Account) (now : Int) :
    List.Perm (sortAvailableAccounts cfg s accounts now) (accounts.filter (isAccountAvailable · now)) :=
  List.perm_insertionSort _ _

theorem sortedKeys (cfg : Config) (s : SessionStrategy) (accounts : List Account) (now : Int) :
    (sortAvailableAccounts cfg s accounts now).Pairwise (fun a b => sortKey cfg s now a ≤ sortKey cfg s now b) := by
  have total : ∀ a b, sortsBefore cfg s now a b = true ∨ sortsBefore cfg s now b a = true := by
    intro a b
    rw [sortsBeforeKeys,sortsBeforeKeys]
    exact le_total _ _
  have through : ∀ a b c, sortsBefore cfg s now a b = true → sortsBefore cfg s now b c = true →
      sortsBefore cfg s now a c = true := by
    intro a b c
    rw [sortsBeforeKeys,sortsBeforeKeys,sortsBeforeKeys]
    exact le_trans
  have : Std.Total (fun a b : Account => sortsBefore cfg s now a b = true) := ⟨total⟩
  have : IsTrans Account (fun a b => sortsBefore cfg s now a b = true) := ⟨through⟩
  have sorted := List.pairwise_insertionSort (fun a b => sortsBefore cfg s now a b = true)
    (accounts.filter (isAccountAvailable · now))
  exact sorted.imp sortsBeforeKeys.mp

end Compare

end Clankermux.LoadBalancer
