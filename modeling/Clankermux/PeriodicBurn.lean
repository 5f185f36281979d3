import Mathlib.Tactic.Linarith

/-! Something that fills at a fixed rate and is emptied at regular instants, and the first
instant at which it is full. -/
namespace Clankermux

/-- Without an emptying it is full at `fullAt`. It is emptied at `emptiedAt` and every `period` after,
and fills from empty in `timeToFull`, if ever. -/
structure Burn where
  fullAt : Option ℚ
  emptiedAt : ℚ
  period : ℚ
  timeToFull : Option ℚ
  deriving DecidableEq

namespace Burn
variable {b : Burn} {t x y : ℚ}

def renewed (b : Burn) : Burn := { b with
  fullAt := b.timeToFull.map (b.emptiedAt + ·)
  emptiedAt := b.emptiedAt + b.period }

def firstFullAt (b : Burn) : Option ℚ :=
  match b.fullAt.filter (· < b.emptiedAt) with
  | some t => some t
  | none => (b.timeToFull.filter (· < b.period)).map (b.emptiedAt + ·)

inductive Instant : Burn → ℚ → Prop where
  | full (c : Burn) (x : ℚ) : c.fullAt = some x → Instant c x
  | emptied (c : Burn) : Instant c c.emptiedAt
  | later (c : Burn) (x : ℚ) : Instant c.renewed x → Instant c x

theorem instantCases (lasts : 0 ≤ b.period) (fills : ∀ timeToFull, b.timeToFull = some timeToFull → 0 ≤ timeToFull) (happens : b.Instant x) :
    b.fullAt = some x ∨ b.emptiedAt ≤ x := by
  induction happens with
  | full c x full => exact .inl full
  | emptied c => exact .inr le_rfl
  | later c x _ ih =>
    rcases ih lasts fills with full | emptied
    · obtain ⟨timeToFull,rate,rfl⟩ := Option.map_eq_some_iff.mp full
      exact .inr (le_add_of_nonneg_right (fills timeToFull rate))
    · exact .inr ((le_add_of_nonneg_right lasts).trans emptied)

theorem firstFullSoon (full : b.fullAt = some t) (before : t < b.emptiedAt) : b.firstFullAt = some t := by
  simp [firstFullAt,full,before,Option.filter]

theorem firstFullLate (late : ∀ t, b.fullAt = some t → b.emptiedAt ≤ t) :
    b.firstFullAt = (b.timeToFull.filter (· < b.period)).map (b.emptiedAt + ·) := by
  cases full : b.fullAt with
  | none => simp [firstFullAt,full]
  | some t => simp [firstFullAt,full,not_lt.mpr (late t full),Option.filter]

theorem firstFullRenewed (late : ∀ t, b.fullAt = some t → b.emptiedAt ≤ t) : b.renewed.firstFullAt = b.firstFullAt := by
  rw [firstFullLate late]
  cases rate : b.timeToFull with
  | none => simp [firstFullAt,renewed,rate]
  | some timeToFull =>
    by_cases within : timeToFull < b.period
    · simp [firstFullAt,renewed,rate,within,Option.filter]
    · simp [firstFullAt,renewed,rate,within,Option.filter]

theorem firstFullCases (first : b.firstFullAt = some t) (fills : ∀ timeToFull, b.timeToFull = some timeToFull → 0 < timeToFull) :
    b.fullAt = some t ∧ t < b.emptiedAt ∨ b.emptiedAt < t := by
  by_cases soon : ∃ x, b.fullAt = some x ∧ x < b.emptiedAt
  · obtain ⟨x,full,less⟩ := soon
    rw [firstFullSoon full less] at first
    cases first
    exact .inl ⟨full,less⟩
  · rw [firstFullLate (fun x full => not_lt.mp (fun less => soon ⟨x,full,less⟩))] at first
    obtain ⟨timeToFull,rate,same⟩ := Option.map_eq_some_iff.mp first
    have positive := fills timeToFull (Option.filter_eq_some_iff.mp rate).1
    exact .inr (by linarith)

theorem firstFullNow (fills : ∀ timeToFull, b.timeToFull = some timeToFull → 0 < timeToFull) (before : t ≤ b.emptiedAt) :
    b.firstFullAt = some t ↔ b.fullAt = some t ∧ t < b.emptiedAt :=
  ⟨fun first => (firstFullCases first fills).resolve_right (not_lt.mpr before),fun soon => firstFullSoon soon.1 soon.2⟩

theorem firstFullAhead (first : b.firstFullAt = some t) (fills : ∀ timeToFull, b.timeToFull = some timeToFull → 0 < timeToFull) :
    b.fullAt = some t ∨ b.emptiedAt < t := (firstFullCases first fills).imp_left And.left

theorem firstFullLeast (emptied : t ≤ b.emptiedAt) (full : ∀ x, b.fullAt = some x → t ≤ x)
    (fills : ∀ timeToFull, b.timeToFull = some timeToFull → 0 < timeToFull) (first : b.firstFullAt = some x) : t ≤ x := by
  rcases firstFullAhead first fills with now | later
  · exact full x now
  · exact emptied.trans later.le

def Apart (pool : List Burn) (tolerance horizon : ℚ) : Prop :=
  ∀ b ∈ pool, ∀ c ∈ pool, ∀ x y, b.Instant x → c.Instant y → x < horizon → y < horizon → x < y → x + tolerance < y

theorem Apart.instants {pool later tolerance horizon} (apart : Apart pool tolerance horizon)
    (earlier : ∀ c ∈ later, ∃ b ∈ pool, ∀ x, c.Instant x → b.Instant x) : Apart later tolerance horizon := by
  intro b inside c member x y first second near far less
  obtain ⟨before,its,told⟩ := earlier b inside
  obtain ⟨other,there,heard⟩ := earlier c member
  exact apart before its other there x y (told x first) (heard y second) near far less

end Burn

def firstFulls (horizon : ℚ) (burns : List Burn) : List ℚ := burns.filterMap fun b => b.firstFullAt.filter (· < horizon)

theorem memFirstFulls {horizon burns t} :
    t ∈ firstFulls horizon burns ↔ t < horizon ∧ ∃ b ∈ burns, b.firstFullAt = some t := by
  simp only [firstFulls,List.mem_filterMap,Option.filter_eq_some_iff,decide_eq_true_eq]
  exact ⟨fun ⟨b,inside,first,near⟩ => ⟨near,b,inside,first⟩,fun ⟨near,b,inside,first⟩ => ⟨b,inside,first,near⟩⟩

def Earliest (instants : List ℚ) : Option ℚ → Prop
  | none => instants = []
  | some t => t ∈ instants ∧ ∀ x ∈ instants, t ≤ x

theorem Earliest.minimum {instants first} (earliest : Earliest instants first) : instants.min? = first := by
  cases first with
  | none => exact List.min?_eq_none_iff.mpr earliest
  | some t => exact List.min?_eq_some_iff.mpr earliest

theorem earliestMinimum (instants : List ℚ) : Earliest instants instants.min? := by
  cases found : instants.min? with
  | none => exact List.min?_eq_none_iff.mp found
  | some t => exact List.min?_eq_some_iff.mp found

theorem minimumMembers {instants others : List ℚ} (same : ∀ x, x ∈ instants ↔ x ∈ others) : instants.min? = others.min? := by
  refine Earliest.minimum ?_
  have least := earliestMinimum others
  cases found : others.min? with
  | none =>
    rw [found] at least
    refine List.eq_nil_iff_forall_not_mem.mpr (fun x inside => ?_)
    rw [show others = [] from least] at same
    cases (same x).mp inside
  | some t =>
    rw [found] at least
    exact ⟨(same t).mpr least.1,fun x inside => least.2 x ((same x).mp inside)⟩

end Clankermux
