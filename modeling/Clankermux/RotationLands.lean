import Clankermux.PendingRotation

/-! Where the newest generation is, told from the completions that are still to be
delivered: once they are, the row holds the generation, or the registry has an entry
that describes it and is anchored on the row. -/
namespace Clankermux.TokenManager

def Write.ofRefresh (w : Write) : Bool :=
  match w.writer with
  | .flush _ => false
  | _ => true

@[simp] theorem ofRefreshPersist {refresh refreshToken expected exchanged} :
    (⟨.persist refresh,refreshToken,expected,exchanged⟩ : Write).ofRefresh = true := rfl

@[simp] theorem ofRefreshRetry {refresh refreshToken expected exchanged} :
    (⟨.retry refresh,refreshToken,expected,exchanged⟩ : Write).ofRefresh = true := rfl

theorem flushOfNot {w : Write} (not : w.ofRefresh = false) : ∃ entry, w.writer = .flush entry := by
  unfold Write.ofRefresh at not
  split at not
  · exact ⟨_,‹_›⟩
  · simp at not

def Describes (held : Token) (pending : Option PendingRotation) : Prop :=
  ∀ e, pending = some e → e.generation = held

structure Holds (held row : Token) (pending : Option PendingRotation) : Prop where
  alone : pending = none → row = held
  describes : Describes held pending
  anchored : ∀ e, pending = some e → e.attemptedRefreshToken = row

/-- `held` is the generation that the row and the registry stand for; it becomes
`newest` when the refresh under way has its own write delivered as persisted. `missed`
is what the registry is known to hold when that write is delivered as superseded. -/
inductive Lands (missed : Option PendingRotation → Prop) (newest row : Token) :
    Token → Option PendingRotation → List Completion → Prop where
  | done {held pending} (holds : Holds held row pending) : Lands missed newest row held pending []
  | failed {held pending w rest} (describes : Describes held pending)
      (next : Lands missed newest row held pending rest) :
      Lands missed newest row held pending (⟨w,.failed⟩::rest)
  | flushPersisted {held pending w entry rest} (flush : w.writer = .flush entry)
      (describes : Describes held pending) (alone : pending = none → entry.generation = held)
      (next : Lands missed newest row held (flushed pending entry .persisted) rest) :
      Lands missed newest row held pending (⟨w,.persisted⟩::rest)
  | flushSuperseded {held pending w entry rest} (flush : w.writer = .flush entry)
      (describes : Describes held pending) (other : pending ≠ some entry)
      (next : Lands missed newest row held pending rest) :
      Lands missed newest row held pending (⟨w,.superseded⟩::rest)
  | ownPersisted {held pending w rest} (own : w.ofRefresh = true) (describes : Describes held pending)
      (next : Lands missed newest row newest none rest) :
      Lands missed newest row held pending (⟨w,.persisted⟩::rest)
  | ownSuperseded {held pending w rest} (own : w.ofRefresh = true) (describes : Describes held pending)
      (misses : missed pending) (next : Lands missed newest row held pending rest) :
      Lands missed newest row held pending (⟨w,.superseded⟩::rest)

namespace Lands
variable {missed weaker : Option PendingRotation → Prop} {newest row held : Token} {pending : Option PendingRotation}
  {completed : List Completion} {w : Write} {entry : PendingRotation}

theorem describes (lands : Lands missed newest row held pending completed) : Describes held pending := by
  cases lands with
  | done holds => exact holds.describes
  | failed describes next => exact describes
  | flushPersisted flush describes alone next => exact describes
  | flushSuperseded flush describes other next => exact describes
  | ownPersisted own describes next => exact describes
  | ownSuperseded own describes misses next => exact describes

theorem otherNewest {newest' : Token} (lands : Lands missed newest row held pending completed)
    (flushes : ∀ x ∈ completed, x.write.ofRefresh = false) : Lands weaker newest' row held pending completed := by
  induction lands with
  | done holds => exact .done holds
  | failed describes next ih => exact .failed describes (ih (fun x inside => flushes x (.tail _ inside)))
  | flushPersisted flush describes alone next ih =>
    exact .flushPersisted flush describes alone (ih (fun x inside => flushes x (.tail _ inside)))
  | flushSuperseded flush describes other next ih =>
    exact .flushSuperseded flush describes other (ih (fun x inside => flushes x (.tail _ inside)))
  | ownPersisted own describes next ih => simp [flushes _ (.head _)] at own
  | ownSuperseded own describes misses next ih => simp [flushes _ (.head _)] at own

theorem rowOfNone (lands : Lands missed newest row held pending completed) (none_ : pending = none)
    (flushes : ∀ x ∈ completed, x.write.ofRefresh = false) : row = held := by
  induction lands with
  | done holds => exact holds.alone none_
  | failed describes next ih => exact ih none_ (fun x inside => flushes x (.tail _ inside))
  | flushPersisted flush describes alone next ih =>
    subst none_
    exact ih rfl (fun x inside => flushes x (.tail _ inside))
  | flushSuperseded flush describes other next ih => exact ih none_ (fun x inside => flushes x (.tail _ inside))
  | ownPersisted own describes next ih => simp [flushes _ (.head _)] at own
  | ownSuperseded own describes misses next ih => exact ih none_ (fun x inside => flushes x (.tail _ inside))

/-- The last completion meets the row with the chain's own generation, or with `newest`
once an own write before it was persisted. -/
theorem appended {row' last} (lands : Lands missed newest row held pending completed)
    (lasts : ∀ {held' pending'}, held' = held ∨ held' = newest ∧ (∃ x ∈ completed, x.write.ofRefresh = true) →
      Holds held' row pending' → Lands missed newest row' held' pending' [last]) :
    Lands missed newest row' held pending (completed ++ [last]) := by
  have later {w : Completion} {rest : List Completion} :
      (∃ x ∈ rest, x.write.ofRefresh = true) → ∃ x ∈ w::rest, x.write.ofRefresh = true :=
    fun ⟨x,inside,own⟩ => ⟨x,.tail _ inside,own⟩
  induction lands with
  | done holds => exact lasts (.inl rfl) holds
  | failed describes next ih => exact .failed describes (ih fun stood => lasts (stood.imp_right (.imp_right later)))
  | flushPersisted flush describes alone next ih =>
    exact .flushPersisted flush describes alone (ih fun stood => lasts (stood.imp_right (.imp_right later)))
  | flushSuperseded flush describes other next ih =>
    exact .flushSuperseded flush describes other (ih fun stood => lasts (stood.imp_right (.imp_right later)))
  | ownPersisted own describes next ih =>
    exact .ownPersisted own describes (ih fun stood => lasts (.inr ⟨stood.elim id And.left,_,.head _,own⟩))
  | ownSuperseded own describes misses next ih =>
    exact .ownSuperseded own describes misses (ih fun stood => lasts (stood.imp_right (.imp_right later)))

theorem executedFailed (lands : Lands missed newest row held pending completed) :
    Lands missed newest row held pending (completed ++ [⟨w,.failed⟩]) :=
  lands.appended fun _ holds => .failed holds.describes (.done holds)

theorem executedFlushSuperseded (lands : Lands missed newest row held pending completed)
    (flush : w.writer = .flush entry) (missedRow : row ≠ entry.attemptedRefreshToken) :
    Lands missed newest row held pending (completed ++ [⟨w,.superseded⟩]) :=
  lands.appended fun _ holds =>
    .flushSuperseded flush holds.describes (fun same => missedRow (holds.anchored entry same).symm) (.done holds)

theorem holdsFlushed (holds : Holds held entry.attemptedRefreshToken pending)
    (ascends : entry.attemptedRefreshToken ≤ entry.generation) (known : entry.generation ≤ held) :
    Holds held entry.generation (flushed pending entry .persisted) ∧ (pending = none → entry.generation = held) := by
  cases pending with
  | none =>
    have row := holds.alone rfl
    have top : entry.generation = held := Nat.le_antisymm known (row ▸ ascends)
    exact ⟨⟨fun _ => top,by simp [Describes,flushed,resolvePendingAfterPersist],
      by simp [flushed,resolvePendingAfterPersist]⟩,fun _ => top⟩
  | some e =>
    have generation := holds.describes e rfl
    have anchored := holds.anchored e rfl
    refine ⟨?_,by simp⟩
    by_cases same : e = entry
    · subst same
      simp only [flushed,resolvePendingAfterPersist]
      exact ⟨fun _ => generation,by simp [Describes],by simp⟩
    · simp only [flushed,resolvePendingAfterPersist,if_neg same]
      refine ⟨by simp,?_,by simp [rebase]⟩
      rintro _ ⟨⟩
      -- An entry without a refresh token of its own describes its anchor.
      simp only [PendingRotation.generation,rebase] at generation ascends known ⊢
      cases named : e.refreshToken with
      | some token => simpa [named] using generation
      | none =>
        simp only [named] at generation ⊢
        exact Nat.le_antisymm known (generation ▸ anchored ▸ ascends)

theorem executedFlushPersisted (lands : Lands missed newest row held pending completed)
    (flush : w.writer = .flush entry) (hits : row = entry.attemptedRefreshToken)
    (ascends : entry.attemptedRefreshToken ≤ entry.generation) (known : entry.generation ≤ held)
    (below : held ≤ newest) :
    Lands missed newest entry.generation held pending (completed ++ [⟨w,.persisted⟩]) := by
  refine lands.appended fun {held' _} stood holds => ?_
  have known' : entry.generation ≤ held' := by
    rcases stood with rfl | ⟨rfl,_⟩
    · exact known
    · exact Nat.le_trans known below
  obtain ⟨after,alone⟩ := holdsFlushed (hits ▸ holds) ascends known'
  exact .flushPersisted flush holds.describes alone (.done after)

theorem executedOwnPersisted (lands : Lands missed newest row held pending completed) (own : w.ofRefresh = true) :
    Lands missed newest newest held pending (completed ++ [⟨w,.persisted⟩]) :=
  lands.appended fun _ holds => .ownPersisted own holds.describes (.done ⟨fun _ => rfl,by simp [Describes],by simp⟩)

theorem executedOwnSuperseded (lands : Lands missed newest row held pending completed) (own : w.ofRefresh = true)
    (flushes : ∀ x ∈ completed, x.write.ofRefresh = false) (misses : ∀ v, Holds held row v → missed v) :
    Lands missed newest row held pending (completed ++ [⟨w,.superseded⟩]) := by
  refine lands.appended fun stood holds => ?_
  obtain rfl | ⟨_,x,inside,other⟩ := stood
  · exact .ownSuperseded own holds.describes (misses _ holds) (.done holds)
  · simp [flushes x inside] at other

/-- `e` is recorded over what is pending: it takes over the anchor, and describes the
newest generation, by itself or because there is no newer one than the anchor. -/
structure Over (newest held : Token) (pending : Option PendingRotation) (e : PendingRotation) : Prop where
  anchored : e.attemptedRefreshToken = (pending.map (·.attemptedRefreshToken)).getD held
  names : e.refreshToken = some newest ∨
    e.refreshToken = none ∧ newest = held ∧ ∀ before, pending = some before → before.refreshToken = none

theorem Over.generation {e : PendingRotation} (past : Over newest held pending e) (describes : Describes held pending) :
    e.generation = newest := by
  rcases past.names with named | ⟨unnamed,same,before⟩
  · simp [PendingRotation.generation,named]
  · rw [PendingRotation.generation,unnamed,Option.getD_none,past.anchored,same]
    cases pending with
    | none => rfl
    | some e' => simpa [PendingRotation.generation,before e' rfl] using describes e' rfl

theorem Over.rebased {e : PendingRotation} (past : Over newest held pending e) (describes : Describes held pending)
    (alone : pending = none → entry.generation = held) :
    Over newest held (flushed pending entry .persisted) (rebase e entry.generation) := by
  constructor
  · cases pending with
    | none => simpa [flushed,resolvePendingAfterPersist,rebase] using alone rfl
    | some before =>
      by_cases same : before = entry
      · subst same
        simpa [flushed,resolvePendingAfterPersist,rebase] using describes before rfl
      · simp [flushed,resolvePendingAfterPersist,rebase,same]
  · refine past.names.imp_right fun ⟨unnamed,same,before⟩ => ⟨unnamed,same,?_⟩
    intro after found
    cases pending with
    | none => simp [flushed,resolvePendingAfterPersist] at found
    | some e' =>
      simp only [flushed,resolvePendingAfterPersist] at found
      split at found
      · simp at found
      · cases found
        exact before e' rfl

theorem recorded {e : PendingRotation} (lands : Lands missed newest row held pending completed)
    (flushes : ∀ x ∈ completed, x.write.ofRefresh = false)
    (fresh : ∀ x ∈ completed, ∀ entry, x.write.writer = .flush entry → entry.recorded ≠ e.recorded)
    (past : Over newest held pending e) : Lands weaker newest row newest (some e) completed := by
  have describes : Describes newest (some e) := by
    rintro _ ⟨⟩
    exact past.generation lands.describes
  induction lands generalizing e with
  | @done held pending holds =>
    refine .done ⟨by simp,describes,?_⟩
    rintro _ ⟨⟩
    rw [past.anchored]
    cases pending with
    | none => exact (holds.alone rfl).symm
    | some e' => exact holds.anchored e' rfl
  | failed describes' next ih =>
    exact .failed describes (ih (fun x inside => flushes x (.tail _ inside))
      (fun x inside => fresh x (.tail _ inside)) past describes)
  | @flushPersisted held pending w entry rest flush describes' alone next ih =>
    have other : e ≠ entry := fun same => fresh _ (.head _) entry flush (same ▸ rfl)
    have over' := past.rebased describes' alone
    refine .flushPersisted flush describes (by simp) ?_
    simp only [flushed,resolvePendingAfterPersist,if_neg other]
    refine ih (fun x inside => flushes x (.tail _ inside)) (fun x inside => fresh x (.tail _ inside)) over' ?_
    rintro _ ⟨⟩
    exact over'.generation next.describes
  | @flushSuperseded held pending w entry rest flush describes' other next ih =>
    refine .flushSuperseded flush describes ?_ (ih (fun x inside => flushes x (.tail _ inside))
      (fun x inside => fresh x (.tail _ inside)) past describes)
    exact fun same => fresh _ (.head _) entry flush (congrArg _ (Option.some.inj same).symm)
  | ownPersisted own describes' next ih => simp [flushes _ (.head _)] at own
  | ownSuperseded own describes' misses next ih => simp [flushes _ (.head _)] at own

end Lands
end Clankermux.TokenManager
