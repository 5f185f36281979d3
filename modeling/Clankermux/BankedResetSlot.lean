import Clankermux.BankedResetTick

/-! What the ledger keeps while a tick of the Anthropic applier goes on, and what each part of
the tick dispatches. -/
namespace Clankermux.BankedReset
open CodexReset (Candidate Account)

def Ledger.NoAuto (id : String) (ledger : Ledger) : Prop :=
  ∀ row ∈ ledger, row.pendingOf id = true → row.trigger ≠ .auto

def Ledger.Keyed (ledger : Ledger) : Prop := (ledger.map (·.id)).Nodup

inductive LedgerEvent where
  | claim (input : ClaimInput) (attemptSeq : Nat) (requestId : String)
  | change (change : Change)

def ledgers : Machine Ledger LedgerEvent where
  init ledger := ledger = []
  step ledger
    | .claim input attemptSeq requestId => some (ledger.insertAuto input attemptSeq requestId).2
    | .change change => some (ledger.change change)

namespace Ledger
variable {ledger : Ledger} {id : String}

theorem insertCases (blocks : AnthropicBankedResetEventRow → Bool) (row : AnthropicBankedResetEventRow) :
    ((ledger.insertUnless blocks row) = (false,ledger)) ∨
      ((ledger.insertUnless blocks row) = (true,ledger ++ [row]) ∧ ∀ other ∈ ledger, blocks other = false ∧ row.collides other = false) := by
  unfold insertUnless
  split
  · exact .inl rfl
  · next free =>
    simp only [Bool.or_eq_true,List.any_eq_true,not_or,not_exists,not_and,Bool.not_eq_true] at free
    exact .inr ⟨rfl,fun other here => ⟨free.1 other here,free.2 other here⟩⟩

theorem Keyed.insert (keyed : ledger.Keyed) (blocks : AnthropicBankedResetEventRow → Bool) (row : AnthropicBankedResetEventRow) :
    (ledger.insertUnless blocks row).2.Keyed := by
  rcases ledger.insertCases blocks row with same | ⟨added,fresh⟩
  · rwa [same]
  · rw [added,Keyed,List.map_append,List.nodup_append]
    refine ⟨keyed,by simp,?_⟩
    rintro _ here _ last rfl
    obtain ⟨other,there,same⟩ := List.mem_map.mp here
    simp only [List.map_cons,List.map_nil,List.mem_singleton] at last
    have apart := (fresh other there).2
    simp [AnthropicBankedResetEventRow.collides,same,last] at apart

theorem Keyed.map (keyed : ledger.Keyed) {f}
    (same : ∀ row, (f row).id = row.id) : Keyed (ledger.map f) := by
  have ids : (ledger.map f).map (·.id) = ledger.map (·.id) := by
    rw [List.map_map]
    exact List.map_congr_left fun row _ => same row
  rwa [Keyed,ids]

theorem Keyed.change (keyed : ledger.Keyed) (change : Change) : (ledger.change change).Keyed := by
  cases change with
  | resolve rowId status reason now =>
    refine keyed.map fun row => ?_
    split <;> rfl
  | defer rowId next =>
    refine keyed.map fun row => ?_
    split <;> rfl
  | expire now =>
    refine keyed.map fun row => ?_
    split <;> rfl
  | manual input rowId => exact keyed.insert _ _

theorem Keyed.changed (keyed : ledger.Keyed) (changes : List Change) : (ledger.changed changes).Keyed := by
  induction changes generalizing ledger with
  | nil => exact keyed
  | cons change rest ih => exact ih (keyed.change change)

theorem reachableKeyed (reach : ledgers.Reachable ledger) : ledger.Keyed := by
  refine reach.invariant (P := Keyed) (fun s start => ?_) (fun s e t keyed step => ?_)
  · obtain rfl : s = [] := start
    exact List.nodup_nil
  · cases e with
    | claim input attemptSeq requestId =>
      cases step
      exact keyed.insert _ _
    | change change =>
      obtain rfl := Option.some.inj step
      exact keyed.change change
variable {row : AnthropicBankedResetEventRow}

theorem changeAuto {change} (here : row ∈ ledger.change change)
    (pending : row.pendingOf id = true) (auto : row.trigger = .auto) :
    ∃ other ∈ ledger, other.pendingOf id = true ∧ other.trigger = .auto := by
  have mapped : ∀ {hit : AnthropicBankedResetEventRow → Bool} {f : AnthropicBankedResetEventRow → AnthropicBankedResetEventRow},
      row ∈ ledger.map (fun row => if hit row then f row else row) →
      (∀ other, (f other).pendingOf id = true → (f other).trigger = .auto → other.pendingOf id = true ∧ other.trigger = .auto) →
      ∃ other ∈ ledger, other.pendingOf id = true ∧ other.trigger = .auto := by
    intro hit f here back
    obtain ⟨other,there,rfl⟩ := List.mem_map.mp here
    refine ⟨other,there,?_⟩
    by_cases matched : hit other = true
    · rw [if_pos matched] at pending auto
      exact back other pending auto
    · rw [if_neg matched] at pending auto
      exact ⟨pending,auto⟩
  cases change with
  | resolve rowId status reason now =>
    exact mapped here fun other pending => by simp [AnthropicBankedResetEventRow.pendingOf] at pending
  | defer rowId next => exact mapped here fun other pending auto => ⟨pending,auto⟩
  | expire now => exact mapped here fun other pending => by simp [AnthropicBankedResetEventRow.pendingOf] at pending
  | manual input rowId =>
    rcases ledger.insertCases (fun row => row.pendingOf input.accountId && row.requestId != input.requestId)
      (manualRow input rowId) with same | ⟨added,-⟩
    · rw [change,insertManual,same] at here
      exact ⟨row,here,pending,auto⟩
    · rw [change,insertManual,added] at here
      rcases List.mem_append.mp here with there | last
      · exact ⟨row,there,pending,auto⟩
      · simp [List.mem_singleton.mp last,manualRow] at auto

theorem NoAuto.changed (none_ : ledger.NoAuto id) (changes : List Change) : (ledger.changed changes).NoAuto id := by
  induction changes generalizing ledger with
  | nil => exact none_
  | cons change rest ih =>
    refine ih fun row here pending auto => ?_
    obtain ⟨other,there,waiting,kind⟩ := changeAuto here pending auto
    exact none_ other there waiting kind

theorem NoAuto.insertOther (none_ : ledger.NoAuto id) (input : ClaimInput) (attemptSeq : Nat) (requestId : String)
    (apart : input.accountId ≠ id) : (ledger.insertAuto input attemptSeq requestId).2.NoAuto id := by
  rcases ledger.insertCases (·.pendingOf input.accountId) (attemptRow input attemptSeq requestId) with same | ⟨added,-⟩
  · rwa [insertAuto,same]
  · rw [insertAuto,added]
    intro row here pending
    rcases List.mem_append.mp here with there | last
    · exact none_ row there pending
    · simp [List.mem_singleton.mp last,attemptRow,AnthropicBankedResetEventRow.pendingOf,apart] at pending

theorem NoAuto.latest (none_ : ledger.NoAuto id) {grantId}
    (found : ledger.latestAutoRow id grantId = some row) : row.status ≠ .pending := by
  obtain ⟨here,mine⟩ := List.mem_filter.mp (List.argmax_mem found)
  simp only [Bool.and_eq_true,beq_iff_eq] at mine
  intro pending
  exact none_ row here (by simp [AnthropicBankedResetEventRow.pendingOf,mine.1.2,pending]) mine.1.1

theorem memPending :
    row ∈ ledger.findPendingForAccount id ↔ row ∈ ledger ∧ row.pendingOf id = true := by
  rw [findPendingForAccount,List.mem_insertionSort,List.mem_filter]

end Ledger
end Clankermux.BankedReset
