import Mathlib.Order.Lattice
import Mathlib.Tactic.Common

/-! The best of a list while it is read: the next one takes the place of the one that is held
only when it scores more. -/
namespace Clankermux.RunningBest

variable {α β : Type*} [LinearOrder β] (score : α → β)

def keepBest (held : Option α) : List α → Option α
  | [] => held
  | x::rest => if held.all (score · < score x) then keepBest (some x) rest else keepBest held rest

variable {score} {held : Option α} {list more : List α} {found other : α}

theorem bestNone : keepBest score held list = none ↔ held = none ∧ list = [] := by
  induction list generalizing held with
  | nil => simp [keepBest]
  | cons x rest ih =>
    rw [keepBest]
    split
    · simp [ih]
    · rename_i stays
      cases held with
      | none => simp at stays
      | some y => simp [ih]

theorem bestAmong (best : keepBest score held list = some found) :
    (held = some found ∨ found ∈ list) ∧ (∀ x ∈ held, score x ≤ score found) ∧ ∀ x ∈ list, score x ≤ score found := by
  induction list generalizing held with
  | nil =>
    cases best
    exact ⟨.inl rfl,by simp,by simp⟩
  | cons x rest ih =>
    rw [keepBest] at best
    split at best
    · rename_i less
      obtain ⟨from_,first,later⟩ := ih best
      have top : score x ≤ score found := first x rfl
      refine ⟨.inr ?_,fun y its => ?_,List.forall_mem_cons.mpr ⟨top,later⟩⟩
      · rcases from_ with same | inside
        · exact Option.some.inj same ▸ (.head _)
        · exact .tail _ inside
      · cases its
        have below : score y < score x := by simpa using less
        exact below.le.trans top
    · rename_i stays
      obtain ⟨from_,first,later⟩ := ih best
      cases held with
      | none => simp at stays
      | some y =>
        have below : score x ≤ score y := by simpa using stays
        exact ⟨from_.imp_right (List.mem_cons_of_mem _),first,List.forall_mem_cons.mpr ⟨below.trans (first y rfl),later⟩⟩

/-- Two readings of the same things find equally good ones. -/
theorem bestScore (same : ∀ x, x ∈ list ↔ x ∈ more) (best : keepBest score none list = some found)
    (again : keepBest score none more = some other) : score found = score other := by
  obtain ⟨here,-,above⟩ := bestAmong best
  obtain ⟨there,-,over_⟩ := bestAmong again
  exact le_antisymm (over_ found ((same found).mp (by simpa using here))) (above other ((same other).mpr (by simpa using there)))

end Clankermux.RunningBest
