import Mathlib.Data.List.Basic
import Mathlib.Order.Lattice

/-! A register that keeps the latest of what arrives, by a key, and of equal keys the one that
arrives last. -/
namespace Clankermux.LatestWins
variable {α κ : Type*} [LinearOrder κ] {key : α → κ} {xs ys : List α} {a b : Option α}

def newer (key : α → κ) (stored incoming : Option α) : Option α :=
  match stored,incoming with
  | stored,none => stored
  | none,some incoming => some incoming
  | some stored,some incoming => if key incoming < key stored then some stored else some incoming

def Latest (key : α → κ) (items : List α) : Option α → Prop
  | none => items = []
  | some x => x ∈ items ∧ ∀ y ∈ items, key y ≤ key x

theorem latestEmpty : Latest key [] none := rfl

theorem latestOne (x : α) : Latest key [x] (some x) := ⟨by simp,by simp⟩

theorem latestOption (x : Option α) : Latest key x.toList x := by
  cases x with
  | none => exact latestEmpty
  | some x => exact latestOne x

theorem latestNewer (first : Latest key xs a) (second : Latest key ys b) : Latest key (xs ++ ys) (newer key a b) := by
  cases b with
  | none =>
    have none_ : ys = [] := second
    rw [none_,List.append_nil]
    cases a <;> exact first
  | some incoming =>
    cases a with
    | none =>
      have none_ : xs = [] := first
      rw [none_]
      exact second
    | some stored =>
      rw [newer]
      split
      · rename_i later
        refine ⟨List.mem_append_left _ first.1,fun y inside => ?_⟩
        rcases List.mem_append.mp inside with old | new
        · exact first.2 y old
        · exact le_trans (second.2 y new) (le_of_lt later)
      · rename_i notLater
        refine ⟨List.mem_append_right _ second.1,fun y inside => ?_⟩
        rcases List.mem_append.mp inside with old | new
        · exact le_trans (first.2 y old) (not_lt.mp notLater)
        · exact second.2 y new

theorem newerNone (a : Option α) : newer key none a = a := by
  cases a <;> rfl

theorem newerFiltered {p} (upward : ∀ x y, key x ≤ key y → p x = true → p y = true) (a b : Option α) :
    newer key (a.filter p) (b.filter p) = (newer key a b).filter p := by
  cases a with
  | none => rw [Option.filter_none,newerNone,newerNone]
  | some stored =>
    cases b with
    | none => rfl
    | some incoming =>
      by_cases later : key incoming < key stored
      · rw [newer.eq_3,if_pos later]
        by_cases kept : p incoming = true
        · rw [Option.filter_some_pos kept,Option.filter_some_pos (upward _ _ (le_of_lt later) kept),newer.eq_3,if_pos later]
        · rw [Option.filter_some_neg (Bool.eq_false_iff.mpr kept)]
          rfl
      · rw [newer.eq_3,if_neg later]
        by_cases kept : p stored = true
        · rw [Option.filter_some_pos kept,Option.filter_some_pos (upward _ _ (not_lt.mp later) kept),newer.eq_3,if_neg later]
        · rw [Option.filter_some_neg (Bool.eq_false_iff.mpr kept),newerNone]

theorem latestUnique (distinct : ∀ x ∈ xs, ∀ y ∈ xs, key x = key y → x = y) (same : ∀ x, x ∈ xs ↔ x ∈ ys) (first : Latest key xs a)
    (second : Latest key ys b) : a = b := by
  cases a with
  | none =>
    have none_ : xs = [] := first
    cases b with
    | none => rfl
    | some y =>
      have inside := (same y).mpr second.1
      rw [none_] at inside
      cases inside
  | some x =>
    cases b with
    | none =>
      have none_ : ys = [] := second
      have inside := (same x).mp first.1
      rw [none_] at inside
      cases inside
    | some y =>
      have there := (same y).mpr second.1
      have below : key x ≤ key y := second.2 x ((same x).mp first.1)
      have above : key y ≤ key x := first.2 y there
      rw [distinct x first.1 y there (le_antisymm below above)]

end Clankermux.LatestWins
