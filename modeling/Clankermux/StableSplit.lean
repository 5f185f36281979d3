import Mathlib.Data.List.MinMax
import Mathlib.Data.List.Perm.Basic

/-! Lists whose items are sent to the back by a test, and items that give way to others. -/
namespace Clankermux.StableSplit
variable {α κ : Type*} {p q : α → Bool} {xs : List α}

def sendBack (p : α → Bool) (xs : List α) : List α := xs.filter (!p ·) ++ xs.filter p

theorem sendBackPerm (p : α → Bool) (xs : List α) : (sendBack p xs).Perm xs :=
  List.perm_append_comm.trans (List.filter_append_perm p xs)

theorem sendBackGroup {v} (side : ∀ a, q a = true → p a = v) : (sendBack p xs).filter q = xs.filter q := by
  have other : ∀ r, (∀ a, q a = true → r a = false) → (xs.filter r).filter q = [] := by
    intro r apart
    refine List.filter_eq_nil_iff.mpr (fun a inside held => ?_)
    rw [List.mem_filter,apart a held] at inside
    exact Bool.false_ne_true inside.2
  have same : ∀ r, (∀ a, q a = true → r a = true) → (xs.filter r).filter q = xs.filter q := by
    intro r within
    rw [List.filter_filter]
    refine List.filter_congr (fun a _ => ?_)
    cases held : q a with
    | false => rfl
    | true => rw [within a held]; rfl
  rw [sendBack,List.filter_append]
  cases v with
  | false => rw [same _ (fun a held => by rw [side a held]; rfl),other p side,List.append_nil]
  | true => rw [other _ (fun a held => by rw [side a held]; rfl),same p side,List.nil_append]

theorem sendBackLoop (p : α → Bool) (xs kept demoted : List α) :
    xs.foldl (fun groups a => if p a then (groups.1,groups.2 ++ [a]) else (groups.1 ++ [a],groups.2)) (kept,demoted) =
      (kept ++ xs.filter (!p ·),demoted ++ xs.filter p) := by
  induction xs generalizing kept demoted with
  | nil => simp
  | cons a rest ih =>
    cases held : p a with
    | false => simp [ih,held]
    | true => simp [ih,held]

theorem sendBackNone (none_ : xs.filter p = []) : sendBack p xs = xs := by
  have all : xs.filter (!p ·) = xs := List.filter_eq_self.mpr (fun a inside => by simpa using List.filter_eq_nil_iff.mp none_ a inside)
  rw [sendBack,none_,all,List.append_nil]

/-! An item gives way where its own supply is below its floor and another one is at that floor.
Of those that are, the one that stands highest does not give way itself. -/
section GivesWay
variable [LinearOrder κ] {able gives : α → Prop} {level supply floor : α → κ}

theorem highest (level : α → κ) {items} (some_ : items ≠ []) : ∃ b ∈ items, ∀ c ∈ items, level c ≤ level b := by
  cases found : items.argmax level with
  | none => exact absurd (List.argmax_eq_none.mp found) some_
  | some b => exact ⟨b,List.argmax_mem found,fun c inside => List.le_of_mem_argmax inside found⟩

theorem someoneStays (another : ∀ a ∈ xs, gives a → ∃ b ∈ xs, able b ∧ floor a ≤ level b) (low : ∀ a ∈ xs, gives a → supply a < floor a)
    (within : ∀ a ∈ xs, able a → level a ≤ supply a) : ∀ a ∈ xs, gives a → ∃ b ∈ xs, able b ∧ floor a ≤ level b ∧ ¬ gives b := by
  classical
  intro a inside gives_
  have some_ : xs.filter (fun b => able b ∧ floor a ≤ level b) ≠ [] := by
    obtain ⟨b,there,able_,at_⟩ := another a inside gives_
    exact List.ne_nil_of_mem (List.mem_filter.mpr ⟨there,decide_eq_true ⟨able_,at_⟩⟩)
  obtain ⟨b,found,above⟩ := highest level some_
  obtain ⟨there,held⟩ := List.mem_filter.mp found
  obtain ⟨able_,at_⟩ := of_decide_eq_true held
  refine ⟨b,there,able_,at_,fun also => ?_⟩
  -- the one that `b` gives way to stands higher than `b`
  obtain ⟨c,further,cAble,cAt⟩ := another b there also
  have higher : level b < level c := lt_of_le_of_lt (within b there able_) (lt_of_lt_of_le (low b there also) cAt)
  have cFound : c ∈ xs.filter (fun b => able b ∧ floor a ≤ level b) :=
    List.mem_filter.mpr ⟨further,decide_eq_true ⟨cAble,le_trans at_ (le_of_lt higher)⟩⟩
  exact absurd (above c cFound) (not_le_of_gt higher)

end GivesWay
end Clankermux.StableSplit
