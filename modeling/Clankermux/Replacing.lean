import Mathlib.Data.List.Infix

/-! A text in which every occurrence of one piece, from the front on, is overwritten by another
piece of its length. Pieces without a separator are overwritten between the separators. -/
namespace Clankermux.Replacing
variable {α : Type*} [DecidableEq α]

def replaced (needle into : List α) : List α → List α → List α
  | _,[] => []
  | next::pending,_::rest => next::replaced needle into pending rest
  | [],item::rest =>
    if needle <+: item::rest then into.headD item::replaced needle into into.tail rest
    else item::replaced needle into [] rest

variable {needle into pending front behind text : List α} {sep item : α}

theorem replacedLength : ∀ {pending}, (replaced needle into pending text).length = text.length := by
  induction text with
  | nil => exact fun {pending} => by cases pending <;> rfl
  | cons item rest ih =>
    intro pending
    cases pending with
    | nil =>
      rw [replaced]
      split
      · simp [ih]
      · simp [ih]
    | cons next pending => simp [replaced,ih]

theorem replacedEmpty : replaced needle into pending text = [] ↔ text = [] := by
  rw [← List.length_eq_zero_iff,replacedLength,List.length_eq_zero_iff]

theorem replacedFree (free : sep ∉ into) : ∀ {pending}, sep ∉ pending → sep ∉ text → sep ∉ replaced needle into pending text := by
  induction text with
  | nil => exact fun {pending} _ none_ => by cases pending <;> exact none_
  | cons item rest ih =>
    intro pending still none_
    obtain ⟨other,none_⟩ := not_or.mp (fun inside => none_ (List.mem_cons.mpr inside))
    cases pending with
    | nil =>
      rw [replaced]
      split
      · have first : sep ≠ into.headD item := by
          cases into with
          | nil => exact other
          | cons first _ => exact List.ne_of_not_mem_cons free
        exact List.not_mem_cons_of_ne_of_not_mem first (ih (fun inside => free (List.mem_of_mem_tail inside)) none_)
      · exact List.not_mem_cons_of_ne_of_not_mem other (ih List.not_mem_nil none_)
    | cons next pending =>
      obtain ⟨first,still⟩ := not_or.mp (fun inside => still (List.mem_cons.mpr inside))
      exact List.not_mem_cons_of_ne_of_not_mem first (ih still none_)

omit [DecidableEq α] in
theorem prefixBefore (free : sep ∉ needle) : needle <+: front ++ sep::behind ↔ needle <+: front := by
  refine ⟨fun begins => ?_,fun begins => begins.trans (List.prefix_append _ _)⟩
  obtain ⟨more,whole⟩ := begins
  rcases List.append_eq_append_iff.mp whole with ⟨rest,same,-⟩ | ⟨rest,same,next⟩
  · exact ⟨rest,same.symm⟩
  · cases rest with
    | nil => exact ⟨[],by simpa using same⟩
    | cons first rest =>
      have its := (List.cons.inj next).1
      exact absurd (by simp [same,its]) free

theorem replacedBreak (some_ : needle ≠ []) (free : sep ∉ needle) (same : into.length = needle.length) : ∀ {pending}, pending.length ≤ front.length →
    replaced needle into pending (front ++ sep::behind) = replaced needle into pending front ++ sep::replaced needle into [] behind := by
  induction front with
  | nil =>
    intro pending short
    cases List.length_eq_zero_iff.mp (Nat.le_zero.mp short)
    have none_ : needle <+: [] ++ sep::behind ↔ needle <+: [] := prefixBefore free
    have apart : ¬ needle <+: sep::behind := fun begins => some_ (List.prefix_nil.mp (none_.mp begins))
    simp [replaced,apart]
  | cons item front ih =>
    intro pending short
    cases pending with
    | nil =>
      rw [List.cons_append,replaced,replaced]
      have begins : needle <+: item::(front ++ sep::behind) ↔ needle <+: item::front := by
        rw [← List.cons_append]
        exact prefixBefore free
      by_cases here : needle <+: item::front
      · have fits : into.tail.length ≤ front.length := by
          have le := here.length_le
          rw [List.length_tail,same]
          simpa using le
        rw [if_pos here,if_pos (begins.mpr here),ih fits,List.cons_append]
      · rw [if_neg here,if_neg (fun there => here (begins.mp there)),ih (Nat.zero_le _),List.cons_append]
    | cons next pending =>
      rw [List.cons_append,replaced,replaced,ih (Nat.le_of_succ_le_succ short),List.cons_append]

theorem replacedPieces (some_ : needle ≠ []) (free : sep ∉ needle) (free' : sep ∉ into) (same : into.length = needle.length) (text : List α) :
    (replaced needle into [] text).splitOn sep = (text.splitOn sep).map (replaced needle into []) := by
  induction size : text.length using Nat.strongRecOn generalizing text with
  | ind _ ih =>
    subst size
    by_cases inside : sep ∈ text
    · obtain ⟨front,behind,rfl,first⟩ := List.eq_append_cons_of_mem inside
      rw [replacedBreak some_ free same (Nat.zero_le _),List.splitOn_append_cons_self,List.splitOn_append_cons_self,
        List.splitOn_eq_singleton first,List.splitOn_eq_singleton (replacedFree free' List.not_mem_nil first),ih behind.length (by rw [List.length_append,List.length_cons]; omega) behind rfl]
      rfl
    · rw [List.splitOn_eq_singleton inside,List.splitOn_eq_singleton (replacedFree free' List.not_mem_nil inside)]
      rfl

end Clankermux.Replacing
