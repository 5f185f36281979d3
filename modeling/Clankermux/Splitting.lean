import Mathlib.Data.List.Basic

/-! A list that is cut at a separator while it is still growing: the pieces that a separator
has ended, and the piece that is still open. -/
namespace Clankermux.Splitting

variable {α : Type*} [DecidableEq α]

@[grind] def cut (sep : α) : List α → List (List α) × List α
  | [] => ([],[])
  | a::rest =>
    let (pieces,last) := cut sep rest
    if a = sep then ([]::pieces,last)
    else
      match pieces with
      | [] => ([],a::last)
      | piece::more => ((a::piece)::more,last)

variable {sep : α}

theorem cutCons (a : α) (rest : List α) : cut sep (a::rest) =
    if a = sep then ([]::(cut sep rest).1,(cut sep rest).2)
    else
      match (cut sep rest).1 with
      | [] => ([],a::(cut sep rest).2)
      | piece::more => ((a::piece)::more,(cut sep rest).2) := rfl

theorem cutSep (rest : List α) : cut sep (sep::rest) = ([]::(cut sep rest).1,(cut sep rest).2) := by
  rw [cutCons,if_pos rfl]

theorem splitOnCut [BEq α] [LawfulBEq α] (l : List α) : l.splitOn sep = (cut sep l).1 ++ [(cut sep l).2] := by
  induction l with
  | nil => simp [cut]
  | cons a rest ih =>
    rw [List.splitOn_cons_eq_if_modifyHead,ih,cutCons]
    by_cases same : a = sep
    · simp [same]
    · cases pieces : (cut sep rest).1 with
      | nil => simp [same]
      | cons piece more => simp [same]

theorem cutOpen (l : List α) : sep ∉ (cut sep l).2 := by
  induction l with
  | nil => simp [cut]
  | cons a rest ih =>
    rw [cutCons]
    by_cases same : a = sep
    · simpa [same] using ih
    · cases pieces : (cut sep rest).1 with
      | nil => simpa [same,Ne.symm same] using ih
      | cons piece more => simpa [same] using ih

theorem cutAppend (l more : List α) : cut sep (l ++ more) =
    ((cut sep l).1 ++ (cut sep ((cut sep l).2 ++ more)).1,(cut sep ((cut sep l).2 ++ more)).2) := by
  induction l with
  | nil => simp [cut]
  | cons a rest ih =>
    rw [List.cons_append,cutCons,ih,cutCons]
    by_cases same : a = sep
    · simp [same]
    · cases pieces : (cut sep rest).1 with
      | nil =>
        simp only [if_neg same,List.nil_append,List.cons_append]
        rw [cutCons,if_neg same]
      | cons piece others => simp [same]

theorem cutFree (l : List α) (free : sep ∉ l) : cut sep l = ([],l) := by
  induction l with
  | nil => rfl
  | cons a rest ih =>
    have other : a ≠ sep := fun same => free (same ▸ (.head _))
    rw [cutCons,ih (fun inside => free (.tail _ inside)),if_neg other]

theorem cutBlock {piece rest} (free : sep ∉ piece) :
    cut sep (piece ++ sep::rest) = (piece::(cut sep rest).1,(cut sep rest).2) := by
  induction piece with
  | nil => exact cutSep rest
  | cons a others ih =>
    have other : a ≠ sep := fun same => free (same ▸ (.head _))
    rw [List.cons_append,cutCons,ih (fun inside => free (.tail _ inside)),if_neg other]

theorem cutWhole (l : List α) (none_ : (cut sep l).1 = []) : (cut sep l).2 = l := by
  induction l with
  | nil => rfl
  | cons a rest ih =>
    rw [cutCons] at none_ ⊢
    by_cases same : a = sep
    · simp [same] at none_
    · cases pieces : (cut sep rest).1 with
      | nil => simp [same,ih pieces]
      | cons piece more => simp [same,pieces] at none_

theorem cutSuffix (l : List α) : (cut sep l).2 <:+ l := by
  induction l with
  | nil => exact List.suffix_refl _
  | cons a rest ih =>
    rw [cutCons]
    by_cases same : a = sep
    · rw [if_pos same]
      exact ih.trans (List.suffix_cons a rest)
    · rw [if_neg same]
      cases pieces : (cut sep rest).1 with
      | nil =>
        simp only [cutWhole rest pieces]
        exact List.suffix_refl _
      | cons piece more => exact ih.trans (List.suffix_cons a rest)

theorem cutLast {l a} (last : (cut sep l).2.getLast? = some a) : l.getLast? = some a := by
  obtain ⟨front,whole⟩ := @cutSuffix _ _ sep l
  rw [← whole,List.getLast?_append,last]
  rfl

theorem cutEnded {l} (ended : l = [] ∨ l.getLast? = some sep) : (cut sep l).2 = [] := by
  cases last : (cut sep l).2.getLast? with
  | none => exact List.getLast?_eq_none_iff.mp last
  | some a =>
    have inside : a ∈ (cut sep l).2 := List.mem_of_getLast? last
    rcases ended with rfl | ended
    · simp [cut] at last
    · cases ended.symm.trans (cutLast last)
      exact absurd inside (cutOpen l)

end Clankermux.Splitting
