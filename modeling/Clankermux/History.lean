import Mathlib.Data.List.Basic

/-! Histories are lists kept newest first: what a step adds stands in front. A
statement about what came before or after an entry speaks of the two sides of a
place where the entry occurs. -/
namespace Clankermux.History
variable {α : Type*} {history newer older added rest : List α} {entry first : α}

def Since (history : List α) (entry : α) (newer : List α) : Prop :=
  ∃ older, history = newer ++ entry::older

theorem notSinceNil : ¬ Since ([] : List α) entry newer := by
  rintro ⟨older,h⟩
  simp at h

theorem splitCons : first::history = newer ++ entry::older ↔
    (newer = [] ∧ first = entry ∧ history = older) ∨ ∃ rest, newer = first::rest ∧ history = rest ++ entry::older := by
  cases newer with
  | nil => simp
  | cons head tail =>
    constructor
    · intro h
      simp only [List.cons_append,List.cons.injEq] at h
      exact .inr ⟨tail,by rw [h.1],h.2⟩
    · rintro (⟨impossible,_⟩ | ⟨rest,same,h⟩)
      · cases impossible
      · cases same; rw [h]; rfl

theorem splitAdded (absent : entry ∉ added) (h : added ++ history = newer ++ entry::older) :
    ∃ rest, newer = added ++ rest ∧ history = rest ++ entry::older := by
  induction added generalizing newer with
  | nil => exact ⟨newer,rfl,h⟩
  | cons head tail ih =>
    rw [List.cons_append,splitCons] at h
    rcases h with ⟨_,same,_⟩ | ⟨rest,same,h⟩
    · exact absurd (same ▸ (.head _)) absent
    · obtain ⟨deep,rfl,last⟩ := ih (fun inside => absent (.tail _ inside)) h
      exact ⟨deep,same,last⟩

theorem sinceCons : Since (first::history) entry newer ↔
    (newer = [] ∧ first = entry) ∨ ∃ rest, newer = first::rest ∧ Since history entry rest := by
  constructor
  · rintro ⟨older,h⟩
    rcases splitCons.mp h with ⟨empty,same,_⟩ | ⟨rest,same,h⟩
    · exact .inl ⟨empty,same⟩
    · exact .inr ⟨rest,same,older,h⟩
  · rintro (⟨rfl,rfl⟩ | ⟨rest,rfl,older,rfl⟩)
    · exact ⟨history,rfl⟩
    · exact ⟨older,rfl⟩

theorem sinceAdded (absent : entry ∉ added) (h : Since (added ++ history) entry newer) :
    ∃ rest, newer = added ++ rest ∧ Since history entry rest := by
  obtain ⟨older,h⟩ := h
  obtain ⟨rest,same,h⟩ := splitAdded absent h
  exact ⟨rest,same,older,h⟩

theorem Since.mem (h : Since history entry newer) : entry ∈ history := by
  obtain ⟨older,rfl⟩ := h
  simp

theorem snocSplit (split : history ++ [first] = newer ++ entry::older) :
    (older = [] ∧ newer = history ∧ entry = first) ∨ ∃ rest, older = rest ++ [first] ∧ history = newer ++ entry::rest := by
  obtain rfl | ⟨rest,last,rfl⟩ := List.eq_nil_or_concat older
  · obtain ⟨same,last⟩ := List.append_inj' split rfl
    exact .inl ⟨rfl,same.symm,(List.singleton_inj.mp last).symm⟩
  · rw [List.concat_eq_append] at split ⊢
    have parts : history ++ [first] = (newer ++ entry::rest) ++ [last] := by simpa using split
    obtain ⟨same,end_⟩ := List.append_inj' parts rfl
    rw [List.singleton_inj.mp end_]
    exact .inr ⟨rest,rfl,same⟩

theorem snocGet {l : List α} {x y i} (here : (l ++ [x])[i]? = some y) : l[i]? = some y ∨ i = l.length ∧ y = x := by
  rw [List.getElem?_append] at here
  split at here
  · exact .inl here
  · rw [List.getElem?_singleton] at here
    split at here
    · exact .inr ⟨by omega,(Option.some.inj here).symm⟩
    · cases here

end Clankermux.History
