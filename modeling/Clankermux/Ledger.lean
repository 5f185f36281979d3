import Clankermux.InsertionMap

/-! Items are opened under fresh keys, held, and closed once. What has been opened is
what is held and what is closed, so that sums over the three agree and no key is
closed twice. -/
namespace Clankermux
open InsertionMap

namespace InsertionMap
variable {κ ν : Type*} [DecidableEq κ] {m : InsertionMap κ ν} {key : κ} {value : ν}

theorem permDelete (nodup : (keys m).Nodup) (found : get m key = some value) : m.Perm ((key,value)::delete m key) := by
  induction m with
  | nil => simp at found
  | cons head rest ih =>
    obtain ⟨k,v⟩ := head
    simp only [keys,List.map_cons,List.nodup_cons] at nodup
    by_cases same : k = key
    · subst same
      simp only [get,if_true,Option.some.injEq] at found
      subst found
      simp [delete,deleteAbsent nodup.1]
    · simp only [get,if_neg same] at found
      simp only [delete,if_neg same]
      exact ((ih nodup.2 found).cons _).trans (.swap _ _ _)

theorem nodupDelete (nodup : (keys m).Nodup) : (keys (delete m key)).Nodup := nodupSublist nodup deleteSublist

variable {μ : Type*}

theorem mapSet {f : ν → μ} {old} (found : get m key = some old) (same : f value = f old) :
    (set m key value).map (Prod.map id f) = m.map (Prod.map id f) := by
  induction m with
  | nil => simp at found
  | cons head rest ih =>
    obtain ⟨k,v⟩ := head
    by_cases its : k = key
    · subst its
      simp only [get,if_true,Option.some.injEq] at found
      simp [set,same,found]
    · simp only [get,if_neg its] at found
      simp [set,its,ih found]

theorem mapSetNew {f : ν → μ} :
    (set m key value).map (Prod.map id f) = set (m.map (Prod.map id f)) key (f value) := by
  induction m with
  | nil => rfl
  | cons head rest ih =>
    obtain ⟨k,v⟩ := head
    by_cases its : k = key
    · simp [set,its]
    · simp [set,its,ih]

omit [DecidableEq κ] in
theorem keysMap {f : ν → μ} : keys (m.map (Prod.map id f)) = keys m := by
  simp [keys]

theorem getMap (m : InsertionMap κ ν) (key : κ) (f : ν → μ) : get (m.map (Prod.map id f)) key = (get m key).map f := by
  induction m with
  | nil => rfl
  | cons head rest ih =>
    obtain ⟨k,v⟩ := head
    by_cases its : k = key
    · simp [get,its]
    · simpa [get,its] using ih

theorem deleteMap {f : ν → μ} : delete (m.map (Prod.map id f)) key = (delete m key).map (Prod.map id f) := by
  induction m with
  | nil => rfl
  | cons head rest ih =>
    obtain ⟨k,v⟩ := head
    by_cases its : k = key
    · simpa [delete,its] using ih
    · simpa [delete,its] using ih

end InsertionMap

structure Ledger (κ α : Type*) where
  held : InsertionMap κ α
  closed : List (κ × α)

namespace Ledger
variable {κ α : Type*} [DecidableEq κ] {l t : Ledger κ α} {k : κ} {a : α}

inductive Close (l : Ledger κ α) : Ledger κ α → Prop where
  | close (k : κ) (a : α) (found : get l.held k = some a) : Close l ⟨delete l.held k,(k,a)::l.closed⟩

abbrev Closes : Ledger κ α → Ledger κ α → Prop := Relation.ReflTransGen Close

theorem Closes.perm (run : Closes l t) (nodup : (keys l.held).Nodup) :
    (keys t.held).Nodup ∧ (l.held ++ l.closed).Perm (t.held ++ t.closed) := by
  induction run with
  | refl => exact ⟨nodup,.refl _⟩
  | tail _ step ih =>
    cases step with
    | close k a found =>
      refine ⟨nodupDelete ih.1,ih.2.trans ?_⟩
      exact ((permDelete ih.1 found).append_right _).trans List.perm_middle.symm

theorem Closes.onto (closed : List (κ × α)) (run : Closes l t) (before : l.closed = []) :
    Closes ⟨l.held,closed⟩ ⟨t.held,t.closed ++ closed⟩ := by
  induction run with
  | refl => rw [before]; exact .refl
  | tail _ step ih =>
    cases step with
    | close k a found => exact ih.tail (.close k a found)

theorem Closes.emptied (run : Closes l t) (empty : l.held = []) : t.held = [] := by
  induction run with
  | refl => exact empty
  | tail _ step ih =>
    cases step with
    | close k a found => rw [ih] at found; cases found

structure Balanced (opened : List (κ × α)) (l : Ledger κ α) : Prop where
  distinct : (opened.map Prod.fst).Nodup
  perm : opened.Perm (l.held ++ l.closed)

variable {opened : List (κ × α)} {f : α → Nat}

omit [DecidableEq κ] in
theorem Balanced.nodup (b : Balanced opened l) : (keys l.held).Nodup := by
  have both := (b.perm.map Prod.fst).nodup b.distinct
  rw [List.map_append] at both
  exact List.Nodup.of_append_left both

theorem Balanced.closes (b : Balanced opened l) (run : Closes l t) : Balanced opened t :=
  ⟨b.distinct,b.perm.trans (run.perm b.nodup).2⟩

theorem Balanced.opens (b : Balanced opened l) (fresh : k ∉ opened.map Prod.fst) :
    Balanced ((k,a)::opened) { l with held := set l.held k a } := by
  have absent : k ∉ keys l.held := by
    intro member
    have inside := List.mem_append_left (keys l.closed) member
    exact fresh ((b.perm.map Prod.fst).mem_iff.mpr (by simpa [keys] using inside))
  refine ⟨List.nodup_cons.mpr ⟨fresh,b.distinct⟩,?_⟩
  rw [setFresh absent]
  simpa using (b.perm.cons (k,a)).trans List.perm_middle.symm

theorem Balanced.once (b : Balanced opened l) (was : k ∈ opened.map Prod.fst) :
    (k ∈ keys l.held ∧ (l.closed.map Prod.fst).count k = 0) ∨
      (k ∉ keys l.held ∧ (l.closed.map Prod.fst).count k = 1) := by
  have one := List.count_eq_one_of_mem b.distinct was
  have both : (keys l.held).count k + (l.closed.map Prod.fst).count k = 1 := by
    rw [← one,(b.perm.map Prod.fst).count_eq,List.map_append,List.count_append]
    rfl
  by_cases held : k ∈ keys l.held
  · have := List.count_pos_iff.mpr held
    exact .inl ⟨held,by omega⟩
  · have := List.count_eq_zero.mpr held
    exact .inr ⟨held,by omega⟩

def total (f : α → Nat) (items : List (κ × α)) : Nat := (items.map (fun item => f item.2)).sum

omit [DecidableEq κ] in
theorem totalPerm {items others : List (κ × α)} (perm : items.Perm others) :
    total f items = total f others :=
  (perm.map _).sum_eq

omit [DecidableEq κ] in
theorem totalAppend {items others : List (κ × α)} :
    total f (items ++ others) = total f items + total f others := by
  simp [total]

omit [DecidableEq κ] in
theorem totalCons {items} : total f ((k,a)::items) = f a + total f items := by
  simp [total]

end Ledger
end Clankermux
