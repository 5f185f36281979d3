import Mathlib.Algebra.BigOperators.Group.List.Basic
import Mathlib.Algebra.Group.Defs
import Mathlib.Algebra.GroupWithZero.Nat
import Mathlib.Data.List.Induction
import Mathlib.Data.List.Sort

/-! Maps that iterate in insertion order: writing a key that is present keeps its
place, a new key goes last. -/
namespace Clankermux

abbrev InsertionMap (κ ν : Type*) := List (κ × ν)

namespace InsertionMap
variable {κ ν : Type*} [DecidableEq κ]

@[grind] def get : InsertionMap κ ν → κ → Option ν
  | [],_ => none
  | (k,v)::rest,key => if k = key then some v else get rest key

@[grind] def set : InsertionMap κ ν → κ → ν → InsertionMap κ ν
  | [],key,value => [(key,value)]
  | (k,v)::rest,key,value => if k = key then (k,value)::rest else (k,v)::set rest key value

@[grind] def delete : InsertionMap κ ν → κ → InsertionMap κ ν
  | [],_ => []
  | (k,v)::rest,key => if k = key then delete rest key else (k,v)::delete rest key

def keys (m : InsertionMap κ ν) : List κ := m.map Prod.fst

variable {m : InsertionMap κ ν} {key other : κ} {value : ν}

@[simp] theorem getNil : get ([] : InsertionMap κ ν) key = none := rfl

@[simp] theorem getSetSelf : get (set m key value) key = some value := by
  induction m with
  | nil => simp [set,get]
  | cons head rest ih =>
    obtain ⟨k,v⟩ := head
    by_cases same : k = key
    · simp [set,get,same]
    · simp [set,get,same,ih]

theorem getSetOther (ne : other ≠ key) : get (set m key value) other = get m other := by
  induction m with
  | nil => simp [set,get,Ne.symm ne]
  | cons head rest ih =>
    obtain ⟨k,v⟩ := head
    by_cases same : k = key
    · subst same; simp [set,get,Ne.symm ne]
    · simp [set,get,same,ih]

theorem getSet : get (set m key value) other = if other = key then some value else get m other := by
  by_cases same : other = key
  · subst same; simp
  · simp [getSetOther same,same]

@[simp] theorem getDeleteSelf : get (delete m key) key = none := by
  induction m with
  | nil => rfl
  | cons head rest ih =>
    obtain ⟨k,v⟩ := head
    by_cases same : k = key
    · simp [delete,same,ih]
    · simp [delete,get,same,ih]

theorem getDeleteOther (ne : other ≠ key) : get (delete m key) other = get m other := by
  induction m with
  | nil => rfl
  | cons head rest ih =>
    obtain ⟨k,v⟩ := head
    by_cases same : k = key
    · subst same; simp [delete,get,Ne.symm ne,ih]
    · simp [delete,get,same,ih]

theorem getDelete : get (delete m key) other = if other = key then none else get m other := by
  by_cases same : other = key
  · subst same; simp
  · simp [getDeleteOther same,same]

theorem memOfGet (found : get m key = some value) : (key,value) ∈ m := by
  induction m with
  | nil => simp at found
  | cons head rest ih =>
    obtain ⟨k,v⟩ := head
    by_cases same : k = key
    · subst same
      simp only [get,if_true,Option.some.injEq] at found
      simp [found]
    · simp only [get,if_neg same] at found
      exact .tail _ (ih found)

theorem memKeysOfGet (found : get m key = some value) : key ∈ keys m := List.mem_map.mpr ⟨_,memOfGet found,rfl⟩

theorem getOfNotMem (absent : key ∉ keys m) : get m key = none := by
  cases found : get m key with
  | none => rfl
  | some value => exact absurd (memKeysOfGet found) absent

theorem getOfMemKeys (member : key ∈ keys m) : ∃ value, get m key = some value := by
  induction m with
  | nil => simp [keys] at member
  | cons head rest ih =>
    obtain ⟨k,v⟩ := head
    by_cases same : k = key
    · exact ⟨v,by simp [get,same]⟩
    · have inside : key ∈ keys rest := by simpa [keys,Ne.symm same] using member
      simpa [get,same] using ih inside

theorem deleteEqFilter : delete m key = m.filter (fun entry => entry.1 ≠ key) := by
  induction m with
  | nil => rfl
  | cons head rest ih =>
    obtain ⟨k,v⟩ := head
    by_cases same : k = key
    · simp [delete,same,ih]
    · simp [delete,same,ih]

theorem memKeysDelete : other ∈ keys (delete m key) ↔ other ∈ keys m ∧ other ≠ key := by
  rw [deleteEqFilter]
  simp only [keys,List.mem_map,List.mem_filter,decide_eq_true_eq]
  constructor
  · rintro ⟨entry,⟨inside,ne⟩,rfl⟩
    exact ⟨⟨entry,inside,rfl⟩,ne⟩
  · rintro ⟨⟨entry,inside,rfl⟩,ne⟩
    exact ⟨entry,⟨inside,ne⟩,rfl⟩

theorem memSet {entry : κ × ν} (inside : entry ∈ set m key value) : entry = (key,value) ∨ entry ∈ m := by
  induction m with
  | nil => exact .inl (List.mem_singleton.mp inside)
  | cons head rest ih =>
    rw [set] at inside
    split at inside
    · rename_i same
      rcases List.mem_cons.mp inside with rfl | later
      · exact .inl (by rw [same])
      · exact .inr (.tail _ later)
    · rcases List.mem_cons.mp inside with rfl | later
      · exact .inr (.head _)
      · exact (ih later).imp_right (List.mem_cons_of_mem _)

theorem keysSet : keys (set m key value) = if key ∈ keys m then keys m else keys m ++ [key] := by
  induction m with
  | nil => rfl
  | cons head rest ih =>
    obtain ⟨k,v⟩ := head
    by_cases same : k = key
    · simp [set,keys,same]
    · have step : keys (set ((k,v)::rest) key value) = k::keys (set rest key value) := by simp [set,same,keys]
      have whole : keys ((k,v)::rest) = k::keys rest := rfl
      rw [step,whole,ih]
      by_cases inside : key ∈ keys rest
      · simp [inside]
      · simp [inside,Ne.symm same]

theorem setFresh (fresh : key ∉ keys m) : set m key value = m ++ [(key,value)] := by
  induction m with
  | nil => rfl
  | cons head rest ih =>
    obtain ⟨k,v⟩ := head
    simp only [keys,List.map_cons,List.mem_cons,not_or] at fresh
    simp [set,Ne.symm fresh.1,ih fresh.2]

theorem deleteAbsent (absent : key ∉ keys m) : delete m key = m := by
  induction m with
  | nil => rfl
  | cons head rest ih =>
    obtain ⟨k,v⟩ := head
    simp only [keys,List.map_cons,List.mem_cons,not_or] at absent
    simp [delete,Ne.symm absent.1,ih absent.2]

theorem deletePerm {rest : InsertionMap κ ν} (perm : List.Perm m ((key,value)::rest)) (fresh : key ∉ keys rest) :
    List.Perm (delete m key) rest := by
  rw [deleteEqFilter]
  have filtered := perm.filter (fun entry => decide (entry.1 ≠ key))
  have kept : rest.filter (fun entry => decide (entry.1 ≠ key)) = rest := by
    refine List.filter_eq_self.mpr (fun entry inside => ?_)
    exact decide_eq_true (fun same => fresh (List.mem_map.mpr ⟨entry,inside,same⟩))
  rw [List.filter_cons_of_neg (by simp),kept] at filtered
  exact filtered

def written (entries : List (κ × ν)) : InsertionMap κ ν := entries.foldl (fun m entry => set m entry.1 entry.2) []

variable {entries : List (κ × ν)} {entry : κ × ν}

theorem writtenAdded : written (entries ++ [entry]) = set (written entries) entry.1 entry.2 := by
  simp [written]

theorem getWritten : get (written entries) key = get entries.reverse key := by
  induction entries using List.reverseRecOn with
  | nil => rfl
  | append_singleton entries entry ih =>
    rw [writtenAdded,getSet,ih,List.reverse_append]
    by_cases same : entry.1 = key
    · simp [get,same]
    · simp [get,same,Ne.symm same]

theorem keysWritten : (keys (written entries)).Nodup ∧ ∀ key, key ∈ keys (written entries) ↔ key ∈ entries.map Prod.fst := by
  induction entries using List.reverseRecOn with
  | nil => simp [written,keys]
  | append_singleton entries entry ih =>
    rw [writtenAdded,keysSet]
    by_cases inside : entry.1 ∈ keys (written entries)
    · rw [if_pos inside]
      refine ⟨ih.1,fun key => ?_⟩
      rw [ih.2] at inside ⊢
      simp only [List.map_append,List.mem_append,List.map_cons,List.map_nil,List.mem_singleton]
      constructor
      · exact .inl
      · rintro (before | rfl)
        · exact before
        · exact inside
    · rw [if_neg inside]
      refine ⟨?_,fun key => ?_⟩
      · rw [List.nodup_append]
        refine ⟨ih.1,by simp,?_⟩
        rintro k before other its rfl
        rw [List.mem_singleton.mp its] at before
        exact inside before
      · simp [ih.2]

theorem sortedValues {m : InsertionMap Nat ν} (nodup : (keys m).Nodup) :
    (m.insertionSort (fun a b => a.1 ≤ b.1)).map Prod.snd = ((keys m).insertionSort (· ≤ ·)).filterMap (get m) := by
  have each : ∀ entry ∈ m, get m entry.1 = some entry.2 := by
    intro entry inside
    induction m with
    | nil => simp at inside
    | cons head rest ih =>
      obtain ⟨k,v⟩ := head
      rw [keys,List.map_cons,List.nodup_cons] at nodup
      rcases List.mem_cons.mp inside with rfl | inside
      · simp [get]
      · have other : k ≠ entry.1 := fun same => nodup.1 (List.mem_map.mpr ⟨entry,inside,same.symm⟩)
        simpa [get,other] using ih nodup.2 inside
  have keysSorted : (m.insertionSort (fun a b => a.1 ≤ b.1)).map Prod.fst = (keys m).insertionSort (· ≤ ·) := by
    exact List.map_insertionSort (r := fun a b : Nat × ν => a.1 ≤ b.1) (s := (· ≤ ·)) Prod.fst m (fun a _ b _ => Iff.rfl)
  rw [← keysSorted,List.filterMap_map]
  have inside : ∀ entry ∈ m.insertionSort (fun a b => a.1 ≤ b.1), entry ∈ m := fun entry => (List.mem_insertionSort _).mp
  generalize m.insertionSort (fun a b => a.1 ≤ b.1) = sorted at inside
  induction sorted with
  | nil => rfl
  | cons entry rest ih =>
    have first : get m entry.1 = some entry.2 := each entry (inside entry (.head _))
    simp only [List.filterMap_cons,Function.comp_apply,first]
    exact congrArg (entry.2::·) (ih (fun other its => inside other (.tail _ its)))

theorem getOfMem (unique : (keys m).Nodup) (inside : (key,value) ∈ m) : get m key = some value := by
  induction m with
  | nil => cases inside
  | cons head rest ih =>
    obtain ⟨k,v⟩ := head
    obtain ⟨fresh,unique⟩ := List.nodup_cons.mp unique
    rcases List.mem_cons.mp inside with same | tail
    · cases same
      simp [get]
    · have ne : k ≠ key := by
        rintro rfl
        exact fresh (List.mem_map.mpr ⟨_,tail,rfl⟩)
      simpa [get,ne] using ih unique tail

omit [DecidableEq κ] in
theorem nodupSublist {part : InsertionMap κ ν} (unique : (keys m).Nodup) (sub : List.Sublist part m) : (keys part).Nodup :=
  unique.sublist (sub.map _)

theorem getSublist {part : InsertionMap κ ν} (unique : (keys m).Nodup) (sub : List.Sublist part m) (found : get part key = some value) :
    get m key = some value := getOfMem unique (sub.subset (memOfGet found))

theorem deleteSublist : List.Sublist (delete m key) m := by
  rw [deleteEqFilter]
  exact List.filter_sublist

theorem nodupSet (unique : (keys m).Nodup) : (keys (set m key value)).Nodup := by
  rw [keysSet]
  split_ifs with old
  · exact unique
  · exact List.nodup_append.mpr ⟨unique,by simp,fun a inside b here same => old (List.mem_singleton.mp here ▸ same ▸ inside)⟩

theorem getFilterValues {p} (nodup : (keys m).Nodup) :
    get (m.filter (fun entry => p entry.2)) key = (get m key).filter p := by
  induction m with
  | nil => rfl
  | cons head rest ih =>
    obtain ⟨k,v⟩ := head
    simp only [keys,List.map_cons,List.nodup_cons] at nodup
    by_cases same : k = key
    · subst k
      by_cases kept : p v = true
      · simp [get,kept,Option.filter]
      · rw [List.filter_cons_of_neg (by simpa using kept),ih nodup.2,getOfNotMem nodup.1]
        simp [get,kept,Option.filter]
    · by_cases kept : p v = true
      · simp [get,same,kept,ih nodup.2]
      · rw [List.filter_cons_of_neg (by simpa using kept),ih nodup.2]
        simp [get,same]

theorem getFilterKeys {p : κ → Bool} : get (m.filter (fun entry => p entry.1)) key = if p key then get m key else none := by
  induction m with
  | nil => simp
  | cons head rest ih =>
    obtain ⟨k,v⟩ := head
    by_cases kept : p k = true
    · by_cases same : k = key
      · simp [get,kept,← same]
      · simp [get,kept,same,ih]
    · by_cases same : k = key
      · subst same
        simp [kept,ih]
      · simp [get,kept,same,ih]

theorem sumSet {G : Type*} [AddCommMonoid G] (f : ν → G) : ((set m key value).map (fun entry => f entry.2)).sum + ((get m key).map f).getD 0 =
    (m.map (fun entry => f entry.2)).sum + f value := by
  induction m with
  | nil => simp [set,get]
  | cons head rest ih =>
    obtain ⟨k,v⟩ := head
    by_cases same : k = key
    · simp only [set,get,if_pos same,List.map_cons,List.sum_cons,Option.map_some,Option.getD_some]
      rw [add_right_comm,add_assoc,add_comm]
    · simp only [set,get,if_neg same,List.map_cons,List.sum_cons,add_assoc,ih]

end InsertionMap
end Clankermux
