import Clankermux.InsertionMap

/-! Maps that iterate in insertion order and whose values carry a stamp: a write moves its
key to the back, a sweep drops the entries at the front that are stale and stops at the
first live one, and a cap drops the entries at the front that are too many. As long as
the stamps do not decrease from front to back, the sweep drops exactly what is stale and
the cap what is least recent. -/
namespace Clankermux.RecencyMap
open InsertionMap
variable {κ ν τ : Type*} [LinearOrder τ] (stamp : ν → τ)

def sweep (staleBefore : τ) : InsertionMap κ ν → InsertionMap κ ν
  | [] => []
  | (key,value)::rest => if stamp value ≥ staleBefore then (key,value)::rest else sweep staleBefore rest

def overflow (max : Nat) (m : InsertionMap κ ν) : InsertionMap κ ν := m.take (m.length - max)

def capped (max : Nat) (m : InsertionMap κ ν) : InsertionMap κ ν := m.drop (m.length - max)

def Ordered (m : InsertionMap κ ν) : Prop := m.Pairwise (fun a b => stamp a.2 ≤ stamp b.2)

def Below (last : τ) (m : InsertionMap κ ν) : Prop := ∀ entry ∈ m, stamp entry.2 ≤ last

variable {stamp} {m : InsertionMap κ ν} {key other : κ} {value : ν} {last staleBefore : τ} {max : Nat}

theorem Ordered.sublist {m' : InsertionMap κ ν} (ordered : Ordered stamp m) (sub : List.Sublist m' m) :
    Ordered stamp m' := List.Pairwise.sublist sub ordered

theorem Below.sublist {m' : InsertionMap κ ν} (below : Below stamp last m) (sub : List.Sublist m' m) :
    Below stamp last m' := fun entry inside => below entry (sub.subset inside)

theorem Below.weaken {last' : τ} (below : Below stamp last m) (le : last ≤ last') : Below stamp last' m :=
  fun entry inside => (below entry inside).trans le

theorem sweepSuffix : List.IsSuffix (sweep stamp staleBefore m) m := by
  induction m with
  | nil => exact List.suffix_refl _
  | cons head rest ih =>
    unfold sweep
    split
    · exact List.suffix_refl _
    · exact ih.trans (List.suffix_cons _ _)

theorem Ordered.sweepEqFilter (ordered : Ordered stamp m) :
    sweep stamp staleBefore m = m.filter (fun entry => staleBefore ≤ stamp entry.2) := by
  induction m with
  | nil => rfl
  | cons head rest ih =>
    obtain ⟨key,value⟩ := head
    obtain ⟨first,tail⟩ := List.pairwise_cons.mp ordered
    by_cases live : staleBefore ≤ stamp value
    · have all : rest.filter (fun entry => decide (staleBefore ≤ stamp entry.2)) = rest :=
        List.filter_eq_self.mpr (fun entry inside => decide_eq_true (live.trans (first entry inside)))
      simp [sweep,live,all]
    · simp [sweep,live,ih tail]

theorem overflowAppend (max : Nat) (m : InsertionMap κ ν) : overflow max m ++ capped max m = m := List.take_append_drop _ _

theorem cappedSublist : List.Sublist (capped max m) m := List.drop_sublist _ _

theorem lengthCapped : (capped max m).length ≤ max := by
  rw [capped,List.length_drop]
  omega

theorem Ordered.overflowLeast (ordered : Ordered stamp m) :
    ∀ a ∈ overflow max m, ∀ b ∈ capped max m, stamp a.2 ≤ stamp b.2 := by
  have split : Ordered stamp (overflow max m ++ capped max m) := by rwa [overflowAppend]
  exact (List.pairwise_append.mp split).2.2

variable [DecidableEq κ]

def touch (m : InsertionMap κ ν) (key : κ) (value : ν) : InsertionMap κ ν := set (delete m key) key value

theorem touchEqAppend : touch m key value = delete m key ++ [(key,value)] :=
  setFresh (fun inside => (memKeysDelete.mp inside).2 rfl)

theorem lengthDelete : (delete m key).length ≤ m.length := by
  rw [deleteEqFilter]
  exact List.length_filter_le _ _

theorem lengthTouch : (touch m key value).length ≤ m.length + 1 := by
  rw [touchEqAppend,List.length_append,List.length_singleton]
  exact Nat.succ_le_succ lengthDelete

@[simp] theorem getTouchSelf : get (touch m key value) key = some value := getSetSelf

theorem getTouchOther (ne : other ≠ key) : get (touch m key value) other = get m other := by
  rw [touch,getSetOther ne,getDeleteOther ne]

theorem Ordered.touch (ordered : Ordered stamp m) (below : Below stamp (stamp value) m) :
    Ordered stamp (touch m key value) := by
  rw [touchEqAppend]
  refine List.pairwise_append.mpr ⟨ordered.sublist deleteSublist,List.pairwise_singleton _ _,?_⟩
  intro a inside b last_
  cases List.mem_singleton.mp last_
  exact below a (deleteSublist.subset inside)

theorem Below.touch (below : Below stamp last m) (le : stamp value ≤ last) : Below stamp last (touch m key value) := by
  rw [touchEqAppend]
  intro entry inside
  rcases List.mem_append.mp inside with before | last_
  · exact below entry (deleteSublist.subset before)
  · cases List.mem_singleton.mp last_
    exact le

theorem nodupTouch (unique : (keys m).Nodup) : (keys (touch m key value)).Nodup := nodupSet (nodupSublist unique deleteSublist)

theorem getAppend {a b : InsertionMap κ ν} : get (a ++ b) key = (get a key).or (get b key) := by
  induction a with
  | nil => rfl
  | cons head rest ih =>
    obtain ⟨k,v⟩ := head
    by_cases same : k = key
    · simp [InsertionMap.get,same]
    · simp [InsertionMap.get,same,ih]

theorem getSweep (found : get m key = some value) (live : staleBefore ≤ stamp value) :
    get (sweep stamp staleBefore m) key = some value := by
  induction m with
  | nil => simp at found
  | cons head rest ih =>
    obtain ⟨k,v⟩ := head
    unfold sweep
    split
    · exact found
    · rename_i stale
      by_cases same : k = key
      · simp only [InsertionMap.get,if_pos same,Option.some.injEq] at found
        exact absurd (found ▸ live) stale
      · simp only [InsertionMap.get,if_neg same] at found
        exact ih found

theorem getCapped (spared : key ∉ keys (overflow max m)) : get (capped max m) key = get m key := by
  conv_rhs => rw [← overflowAppend max m,getAppend,getOfNotMem spared,Option.none_or]

theorem getFilter {keep : κ × ν → Bool} (found : get m key = some value) (kept : keep (key,value) = true) :
    get (m.filter keep) key = some value := by
  induction m with
  | nil => simp at found
  | cons head rest ih =>
    obtain ⟨k,v⟩ := head
    by_cases same : k = key
    · subst same
      simp only [InsertionMap.get,if_true,Option.some.injEq] at found
      subst found
      simp [kept,InsertionMap.get]
    · simp only [InsertionMap.get,if_neg same] at found
      cases first : keep (k,v) with
      | true => simpa [first,InsertionMap.get,same] using ih found
      | false => simpa [first] using ih found

end Clankermux.RecencyMap
