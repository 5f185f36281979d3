import Mathlib.Algebra.Order.Ring.Rat

/-! Values of JSON. -/
namespace Clankermux

inductive Json where
  | null
  | bool (value : Bool)
  | num (value : Rat)
  | str (value : String)
  | arr (items : List Json)
  | obj (fields : List (String × Json))

namespace Json

def field (name : String) : Json → Option Json
  | .obj fields => (fields.reverse.find? (·.1 = name)).map Prod.snd
  | _ => none

def setField (json : Json) (name : String) (value : Json) : Json :=
  match json with
  | .obj fields =>
    if fields.any (·.1 = name) then .obj (fields.map (fun entry => if entry.1 = name then (name,value) else entry))
    else .obj (fields ++ [(name,value)])
  | other => other

def isObject : Json → Bool
  | .obj _ => true
  | _ => false

end Json
end Clankermux

/-! The text that JavaScript makes of a value of JSON. -/
namespace Clankermux.Json

mutual

/-- `String(value)`: an object with a field `toString` of its own has no text. -/
def textOf (numberText : Rat → String) : Json → Option String
  | .null => some "null"
  | .bool value => some (if value then "true" else "false")
  | .num value => some (numberText value)
  | .str value => some value
  | .arr items => (itemTexts numberText items).map (String.intercalate ",")
  | .obj fields => if fields.any (·.1 = "toString") then none else some "[object Object]"

def itemTexts (numberText : Rat → String) : List Json → Option (List String)
  | [] => some []
  | item::rest => do
    let text ← match item with
      | .null => some ""
      | item => textOf numberText item
    let texts ← itemTexts numberText rest
    some (text::texts)

end

def fieldText (numberText : Rat → String) (json : Json) (name : String) : Option String :=
  match json.field name with
  | some value => textOf numberText value
  | none => some "undefined"

def isStr (value : Option Json) (text : String) : Bool :=
  match value with
  | some (.str value) => value == text
  | _ => false

def truthy : Json → Bool
  | .null => false
  | .bool value => value
  | .num value => value ≠ 0
  | .str value => value ≠ ""
  | .arr _ => true
  | .obj _ => true

/-! The fields of an object one of whose fields is set, and the equality of values. -/

theorem findReplaced (fields : List (String × Json)) (name other : String) (body : Json) :
    ((fields.map (fun entry => if entry.1 = name then (name,body) else entry)).find? (·.1 = other)).map Prod.snd =
      if other = name then (fields.find? (·.1 = name)).map (fun _ => body) else (fields.find? (·.1 = other)).map Prod.snd := by
  induction fields with
  | nil => simp
  | cons entry rest ih =>
    obtain ⟨key,value⟩ := entry
    by_cases own : other = name
    · subst own
      by_cases same : key = other
      · simp [same]
      · simpa [same] using ih
    · by_cases same : key = name
      · simpa [same,own,Ne.symm own] using ih
      · by_cases found : key = other
        · simp [own,found]
        · simpa [same,own,found] using ih

theorem fieldSet {v : Json} (object : v.isObject = true) (name other : String) (body : Json) :
    (v.setField name body).field other = if other = name then some body else v.field other := by
  cases v with
  | obj fields =>
    rw [setField]
    split
    · rename_i listed
      rw [field,← List.map_reverse,findReplaced]
      split
      · have found : (fields.reverse.find? (·.1 = name)).isSome := by
          simpa using listed
        obtain ⟨entry,same⟩ := Option.isSome_iff_exists.mp found
        rw [same]
        rfl
      · rfl
    · rw [field,List.reverse_append,List.reverse_singleton,List.singleton_append,List.find?_cons]
      by_cases own : other = name
      · simp [own]
      · simp [own,Ne.symm own,field]
  | null | bool b | num n | str t | arr items => simp [isObject] at object

theorem objectSet {v : Json} (object : v.isObject = true) (name : String) (body : Json) : (v.setField name body).isObject = true := by
  cases v with
  | obj fields =>
    rw [setField]
    split
    · rfl
    · rfl
  | null | bool b | num n | str t | arr items => simp [isObject] at object

theorem fieldSetOther (v : Json) {name other : String} (body : Json) (different : other ≠ name) :
    (v.setField name body).field other = v.field other := by
  cases v with
  | obj fields => rw [fieldSet rfl,if_neg different]
  | null | bool b | num n | str t | arr items => rfl

mutual

def equal : Json → Json → Bool
  | .null,.null => true
  | .bool a,.bool b => a == b
  | .num a,.num b => decide (a = b)
  | .str a,.str b => a == b
  | .arr items,.arr others => equalItems items others
  | .obj fields,.obj others => equalFields fields others
  | _,_ => false

def equalItems : List Json → List Json → Bool
  | [],[] => true
  | a::items,b::others => equal a b && equalItems items others
  | _,_ => false

def equalFields : List (String × Json) → List (String × Json) → Bool
  | [],[] => true
  | (name,a)::fields,(other,b)::others => name == other && equal a b && equalFields fields others
  | _,_ => false

end

mutual

theorem equalIff : ∀ a b, equal a b = true ↔ a = b
  | .null,b => by cases b <;> simp [equal]
  | .bool _,b => by cases b <;> simp [equal]
  | .num _,b => by cases b <;> simp [equal]
  | .str _,b => by cases b <;> simp [equal]
  | .arr items,b => by
    cases b with
    | arr others => simp [equal,equalItemsIff items others]
    | null | bool _ | num _ | str _ | obj _ => simp [equal]
  | .obj fields,b => by
    cases b with
    | obj others => simp [equal,equalFieldsIff fields others]
    | null | bool _ | num _ | str _ | arr _ => simp [equal]

theorem equalItemsIff : ∀ items others, equalItems items others = true ↔ items = others
  | [],others => by cases others <;> simp [equalItems]
  | a::items,others => by
    cases others with
    | nil => simp [equalItems]
    | cons b others => simp [equalItems,equalIff a b,equalItemsIff items others]

theorem equalFieldsIff : ∀ fields others : List (String × Json), equalFields fields others = true ↔ fields = others
  | [],others => by cases others <;> simp [equalFields]
  | (name,a)::fields,others => by
    cases others with
    | nil => simp [equalFields]
    | cons entry others => simp [equalFields,equalIff a entry.2,equalFieldsIff fields others,Prod.ext_iff]

end

instance : DecidableEq Json := fun a b => decidable_of_iff (equal a b = true) (equalIff a b)

/-! A field of an object, or the items of an array, changed in place. -/
variable {f g : Json → Json} {name other : String} {v w : Json}

def alter (name : String) (f : Json → Json) : Json → Json
  | .obj fields => .obj (fields.map (fun entry => (entry.1,if entry.1 = name then f entry.2 else entry.2)))
  | other => other

def alterItems (f : Json → Json) : Json → Json
  | .arr items => .arr (items.map f)
  | other => other

def dropField (name : String) : Json → Json
  | .obj fields => .obj (fields.filter (·.1 ≠ name))
  | other => other

def itemsOf : Option Json → List Json
  | some (.arr items) => items
  | _ => []

theorem fieldAlter (v : Json) : (alter name f v).field other = if other = name then (v.field other).map f else v.field other := by
  cases v with
  | obj fields =>
    have key : ((fun entry : String × Json => decide (entry.1 = other)) ∘ fun entry : String × Json =>
        (entry.1,if entry.1 = name then f entry.2 else entry.2)) = fun entry => decide (entry.1 = other) := rfl
    rw [alter,field,← List.map_reverse,List.find?_map,field,key]
    cases found : fields.reverse.find? (·.1 = other) with
    | none => simp
    | some entry =>
      have key : entry.1 = other := by simpa using List.find?_some found
      by_cases same : other = name <;> simp [key,same]
  | null | bool b | num n | str t | arr items => simp [alter,field]

theorem fieldAlterSelf (v : Json) : (alter name f v).field name = (v.field name).map f := by
  rw [fieldAlter,if_pos rfl]

theorem fieldAlterOther (v : Json) (different : other ≠ name) : (alter name f v).field other = v.field other := by
  rw [fieldAlter,if_neg different]

theorem alterTwice (v : Json) : alter name g (alter name f v) = alter name (g ∘ f) v := by
  cases v with
  | obj fields =>
    simp only [alter,List.map_map]
    refine congrArg Json.obj (List.map_congr_left (fun entry _ => ?_))
    by_cases same : entry.1 = name <;> simp [same]
  | null | bool b | num n | str t | arr items => rfl

theorem alterSwap (v : Json) (different : other ≠ name) : alter name f (alter other g v) = alter other g (alter name f v) := by
  cases v with
  | obj fields =>
    simp only [alter,List.map_map]
    refine congrArg Json.obj (List.map_congr_left (fun entry _ => ?_))
    by_cases first : entry.1 = name
    · simp [first,different.symm]
    · simp [first]
  | null | bool b | num n | str t | arr items => rfl

theorem alterItemsTwice (v : Json) : alterItems g (alterItems f v) = alterItems (g ∘ f) v := by
  cases v with
  | arr items => simp [alterItems]
  | null | bool b | num n | str t | obj fields => rfl

theorem dropFieldSet (v : Json) : (v.setField name w).dropField name = v.dropField name := by
  cases v with
  | obj fields =>
    have kept : ∀ entry, decide ((if entry.1 = name then (name,w) else entry).1 ≠ name) = decide (entry.1 ≠ name) := by
      intro entry
      by_cases same : entry.1 = name <;> simp [same]
    rw [setField]
    split
    · rw [dropField,dropField,List.filter_map]
      simp only [Function.comp_def,kept]
      refine congrArg Json.obj ((List.map_congr_left (fun entry there => ?_)).trans (List.map_id _))
      rw [if_neg (by simpa using (List.mem_filter.mp there).2),id]
    · rw [dropField,dropField,List.filter_append,List.filter_cons]
      simp
  | null | bool b | num n | str t | arr items => rfl

theorem itemsAlter (v : Option Json) : itemsOf (v.map (alterItems f)) = (itemsOf v).map f := by
  cases v with
  | none => rfl
  | some v => cases v <;> rfl

end Clankermux.Json
