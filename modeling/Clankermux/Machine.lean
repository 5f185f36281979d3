import Mathlib.Data.List.Basic

/-! Machines whose step is a partial function of an event: an event that is not
enabled gives `none`. Runs are kept under a guard on the state before each step,
so that a property of every run and a property of the runs that stay clear of one
situation are reached by the same induction. -/
namespace Clankermux

structure Machine (State Event : Type*) where
  init : State → Prop
  step : State → Event → Option State

namespace Machine
variable {State Event : Type*} (m : Machine State Event)

/-- `m.Steps ok s t`: a run leads from `s` to `t` and every step of it meets `ok`. -/
inductive Steps (ok : State → Event → Prop) (s : State) : State → Prop where
  | refl : Steps ok s s
  | next {t u e} (before : Steps ok s t) (meets : ok t e) (step : m.step t e = some u) : Steps ok s u

def ReachableUnder (ok : State → Event → Prop) (t : State) : Prop :=
  ∃ s, m.init s ∧ m.Steps ok s t

def Reachable (t : State) : Prop := m.ReachableUnder (fun _ _ => True) t

variable {m} {ok : State → Event → Prop} {s t u : State} {e : Event}

theorem reachableStart (start : m.init s) : m.ReachableUnder ok s := ⟨s,start,.refl⟩

theorem reachableNext (reach : m.ReachableUnder ok t) (meets : ok t e) (step : m.step t e = some u) :
    m.ReachableUnder ok u := by
  obtain ⟨s,start,run⟩ := reach
  exact ⟨s,start,run.next meets step⟩

theorem Steps.weaken {weaker} (le : ∀ s e, ok s e → weaker s e)
    (run : m.Steps ok s t) : m.Steps weaker s t := by
  induction run with
  | refl => exact .refl
  | next before meets step ih => exact ih.next (le _ _ meets) step

theorem ReachableUnder.weaken {weaker} (le : ∀ s e, ok s e → weaker s e)
    (reach : m.ReachableUnder ok t) : m.ReachableUnder weaker t := by
  obtain ⟨s,start,run⟩ := reach
  exact ⟨s,start,run.weaken le⟩

theorem ReachableUnder.reachable (reach : m.ReachableUnder ok t) : m.Reachable t :=
  reach.weaken (fun _ _ _ => trivial)

/-- A property that holds at the start of a run and that every guarded step keeps
holds at its end. -/
theorem Steps.keeps {P : State → Prop} (run : m.Steps ok s t) (start : P s)
    (keep : ∀ s e t, P s → ok s e → m.step s e = some t → P t) : P t := by
  induction run with
  | refl => exact start
  | next before meets step ih => exact keep _ _ _ ih meets step

theorem ReachableUnder.invariant {P : State → Prop} (reach : m.ReachableUnder ok t)
    (start : ∀ s, m.init s → P s)
    (keep : ∀ s e t, P s → ok s e → m.step s e = some t → P t) : P t := by
  obtain ⟨s,first,run⟩ := reach
  exact run.keeps (start s first) keep

theorem Reachable.invariant {P : State → Prop} (reach : m.Reachable t)
    (start : ∀ s, m.init s → P s) (keep : ∀ s e t, P s → m.step s e = some t → P t) : P t :=
  ReachableUnder.invariant reach start (fun s e t h _ => keep s e t h)

def runUnder (m : Machine State Event) (guard : State → Event → Bool) : State → List Event → Option State
  | s,[] => some s
  | s,e::rest => if guard s e then (m.step s e).bind (fun t => m.runUnder guard t rest) else none

def run (m : Machine State Event) : State → List Event → Option State := m.runUnder (fun _ _ => true)

theorem runUnderSteps {guard events} (done : m.runUnder guard s events = some t) :
    m.Steps (fun s e => guard s e = true) s t := by
  suffices grow : ∀ {first}, m.Steps (fun s e => guard s e = true) first s →
      m.Steps (fun s e => guard s e = true) first t from grow .refl
  induction events generalizing s with
  | nil => intro first before; cases done; exact before
  | cons e rest ih =>
    intro first before
    simp only [runUnder] at done
    split at done
    · rename_i meets
      obtain ⟨mid,step,tail⟩ := Option.bind_eq_some_iff.mp done
      exact ih tail (before.next meets step)
    · cases done

theorem runReachableUnder {guard} (events : List Event) (start : m.init s)
    (done : m.runUnder guard s events = some t) : m.ReachableUnder (fun s e => guard s e = true) t :=
  ⟨s,start,runUnderSteps done⟩

theorem runReachable (events : List Event) (start : m.init s) (done : m.run s events = some t) :
    m.Reachable t := ⟨s,start,(runUnderSteps done).weaken (fun _ _ _ => trivial)⟩

theorem runMeets {good : Event → Prop} {events} (all : ∀ e ∈ events, good e) (done : m.run s events = some t) :
    m.Steps (fun _ e => good e) s t := by
  suffices grow : ∀ {first}, m.Steps (fun _ e => good e) first s → m.Steps (fun _ e => good e) first t from grow .refl
  induction events generalizing s with
  | nil => intro first before; cases done; exact before
  | cons e rest ih =>
    intro first before
    obtain ⟨mid,step,tail⟩ := Option.bind_eq_some_iff.mp done
    exact ih (fun e later => all e (.tail _ later)) tail (before.next (all e (.head _)) step)

end Machine
end Clankermux
