import Clankermux.History
import Mathlib.Logic.Relation

/-! Handing a job over from one worker to the next. One worker at most is fed, one at
most is being retired, and a worker is fed only when whoever was fed before it has
been terminated. Then no two workers that are both alive were ever given work. -/
namespace Clankermux
open History

inductive HandoverEntry (ω κ : Type*) where
  | wrote (worker : ω) (item : κ)
  | terminated (worker : ω)

structure Handover (ω κ : Type*) where
  active : Option ω
  outgoing : Option ω
  log : List (HandoverEntry ω κ)

namespace Handover
variable {ω κ : Type*} [DecidableEq ω]

inductive Step (h : Handover ω κ) : Handover ω κ → Prop where
  | write (w : ω) (k : κ) (fed : h.active = some w) : Step h { h with log := .wrote w k::h.log }
  | terminate (w : ω) :
      Step h { h with active := if h.active = some w then none else h.active,log := .terminated w::h.log }
  | retire (w : ω) (fed : h.active = some w) (free : h.outgoing = none) :
      Step h { h with active := none,outgoing := some w }
  | restore (w : ω) (idle : h.active = none) (retired : h.outgoing = some w) :
      Step h { h with active := some w,outgoing := none }
  | promote (w : ω) (idle : h.active = none) (past : ∀ o, h.outgoing = some o → .terminated o ∈ h.log) :
      Step h { h with active := some w,outgoing := none }
  | forget (past : ∀ o, h.outgoing = some o → .terminated o ∈ h.log) : Step h { h with outgoing := none }
  | drop (past : ∀ a, h.active = some a → .terminated a ∈ h.log) : Step h { h with active := none }

abbrev Steps : Handover ω κ → Handover ω κ → Prop := Relation.ReflTransGen Step

variable {h t : Handover ω κ}

structure Exclusive (h : Handover ω κ) : Prop where
  alone : h.outgoing.isSome → h.active = none
  held : ∀ w k, .wrote w k ∈ h.log → .terminated w ∈ h.log ∨ h.active = some w ∨ h.outgoing = some w

def Separated (log : List (HandoverEntry ω κ)) : Prop :=
  ∀ newer older w k, log = newer ++ .wrote w k::older →
    ∀ other item, .wrote other item ∈ older → other ≠ w → .terminated other ∈ older

theorem Exclusive.step (e : Exclusive h) (step : Step h t) : Exclusive t := by
  cases step with
  | write w k fed =>
    refine ⟨e.alone,fun other item member => ?_⟩
    rcases List.mem_cons.mp member with new | old
    · cases new
      exact .inr (.inl fed)
    · exact (e.held other item old).imp (List.mem_cons_of_mem _) id
  | terminate w =>
    refine ⟨fun retiring => by simp [e.alone retiring],fun other item member => ?_⟩
    have old : .wrote other item ∈ h.log := by simpa using member
    rcases e.held other item old with past | fed | retired
    · exact .inl (.tail _ past)
    · by_cases same : other = w
      · exact .inl (by simp [same])
      · exact .inr (.inl (by simp [fed,same]))
    · exact .inr (.inr retired)
  | retire w fed free =>
    refine ⟨fun _ => rfl,fun other item member => ?_⟩
    rcases e.held other item member with past | it | retired
    · exact .inl past
    · exact .inr (.inr (fed.symm.trans it))
    · rw [free] at retired; cases retired
  | restore w idle retired =>
    refine ⟨fun impossible => (by cases impossible),fun other item member => ?_⟩
    rcases e.held other item member with past | it | leaving
    · exact .inl past
    · rw [idle] at it; cases it
    · exact .inr (.inl (retired.symm.trans leaving))
  | promote w idle past =>
    refine ⟨fun impossible => (by cases impossible),fun other item member => ?_⟩
    rcases e.held other item member with done | it | leaving
    · exact .inl done
    · rw [idle] at it; cases it
    · exact .inl (past other leaving)
  | forget past =>
    refine ⟨fun impossible => (by cases impossible),fun other item member => ?_⟩
    rcases e.held other item member with done | it | leaving
    · exact .inl done
    · exact .inr (.inl it)
    · exact .inl (past other leaving)
  | drop past =>
    refine ⟨fun _ => rfl,fun other item member => ?_⟩
    rcases e.held other item member with done | it | leaving
    · exact .inl done
    · exact .inl (past other it)
    · exact .inr (.inr leaving)

theorem Separated.step (e : Exclusive h) (s : Separated h.log) (step : Step h t) : Separated t.log := by
  cases step with
  | write w k fed =>
    intro newer older writer item split
    rcases splitCons.mp split with ⟨_,same,rfl⟩ | ⟨rest,_,split⟩
    · cases same
      intro other earlier member ne
      rcases e.held other earlier member with past | it | leaving
      · exact past
      · exact absurd (Option.some.inj (it.symm.trans fed)) ne
      · have idle := e.alone (by simp [leaving])
        rw [fed] at idle; cases idle
    · exact s rest older writer item split
  | terminate w =>
    intro newer older writer item split
    rcases splitCons.mp split with ⟨_,same,_⟩ | ⟨rest,_,split⟩
    · cases same
    · exact s rest older writer item split
  | retire | restore | promote | forget | drop => exact s

theorem Steps.exclusive (run : Steps h t) (e : Exclusive h) (s : Separated h.log) :
    Exclusive t ∧ Separated t.log := by
  induction run with
  | refl => exact ⟨e,s⟩
  | tail _ step ih => exact ⟨ih.1.step step,ih.2.step ih.1 step⟩

end Handover
end Clankermux
