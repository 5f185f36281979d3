import Mathlib.Tactic.Common

/-! Programs that check their input as they read it: what an answer says of the steps before it. -/
namespace Clankermux.Checked
variable {ε α β σ : Type}

def check (holds : Bool) (problem : ε) : Except ε Unit := if holds then .ok () else .error problem

theorem checkOk {holds} {problem : ε} {u} : check holds problem = .ok u ↔ holds = true := by
  cases holds with
  | true => exact ⟨fun _ => rfl,fun _ => rfl⟩
  | false =>
    constructor
    · rintro ⟨⟩
    · rintro ⟨⟩

theorem bindOk {x} {f : α → Except ε β} {b} : (x >>= f) = .ok b ↔ ∃ a, x = .ok a ∧ f a = .ok b := by
  cases x with
  | error problem =>
    constructor
    · rintro ⟨⟩
    · rintro ⟨a,⟨⟩,-⟩
  | ok a =>
    constructor
    · exact fun next => ⟨a,rfl,next⟩
    · rintro ⟨_,⟨⟩,next⟩
      exact next

theorem pureOk {a b} : (pure a : Except ε α) = .ok b ↔ a = b := Except.ok.injEq a b ▸ Iff.rfl

theorem mapOk {x : Except ε α} {f : α → β} {b} : f <$> x = .ok b ↔ ∃ a, x = .ok a ∧ f a = b := by
  cases x with
  | error problem =>
    constructor
    · rintro ⟨⟩
    · rintro ⟨a,⟨⟩,-⟩
  | ok a =>
    constructor
    · rintro ⟨⟩
      exact ⟨a,rfl,rfl⟩
    · rintro ⟨_,⟨⟩,rfl⟩
      rfl

theorem foldKeeps {f : σ → α → Except ε σ} (P : List α → σ → Prop) (step : ∀ done x s t, P done s → f s x = .ok t → P (done ++ [x]) t) :
    ∀ rest done (s t : σ), P done s → rest.foldlM f s = .ok t → P (done ++ rest) t := by
  intro rest
  induction rest with
  | nil =>
    intro done s t here run
    cases pureOk.mp run
    simpa using here
  | cons x rest ih =>
    intro done s t here run
    obtain ⟨next,first,later⟩ := bindOk.mp run
    simpa using ih (done ++ [x]) next t (step done x s next here first) later

theorem indexedFold {f : σ → α × Nat → Except ε σ} (P : List α → σ → Prop) (items : List α) {s t} (start : P [] s)
    (step : ∀ done x i s t, P done s → f s (x,i) = .ok t → P (done ++ [x]) t) (run : items.zipIdx.foldlM f s = .ok t) : P items t := by
  have kept := foldKeeps (fun done => P (done.map Prod.fst)) (fun done x s t here stepped => by
    simpa using step _ x.1 x.2 s t here stepped) items.zipIdx [] s t start run
  simpa using kept

theorem indexedMap {f : α × Nat → Except ε β} (R : α → β → Prop) (items : List α) {outs}
    (each : ∀ x i b, f (x,i) = .ok b → R x b) (run : items.zipIdx.mapM f = .ok outs) : List.Forall₂ R items outs := by
  have read : ∀ rest (n : Nat) (outs : List β), (rest.zipIdx n).mapM f = .ok outs → List.Forall₂ R rest outs := by
    intro rest
    induction rest with
    | nil =>
      intro n outs run
      cases pureOk.mp run
      exact .nil
    | cons x rest ih =>
      intro n outs run
      rw [List.zipIdx_cons,List.mapM_cons] at run
      obtain ⟨b,first,later⟩ := bindOk.mp run
      obtain ⟨more,others,last⟩ := bindOk.mp later
      cases pureOk.mp last
      exact .cons (each x n b first) (ih (n+1) more others)
  exact read items 0 outs run

theorem indexedAll {f : α × Nat → Except ε (List β)} (P : β → Prop) {items : List α} {outs}
    (each : ∀ x i bs, f (x,i) = .ok bs → ∀ b ∈ bs, P b) (run : List.flatten <$> items.zipIdx.mapM f = .ok outs) : ∀ b ∈ outs, P b := by
  obtain ⟨read,ran,rfl⟩ := mapOk.mp run
  have all := indexedMap (fun (_ : α) bs => ∀ b ∈ bs, P b) items each ran
  clear ran run
  induction all with
  | nil => simp
  | cons head rest ih =>
    intro b inside
    rcases List.mem_append.mp inside with here | later
    · exact head b here
    · exact ih b later

theorem indexedFlatMap {γ : Type} {f : α × Nat → Except ε (List β)} (g : β → List γ) (h : α → List γ) {items : List α} {outs}
    (each : ∀ x i bs, f (x,i) = .ok bs → bs.flatMap g = h x) (run : List.flatten <$> items.zipIdx.mapM f = .ok outs) :
    outs.flatMap g = items.flatMap h := by
  obtain ⟨read,ran,rfl⟩ := mapOk.mp run
  have all := indexedMap (fun x bs => bs.flatMap g = h x) items each ran
  clear ran run
  induction all with
  | nil => rfl
  | cons head rest ih => rw [List.flatten_cons,List.flatMap_append,List.flatMap_cons,head,ih]

end Clankermux.Checked
