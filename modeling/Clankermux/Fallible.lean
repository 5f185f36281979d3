import Mathlib.Tactic.Common

/-! Programs over a state that may fail on the way. What a program did to the state before it
failed stays done: a call that throws can be caught, a crash cannot. `Ensures` is the rule
book for them, with one postcondition for the answer and one for the failure. -/
namespace Clankermux

inductive Failure where
  | thrown
  | crashed
  deriving DecidableEq

def Fallible (σ α : Type) := σ → Except Failure α × σ

namespace Fallible
variable {σ α β : Type}

instance : Monad (Fallible σ) where
  pure a := fun s => (.ok a,s)
  bind x f := fun s => match x s with
    | (.ok a,t) => f a t
    | (.error e,t) => (.error e,t)

/-- `try prog catch handler`: a crash leaves no one to catch it. -/
def recover (prog handler : Fallible σ α) : Fallible σ α := fun s => match prog s with
  | (.error .thrown,t) => handler t
  | other => other

def Ensures (P : σ → Prop) (prog : Fallible σ α) (Q : α → σ → Prop) (E : Failure → σ → Prop) : Prop :=
  ∀ s, P s → match prog s with
    | (.ok a,t) => Q a t
    | (.error e,t) => E e t

variable {P P' : σ → Prop} {Q Q' : α → σ → Prop} {R : β → σ → Prop} {E E' : Failure → σ → Prop} {prog handler : Fallible σ α}

section
variable (ensures : Ensures P prog Q E)
include ensures

theorem Ensures.answer {s t a} (pre : P s) (run : prog s = (.ok a,t)) : Q a t := by
  have post := ensures s pre
  rwa [run] at post

theorem Ensures.weaken (pre : ∀ s, P' s → P s) (post : ∀ a s, Q a s → Q' a s)
    (failed : ∀ e s, E e s → E' e s) : Ensures P' prog Q' E' := by
  intro s start
  have done := ensures s (pre s start)
  cases run : prog s with
  | mk result t =>
    rw [run] at done
    cases result with
    | ok a => exact post a t done
    | error e => exact failed e t done

theorem Ensures.post (post : ∀ a s, Q a s → Q' a s) : Ensures P prog Q' E :=
  ensures.weaken (fun _ pre => pre) post (fun _ _ failed => failed)

theorem Ensures.pre (pre : ∀ s, P' s → P s) : Ensures P' prog Q E :=
  ensures.weaken pre (fun _ _ post => post) (fun _ _ failed => failed)

end

theorem Ensures.answers (ensures : Ensures P prog Q (fun _ _ => False)) {s} (pre : P s) :
    ∃ a t, prog s = (.ok a,t) ∧ Q a t := by
  have post := ensures s pre
  cases run : prog s with
  | mk result t =>
    rw [run] at post
    cases result with
    | ok a => exact ⟨a,t,rfl,post⟩
    | error e => exact post.elim
variable {f : β → Fallible σ α} {x : Fallible σ β}

theorem bindRun {s t b} (run : x s = (.ok b,t)) : (x >>= f) s = f b t := by
  change (match x s with
    | (.ok a,t) => f a t
    | (.error e,t) => (.error e,t)) = f b t
  rw [run]

theorem ensuresEach {ι : Type} {f : σ → ι} {p : ι → Prop} (each : ∀ i, p i → Ensures (fun s => f s = i) prog Q E) :
    Ensures (fun s => p (f s)) prog Q E := fun s start => each (f s) start s rfl

theorem ensuresGiven {p : Prop} (ensures : p → Ensures P prog Q E) : Ensures (fun s => p ∧ P s) prog Q E :=
  fun s start => ensures start.1 s start.2

theorem ensuresPure {a} (post : ∀ s, P s → Q a s) : Ensures P (pure a) Q E := fun s start => post s start

theorem Ensures.bind (first : Ensures P x R E) (rest : ∀ b, Ensures (R b) (f b) Q E) :
    Ensures P (x >>= f) Q E := by
  intro s start
  have done := first s start
  change match (match x s with
    | (.ok a,t) => f a t
    | (.error e,t) => (.error e,t) : Except Failure α × σ) with
    | (.ok a,t) => Q a t
    | (.error e,t) => E e t
  cases run : x s with
  | mk result t =>
    rw [run] at done
    cases result with
    | ok b => exact rest b t done
    | error e => exact done

theorem Ensures.recover {H} (first : Ensures P prog Q (fun e s => match e with
    | .thrown => H s
    | .crashed => E .crashed s)) (caught : Ensures H handler Q E) : Ensures P (recover prog handler) Q E := by
  intro s start
  have done := first s start
  unfold Fallible.recover
  cases run : prog s with
  | mk result t =>
    rw [run] at done
    cases result with
    | ok a => exact done
    | error e =>
      cases e with
      | thrown => exact caught t done
      | crashed => exact done

theorem Ensures.caught {H} (first : Ensures P prog Q (fun e s => e = .thrown ∧ H s)) (caught : Ensures H handler Q E) :
    Ensures P (Fallible.recover prog handler) Q E := by
  refine Ensures.recover (first.weaken (fun _ here => here) (fun _ _ here => here) ?_) caught
  rintro e s ⟨rfl,here⟩
  exact here

def Keeps (F : Failure → Prop) (I : σ → Prop) (prog : Fallible σ α) : Prop :=
  Ensures I prog (fun _ => I) (fun e s => F e ∧ I s)

variable {F : Failure → Prop} {I : σ → Prop}

theorem Keeps.after (keeps : Keeps F I prog) {s} (here : I s) : I (prog s).2 := by
  have post := keeps s here
  cases run : prog s with
  | mk result t =>
    rw [run] at post
    cases result with
    | ok a => exact post
    | error e => exact post.2

theorem keepsOf (keep : ∀ s, I s → I (prog s).2) (fails : ∀ s e, (prog s).1 = .error e → F e) : Keeps F I prog := by
  intro s here
  have kept := keep s here
  have fails := fails s
  cases run : prog s with
  | mk result t =>
    rw [run] at kept fails
    cases result with
    | ok a => exact kept
    | error e => exact ⟨fails e rfl,kept⟩

theorem keepsPure {a} : Keeps F I (pure a : Fallible σ α) := ensuresPure (fun _ here => here)

theorem Keeps.bind (first : Keeps F I x) (rest : ∀ b, Keeps F I (f b)) :
    Keeps F I (x >>= f) := Ensures.bind first rest

theorem Keeps.recover (first : Keeps F I prog) (caught : Keeps F I handler) : Keeps F I (recover prog handler) :=
  Ensures.recover (H := I) (first.weaken (fun _ here => here) (fun _ _ here => here) fun e _ here => by
    cases e with
    | thrown => exact here.2
    | crashed => exact here) caught

end Fallible
end Clankermux
