import Clankermux.BankedResetOneWeekly
import Clankermux.CodexResetOneWeekly

/-! The weekly slot of the pool, in the ticks of both reset appliers. -/
namespace Clankermux

inductive ResetTick where
  | anthropic (env : BankedReset.Env) (memory : BankedReset.Memory) (now : Int) (ledger : BankedReset.Ledger)
  | codex (env : CodexReset.Env) (ledger : CodexReset.Ledger)

namespace ResetTick

def Possible : ResetTick → Prop
  | .anthropic env _ _ ledger => BankedReset.ledgers.Reachable ledger ∧ (env.listed.map (·.id)).Nodup
  | .codex env ledger => CodexReset.ledgers.ReachableUnder CodexReset.StampedLater ledger ∧ (env.listed.map (·.id)).Nodup

def Calm : ResetTick → Prop
  | .anthropic .. => True
  | .codex env ledger => ∀ v ∈ env.visits env.listed (CodexReset.World.start ledger), env.Undisturbed v.1 v.2

def OneWeekly : ResetTick → Prop
  | .anthropic env memory now ledger => env.OneWeekly (memory,BankedReset.World.start now ledger)
  | .codex env ledger => env.OneWeekly ledger

/-- One weekly-limit reset in a tick of either applier, unless a Codex visit is disturbed. -/
theorem oneWeeklyPerTick (tick : ResetTick) (possible : tick.Possible) (calm : tick.Calm) : tick.OneWeekly := by
  cases tick with
  | anthropic env memory now ledger => exact env.bankedOneWeekly memory now ledger possible.1 possible.2
  | codex env ledger => exact env.codexOneWeekly ledger possible.1 possible.2 calm

def twoExhausted : CodexReset.Env where
  candidates := some [⟨"first","first"⟩,⟨"second","second"⟩]
  answers _ _ := CodexReset.Env.exhausted

theorem oneOfTwo : (ResetTick.codex twoExhausted []).OneWeekly :=
  oneWeeklyPerTick (.codex twoExhausted []) ⟨Machine.reachableStart rfl,by decide +kernel⟩ (by
    intro v here
    have turns : ∀ id, ¬ twoExhausted.TurnsWeekly id := by
      rintro id ⟨⟨creditId,expiresAt,fires⟩,-⟩
      have weekly : twoExhausted.decided .discovery "first" = some (.consume "spare" none .weeklyLimit) := by decide +kernel
      cases weekly.symm.trans fires
    exact ⟨fun _ _ _ _ => ⟨rfl,rfl,rfl⟩,fun _ => turns v.1.id⟩)

theorem weeklySlotTaken : ∃ tick : ResetTick, tick.Possible ∧ ¬ tick.OneWeekly := by
  refine ⟨.codex CodexReset.Env.turnedExpiry [],⟨Machine.reachableStart rfl,by decide +kernel⟩,fun one => ?_⟩
  have once := one.once
  revert once
  decide +kernel

end ResetTick
end Clankermux
