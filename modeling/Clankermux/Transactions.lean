import Mathlib.Data.List.Infix

/-! A connection of a database: its transaction, savepoints of one name, and statements that
may fail, and may take the whole transaction with them. Rows are only added, so what is
durable is the list of the rows that were committed. -/
namespace Clankermux.Transactions

variable {ρ ε : Type}

inductive Statement (ρ : Type) where
  | beginImmediate
  | savepoint
  | insert (row : ρ)
  | release
  | rollbackTo
  | rollback
  | commit

structure Transaction (ρ : Type) where
  rows : List ρ
  saves : List (List ρ)
  bySavepoint : Bool

structure Connection (ρ : Type) where
  durable : List ρ
  transaction : Option (Transaction ρ)

def Connection.start : Connection ρ := ⟨[],none⟩

def Connection.effect (c : Connection ρ) : Statement ρ → Option (Connection ρ)
  | .beginImmediate => match c.transaction with
    | none => some { c with transaction := some ⟨[],[],false⟩ }
    | some _ => none
  | .savepoint => match c.transaction with
    -- Outside a transaction a savepoint opens one.
    | none => some { c with transaction := some ⟨[],[[]],true⟩ }
    | some t => some { c with transaction := some { t with saves := t.rows::t.saves } }
  | .insert row => match c.transaction with
    | none => some { c with durable := c.durable ++ [row] }
    | some t => some { c with transaction := some { t with rows := t.rows ++ [row] } }
  | .release => match c.transaction with
    | none => none
    | some t => match t.saves with
      | [] => none
      | _::saves =>
        -- The release of the savepoint that opened the transaction commits it.
        if t.bySavepoint ∧ saves = [] then some ⟨c.durable ++ t.rows,none⟩
        else some { c with transaction := some { t with saves := saves } }
  | .rollbackTo => match c.transaction with
    | none => none
    | some t => match t.saves with
      | [] => none
      | rows::_ => some { c with transaction := some { t with rows := rows } }
  | .rollback => match c.transaction with
    | none => none
    | some _ => some { c with transaction := none }
  | .commit => match c.transaction with
    | none => none
    | some t => some ⟨c.durable ++ t.rows,none⟩

inductive Verdict (ε : Type) where
  | passes
  | fails (error : ε) (rollsBack : Bool)

structure Database (ρ ε : Type) where
  verdict : Nat → Verdict ε
  refusal : Statement ρ → ε

structure Issued (ρ ε : Type) where
  statement : Statement ρ
  error : Option ε

structure Session (ρ ε : Type) where
  connection : Connection ρ
  issued : List (Issued ρ ε)

def Session.start : Session ρ ε := ⟨.start,[]⟩

variable (db : Database ρ ε)

def exec (s : Session ρ ε) (statement : Statement ρ) : Option ε × Session ρ ε :=
  match db.verdict s.issued.length with
  | .passes => match s.connection.effect statement with
    | some next => (none,⟨next,s.issued ++ [⟨statement,none⟩]⟩)
    | none => (some (db.refusal statement),⟨s.connection,s.issued ++ [⟨statement,some (db.refusal statement)⟩]⟩)
  | .fails error rollsBack =>
    (some error,⟨if rollsBack then { s.connection with transaction := none } else s.connection,
      s.issued ++ [⟨statement,some error⟩]⟩)

def execAll (s : Session ρ ε) : List (Statement ρ) → Option ε × Session ρ ε
  | [] => (none,s)
  | statement::rest => match exec db s statement with
    | (none,next) => execAll next rest
    | (some error,next) => (some error,next)

def Connection.held (c : Connection ρ) : List ρ :=
  match c.transaction with
  | none => c.durable
  | some t => c.durable ++ t.rows

variable {db} {s next : Session ρ ε} {statement : Statement ρ} {statements : List (Statement ρ)} {error : Option ε}

theorem execPassed (passed : exec db s statement = (none,next)) :
    s.connection.effect statement = some next.connection ∧ next.issued = s.issued ++ [⟨statement,none⟩] := by
  unfold exec at passed
  split at passed
  · split at passed
    · rename_i found
      cases passed
      exact ⟨found,rfl⟩
    · simp at passed
  · simp at passed

theorem execIssued (ran : exec db s statement = (error,next)) : next.issued = s.issued ++ [⟨statement,error⟩] := by
  unfold exec at ran
  split at ran
  · split at ran
    · cases ran
      rfl
    · cases ran
      rfl
  · cases ran
    rfl
variable {c after : Connection ρ}

theorem effectDurable (found : c.effect statement = some after) : c.durable <+: after.durable := by
  unfold Connection.effect at found
  split at found
  · split at found <;> simp at found
    exact found ▸ List.prefix_refl _
  · split at found <;> cases found
    · exact List.prefix_refl _
    · exact List.prefix_refl _
  · split at found <;> cases found
    · exact List.prefix_append _ _
    · exact List.prefix_refl _
  · split at found
    · simp at found
    · split at found
      · simp at found
      · split at found <;> cases found
        · exact List.prefix_append _ _
        · exact List.prefix_refl _
  · split at found
    · simp at found
    · split at found <;> cases found
      exact List.prefix_refl _
  · split at found <;> cases found
    exact List.prefix_refl _
  · split at found <;> cases found
    exact List.prefix_append _ _

theorem execDurable (ran : exec db s statement = (error,next)) : s.connection.durable <+: next.connection.durable := by
  unfold exec at ran
  split at ran
  · split at ran
    · rename_i found
      cases ran
      exact effectDurable found
    · cases ran
      exact List.prefix_refl _
  · cases ran
    split
    · exact List.prefix_refl _
    · exact List.prefix_refl _

theorem execAllDurable : ∀ {s}, execAll db s statements = (error,next) →
    s.connection.durable <+: next.connection.durable := by
  induction statements with
  | nil =>
    intro s ran
    cases ran
    exact List.prefix_refl _
  | cons statement rest ih =>
    intro s ran
    rw [execAll] at ran
    split at ran
    · rename_i middle first
      exact (execDurable first).trans (ih ran)
    · rename_i failure middle first
      cases ran
      exact execDurable first

theorem execAllIssued : ∀ {s}, execAll db s statements = (error,next) → ∃ passed last,
    next.issued = s.issued ++ passed ++ last ∧ (∀ i ∈ passed, i.error = none) ∧ (∀ i ∈ passed ++ last, i.statement ∈ statements) ∧
      ((error = none ∧ last = []) ∨ ∃ i e, last = [i] ∧ error = some e ∧ i.error = some e) := by
  induction statements with
  | nil =>
    intro s ran
    cases ran
    exact ⟨[],[],by simp,by simp,by simp,.inl ⟨rfl,rfl⟩⟩
  | cons statement rest ih =>
    intro s ran
    rw [execAll] at ran
    split at ran
    · rename_i middle first
      obtain ⟨passed,last,issued,quiet,within,ended⟩ := ih ran
      refine ⟨⟨statement,none⟩::passed,last,?_,?_,?_,ended⟩
      · rw [issued,execIssued first]
        simp
      · simpa using quiet
      · intro i inside
        rcases List.mem_cons.mp inside with rfl | inside
        · exact .head _
        · exact .tail _ (within i inside)
    · rename_i failure middle first
      cases ran
      refine ⟨[],[⟨statement,some failure⟩],?_,by simp,by simp,.inr ⟨_,failure,rfl,rfl,rfl⟩⟩
      rw [execIssued first]
      simp

theorem savepointHeld (found : c.effect .savepoint = some after) :
    after.held = c.held ∧ ∃ t, after.transaction = some t := by
  unfold Connection.effect at found
  cases opened : c.transaction with
  | none =>
    rw [opened] at found
    cases found
    exact ⟨by simp [Connection.held,opened],_,rfl⟩
  | some t =>
    rw [opened] at found
    cases found
    exact ⟨by simp [Connection.held,opened],_,rfl⟩

theorem insertHeld {row t} (opened : c.transaction = some t)
    (found : c.effect (.insert row) = some after) :
    after.held = c.held ++ [row] := by
  rw [Connection.effect,opened] at found
  cases found
  simp [Connection.held,opened]

theorem releaseHeld (found : c.effect .release = some after) : after.held = c.held := by
  rw [Connection.effect] at found
  cases opened : c.transaction with
  | none => simp [opened] at found
  | some t =>
    rw [opened] at found
    cases saves : t.saves with
    | nil => simp [saves] at found
    | cons rows rest =>
      simp only [saves] at found
      split at found
      · cases found
        simp [Connection.held,opened]
      · cases found
        simp [Connection.held,opened]

theorem rowHeld {row} (ran : execAll db s [.savepoint,.insert row,.release] = (none,next)) :
    next.connection.held = s.connection.held ++ [row] := by
  rw [execAll] at ran
  split at ran
  · rename_i saved first
    rw [execAll] at ran
    split at ran
    · rename_i inserted second
      rw [execAll] at ran
      split at ran
      · rename_i released third
        cases ran
        obtain ⟨kept,t,opened⟩ := savepointHeld (execPassed first).1
        rw [releaseHeld (execPassed third).1,insertHeld opened (execPassed second).1,kept]
      · simp at ran
    · simp at ran
  · simp at ran

theorem beginHeld (began : exec db s .beginImmediate = (none,next)) : next.connection.held = s.connection.durable := by
  have found := (execPassed began).1
  rw [Connection.effect] at found
  split at found
  · have same := Option.some.inj found
    rw [← same]
    simp [Connection.held]
  · simp at found

theorem commitHeld (committed : exec db s .commit = (none,next)) : next.connection.durable = s.connection.held := by
  have found := (execPassed committed).1
  rw [Connection.effect] at found
  split at found
  · simp at found
  · rename_i t opened
    have same := Option.some.inj found
    rw [← same,Connection.held,opened]

end Clankermux.Transactions
