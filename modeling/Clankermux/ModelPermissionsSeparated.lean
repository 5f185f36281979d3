import Clankermux.ModelPermissionsKept

/-! Model permissions never cross identities or generations. -/
namespace Clankermux.ModelPermissions

variable {digest : List (Option String) → String} {scopes : String → Nat → String} {w t u v : World} {e : Event} {account current : Account}
  {id : String} {n d : Nat} {call : Call} {x y : Discovery} {p row next : AccountModelPermissions} {now : Int}

inductive Change (digest : List (Option String) → String) (w : World) (e : Event) (id : String) :
    Option AccountModelPermissions → AccountModelPermissions → Prop where
  | created {scope} : Change digest w e id none (Table.provisioned scope 1)
  | rescoped {row : AccountModelPermissions} {current scope} (differs : row.scope ≠ scope) (stored : w.accounts id = some current)
      (now : modelPermissionScope digest current = scope)
      (asked : (∃ n, e = .advance n) ∨ ∃ d now x, e = .ask d now ∧ w.discoveries d = some x ∧ scope = x.scope ∧ id = x.account.id) :
      Change digest w e id (some row) (Table.provisioned scope (row.generation + 1))
  | invalidated {account : Account} {row} (saved : e = .saveAccount account) :
      Change digest w e id (some row) (Table.provisioned "invalidated" (row.generation + 1))
  | edited {row next : AccountModelPermissions} {n generation ids declareEmpty}
      (put : e = .put n generation ids declareEmpty) (scope : next.scope = row.scope)
      (later : next.generation = row.generation + 1) (discovered : next.discoveredIds = row.discoveredIds) :
      Change digest w e id (some row) next
  | discovered {row next p : AccountModelPermissions} {d now x catalog}
      (committed : e = .commit d now) (here : w.discoveries d = some x)
      (committing : x.stage = .committing p catalog) (own : id = x.account.id) (scope : row.scope = x.scope)
      (generation : row.generation = p.generation) (scope' : next.scope = row.scope) (generation' : next.generation = row.generation)
      (manual : next.manualIds = row.manualIds) : Change digest w e id (some row) next
  | failed {row next p : AccountModelPermissions} {d now x error}
      (recorded : e = .recordFailure d now) (here : w.discoveries d = some x)
      (failing : x.stage = .failing p error) (own : id = x.account.id) (scope : row.scope = x.scope)
      (generation : row.generation = p.generation) (scope' : next.scope = row.scope) (generation' : next.generation = row.generation)
      (discovered : next.discoveredIds = row.discoveredIds) (manual : next.manualIds = row.manualIds) : Change digest w e id (some row) next

def Changes (digest : List (Option String) → String) (w : World) (e : Event) (rows : Table) : Prop :=
  ∀ id, rows id = w.rows id ∨ ∃ next, rows id = some next ∧ Change digest w e id (w.rows id) next

theorem changesRefl : Changes digest w e w.rows := fun _ => .inl rfl

theorem changesUpdate (change : Change digest w e id (w.rows id) next) : Changes digest w e (Function.update w.rows id (some next)) := by
  intro other
  by_cases same : other = id
  · subst same
    exact .inr ⟨next,Function.update_self ..,change⟩
  · exact .inl (Function.update_of_ne same ..)

theorem caughtRows : (w.caught d x now).rows = w.rows := by
  rw [World.caught]
  split
  · rfl
  · dsimp only
    split <;> rfl

theorem threwRows : (w.threw d x now).rows = w.rows := by
  rw [World.threw]
  split
  · exact caughtRows
  · rfl

theorem advanceChanges {rows after} (inv : Inv digest scopes w)
    (sound : CallSound digest scopes w.accounts w.rows account call)
    (advance : call.advance digest w.listed w.rows account = some (rows,after))
    (asked : (∃ n, e = .advance n) ∨ ∃ d now x, e = .ask d now ∧ w.discoveries d = some x ∧ account = x.account) :
    Changes digest w e rows := by
  cases call with
  | returned p => cases advance
  | threw => cases advance
  | begun =>
    rw [Call.advance] at advance
    split at advance
    · split at advance
      · cases advance
        exact changesRefl
      · cases advance
        exact changesRefl
    · cases advance
      exact changesRefl
  | missed previous =>
    rw [Call.advance] at advance
    split at advance
    · cases advance
      exact changesRefl
    · split at advance
      · cases advance
        exact changesRefl
      · cases advance
        exact changesRefl
  | checked previous =>
    have tabled : rows =
        (w.rows.ensurePermissionScope account.id (modelPermissionScope digest account) (some ((previous.map (·.generation)).getD 0))).1 := by
      rw [Call.advance] at advance
      split at advance
      · cases advance
        rfl
      · cases advance
        rfl
    rw [tabled]
    obtain ⟨row,here,same⟩ | ⟨absent,new⟩ | ⟨row,here,differs,expected,new⟩ := ensureCases w.rows account.id
      (modelPermissionScope digest account) (some ((previous.map (·.generation)).getD 0))
    · rw [same]
      exact changesRefl
    · rw [new]
      refine changesUpdate ?_
      rw [absent]
      exact .created
    · rw [new]
      obtain ⟨current,stored,scope⟩ := sound.2 row here (expectedSome.mp expected)
      refine changesUpdate ?_
      rw [here]
      refine .rescoped differs stored scope (asked.imp_right ?_)
      rintro ⟨d,now,x,asks,found,rfl⟩
      exact ⟨d,now,x,asks,found,(inv.discoveries d x found).scope.symm,rfl⟩

theorem stepRows (inv : Inv digest scopes w) (went : w.step digest e = some t) : Changes digest w e t.rows := by
  cases stepped went with
  | permissions | callFails | recordFailureFails | stop | prune => exact changesRefl
  | saveAccount account =>
    rw [World.saveAccount]
    dsimp only
    split
    · split
      · intro id
        by_cases same : id = account.id
        · subst same
          cases here : w.rows account.id with
          | none => exact .inl (by rw [Table.invalidate,Function.update_self,here]; rfl)
          | some row => exact .inr ⟨_,by rw [Table.invalidate,Function.update_self,here]; rfl,.invalidated rfl⟩
        · exact .inl (Function.update_of_ne same ..)
      · exact changesRefl
    · exact changesRefl
  | @advance n account call next rows here advance => exact advanceChanges inv (inv.calls n account call here) advance (.inl ⟨n,rfl⟩)
  | put n account p generation ids declareEmpty =>
    rw [World.put]
    split
    · exact changesRefl
    · dsimp only
      obtain same | ⟨manual,row,next,edited,-,here,-,-,scope,later,discovered,-⟩ :=
        setManualCases w.rows account.id p.scope ids declareEmpty generation
      · rw [same]
        exact changesRefl
      · rw [edited]
        refine changesUpdate ?_
        rw [here]
        exact .edited rfl scope later discovered
  | refresh account manual now fresh =>
    rw [World.refresh]
    split
    · exact changesRefl
    · dsimp only
      split
      · exact changesRefl
      · split <;> exact changesRefl
  | listed broken here listing =>
    rw [World.onListed]
    split
    · exact changesRefl
    · split <;> exact changesRefl
  | @ask d x call next rows now here begun asking advance =>
    have changes := advanceChanges (e := .ask d now) inv ((inv.discoveries d x here).branch call asking).1 advance
      (.inr ⟨d,now,x,rfl,here,rfl⟩)
    unfold World.onAsked
    split
    · exact changes
    · rw [threwRows]
      exact changes
    · exact changes
  | askFails now here =>
    rw [threwRows]
    exact changesRefl
  | fetched result now here =>
    unfold World.onFetched
    split
    · split <;> exact changesRefl
    · rw [threwRows]
      exact changesRefl
  | deadline now here =>
    rw [World.onDeadline]
    split
    · rw [caughtRows]
      exact changesRefl
    · exact changesRefl
  | @commit d x p catalog now here committing =>
    rw [World.onCommit]
    obtain broken | same | ⟨discovered,row,next,done,-,found,scope,generation,scope',generation',-,manual⟩ :=
      completeCases now w.rows x.account.id x.scope p.generation catalog.ids catalog.variants
    · rw [broken]
      rw [caughtRows]
      exact changesRefl
    · rw [same]
      exact changesRefl
    · rw [done]
      refine changesUpdate ?_
      rw [found]
      exact .discovered rfl here committing rfl scope generation scope' generation' manual
  | commitFails now here committing =>
    rw [caughtRows]
    exact changesRefl
  | finish now here committed =>
    rw [World.onFinish]
    split <;> exact changesRefl
  | @recordFailure d x p error now here failing =>
    obtain same | ⟨row,next,done,found,scope,generation,scope',generation',ids,manual⟩ :=
      failCases now w.rows x.account.id x.scope p.generation error
    · rw [same]
      exact changesRefl
    · rw [done]
      refine changesUpdate ?_
      rw [found]
      exact .failed rfl here failing rfl scope generation scope' generation' ids manual

def Stage.Lost : Stage → Prop
  | .failing _ _ => True
  | .settled => True
  | _ => False

structure Later (x y : Discovery) : Prop where
  account : y.account = x.account
  permissions : ∀ p, x.permissions = some p → y.permissions = some p
  lost : x.stage.Lost → y.stage.Lost

def Laters (w t : World) : Prop := ∀ d x, w.discoveries d = some x → ∃ y, t.discoveries d = some y ∧ Later x y

theorem Later.refl : Later x x := ⟨rfl,fun _ => id,id⟩

theorem latersRefl : Laters w w := fun _ x here => ⟨x,here,.refl⟩

section
variable (here : w.discoveries d = some x)
include here

theorem latersUpdate (same : t.discoveries = Function.update w.discoveries d (some y))
    (later : Later x y) : Laters w t := by
  intro e z found
  rw [same]
  by_cases own : e = d
  · subst own
    cases here.symm.trans found
    exact ⟨y,Function.update_self ..,later⟩
  · exact ⟨z,by rw [Function.update_of_ne own,found],.refl⟩

theorem latersSettle (later : Later x y) : Laters w (w.settle d y) :=
  latersUpdate here rfl ⟨later.account,later.permissions,fun _ => trivial⟩

theorem latersCaught (later : Later x y) : Laters w (w.caught d y now) := by
  rw [World.caught]
  split
  · exact latersSettle here later
  · dsimp only
    split
    · next p read => exact latersUpdate here rfl ⟨later.account,read ▸ later.permissions,fun _ => trivial⟩
    · exact latersSettle (w := { w with service := _ }) here later

theorem latersThrew : Laters w (w.threw d x now) := by
  rw [World.threw]
  split
  · exact latersCaught here ⟨rfl,fun _ => id,id⟩
  · exact latersUpdate here rfl ⟨rfl,fun _ => id,id⟩

end

theorem caughtLost (w : World) (d : Nat) (x : Discovery) (now : Int) : (w.caught d x now).service.nativeMetadata = w.service.nativeMetadata ∧
    ∃ y, (w.caught d x now).discoveries d = some y ∧ y.stage.Lost := by
  rw [World.caught]
  split
  · exact ⟨rfl,_,Function.update_self ..,trivial⟩
  · dsimp only
    split
    · exact ⟨rfl,_,Function.update_self ..,trivial⟩
    · exact ⟨rfl,_,Function.update_self ..,trivial⟩

theorem stepLaters (inv : Inv digest scopes w) (went : w.step digest e = some t) : Laters w t := by
  cases stepped went with
  | saveAccount | permissions | advance | callFails | prune => exact latersRefl
  | put n account p generation ids declareEmpty =>
    rw [World.put]
    split
    · exact latersRefl
    · dsimp only
      split <;> exact latersRefl
  | refresh account manual now fresh =>
    rw [World.refresh]
    split
    · exact latersRefl
    · dsimp only
      split
      · exact latersRefl
      · split
        · exact latersRefl
        · intro e x here
          refine ⟨x,?_,.refl⟩
          dsimp only
          rw [Function.update_of_ne,here]
          rintro rfl
          rw [fresh] at here
          cases here
  | listed broken here listing =>
    rw [World.onListed]
    split
    · exact latersSettle here ⟨rfl,fun _ => id,id⟩
    · split
      · exact latersSettle here ⟨rfl,fun _ => id,id⟩
      · exact latersUpdate here rfl ⟨rfl,fun _ => id,fun lost => by rw [listing] at lost; cases lost⟩
  | @ask d x call next rows now here begun asking advance =>
    have unread := ((inv.discoveries d x here).branch call asking).2
    unfold World.onAsked
    split
    · exact latersUpdate here rfl ⟨rfl,(fun p read => by rw [unread] at read; cases read),id⟩
    · exact latersThrew (w := { w with rows := rows }) here
    · exact latersUpdate here rfl ⟨rfl,fun _ => id,id⟩
  | askFails now here => exact latersThrew here
  | fetched result now here =>
    unfold World.onFetched
    split
    · split
      · next racing => exact latersUpdate here rfl ⟨rfl,fun _ => id,fun lost => by rw [racing] at lost; cases lost⟩
      · exact latersUpdate here rfl ⟨rfl,fun _ => id,id⟩
    · exact latersThrew here
  | deadline now here =>
    rw [World.onDeadline]
    split
    · exact latersCaught here ⟨rfl,fun _ => id,id⟩
    · exact latersUpdate here rfl ⟨rfl,fun _ => id,id⟩
  | commit now here committing =>
    rw [World.onCommit]
    split
    · exact latersCaught here .refl
    · exact latersUpdate here rfl ⟨rfl,fun _ => id,fun lost => by rw [committing] at lost; cases lost⟩
  | commitFails now here committing => exact latersCaught here .refl
  | finish now here committed =>
    rw [World.onFinish]
    split
    · exact latersSettle here .refl
    · exact latersSettle (w := { w with service := _ }) here .refl
  | recordFailure now here failing => exact latersSettle (w := { w with rows := _ }) here .refl
  | recordFailureFails here => exact latersSettle here .refl
  | stop =>
    intro d x here
    refine ⟨World.stopped x,by simp [World.stop,here],?_⟩
    rw [World.stopped]
    split
    · exact .refl
    · exact ⟨rfl,fun _ => id,id⟩

theorem Change.generation (change : Change digest w e id (some row) next) :
    next.generation = row.generation ∧ next.scope = row.scope ∨ row.generation < next.generation := by
  cases change with
  | rescoped => exact .inr (Nat.lt_succ_self _)
  | invalidated => exact .inr (Nat.lt_succ_self _)
  | edited _ _ later => exact .inr (by omega)
  | discovered _ _ _ _ _ _ scope generation => exact .inl ⟨generation,scope⟩
  | failed _ _ _ _ _ _ scope generation => exact .inl ⟨generation,scope⟩

theorem stepGrows (inv : Inv digest scopes w) (stepped : w.step digest e = some t) : Grows w.rows t.rows := by
  intro id row here
  obtain same | ⟨next,there,change⟩ := stepRows inv stepped id
  · exact ⟨row,same.trans here,.inl ⟨rfl,rfl⟩⟩
  · rw [here] at change
    exact ⟨next,there,change.generation⟩

theorem runKept (inv : Inv digest scopes w) (run : (World.worlds digest).Steps (fun _ _ => True) w t) :
    (∃ scopes, Inv digest scopes t) ∧ Laters w t ∧
      ∀ id row, w.rows id = some row → ∃ row', t.rows id = some row' ∧ row.generation ≤ row'.generation := by
  refine run.keeps (P := fun t => (∃ scopes, Inv digest scopes t) ∧ Laters w t ∧
      ∀ id row, w.rows id = some row → ∃ row', t.rows id = some row' ∧ row.generation ≤ row'.generation)
    ⟨⟨scopes,inv⟩,latersRefl,fun _ row here => ⟨row,here,le_refl _⟩⟩ ?_
  rintro s e t ⟨⟨_,kept⟩,laters,grown⟩ - stepped
  refine ⟨kept.step stepped,fun d x here => ?_,fun id row here => ?_⟩
  · obtain ⟨y,there,first⟩ := laters d x here
    obtain ⟨z,last,second⟩ := stepLaters kept stepped d y there
    exact ⟨z,last,second.account.trans first.account,fun p read => second.permissions p (first.permissions p read),
      fun lost => second.lost (first.lost lost)⟩
  · obtain ⟨row',there,le⟩ := grown id row here
    obtain ⟨row'',last,same | later⟩ := stepGrows kept stepped id row' there
    · exact ⟨row'',last,by omega⟩
    · exact ⟨row'',last,by omega⟩

def Event.Of (d : Nat) : Event → Prop
  | .listed e _ => e = d
  | .ask e _ => e = d
  | .askFails e _ => e = d
  | .fetched e _ _ => e = d
  | .deadline e _ => e = d
  | .commit e _ => e = d
  | .commitFails e _ => e = d
  | .finish e _ => e = d
  | .recordFailure e _ => e = d
  | .recordFailureFails e => e = d
  | _ => False

def Event.writes : Event → Bool
  | .commit _ _ => true
  | .recordFailure _ _ => true
  | _ => false

def InFlight (w : World) (x : Discovery) : Prop := x.stage ≠ .settled ∧ x.epoch = w.service.stopEpoch

structure Separated (digest : List (Option String) → String) (w : World) : Prop where
  own : ∀ d x, w.discoveries d = some x → x.scope = modelPermissionScope digest x.account
  discovered : ∀ id row, w.rows id = some row → row.discoveredIds = [] ∨ Discovered w.discoveries id row.scope row.discoveredIds
  entered : ∀ id row, w.rows id = some row → row.manualIds = [] ∨ Entered w.edits id row.scope row.manualIds
  hydrated : ∀ key snapshot, w.service.nativeMetadata key = some snapshot → Hydrated w.discoveries key snapshot.models
  viewed : ∀ n m account account' p q, w.calls n = some (account,.returned p) → w.calls m = some (account',.returned q) →
    account.id = account'.id → p.generation = q.generation → p.scope = q.scope
  edited : ∀ edit ∈ w.edits, ∀ n account p, w.calls n = some (account,.returned p) → account.id = edit.accountId →
    p.generation = edit.generation → p.scope = edit.scope
  alone : ∀ d e x y, w.discoveries d = some x → w.discoveries e = some y → InFlight w x → InFlight w y → x.key = y.key → d = e

structure Guarded (digest : List (Option String) → String) (w : World) (e : Event) (t : World) : Prop where
  discovered : ∀ id row next, w.rows id = some row → t.rows id = some next → next.discoveredIds ≠ row.discoveredIds →
    (next.discoveredIds = [] ∧ row.generation < next.generation) ∨
      ∃ d now x p, e = .commit d now ∧ w.discoveries d = some x ∧ x.account.id = id ∧ x.permissions = some p ∧
        row.scope = x.scope ∧ row.scope = p.scope ∧ row.generation = p.generation
  outdated : ∀ id row next, w.rows id = some row → t.rows id = some next → next.scope ≠ row.scope →
    (∃ account, e = .saveAccount account ∧ next.scope = "invalidated") ∨
      ∃ current, w.accounts id = some current ∧ next.scope = modelPermissionScope digest current
  manual : ∀ d x id row, Event.Of d e → w.discoveries d = some x → w.rows id = some row → (id = x.account.id → row.scope = x.scope) →
    ∃ next, t.rows id = some next ∧ next.manualIds = row.manualIds

def Inert (digest : List (Option String) → String) (w : World) : Prop :=
  ∀ d x p, w.discoveries d = some x → x.permissions = some p →
    ∀ t e u v, (World.worlds digest).Steps (fun _ _ => True) w t → t.step digest e = some u → e.writes = false →
      t.rows x.account.id ≠ u.rows x.account.id → (World.worlds digest).Steps (fun _ _ => True) u v →
      (∀ now z, v.step digest (.commit d now) = some z → z.rows = v.rows ∧ z.service.nativeMetadata = v.service.nativeMetadata ∧
        ∀ y q catalog, z.discoveries d = some y → y.stage ≠ .committed q catalog true) ∧
      ∀ now z, v.step digest (.recordFailure d now) = some z → z.rows = v.rows

def Missed (digest : List (Option String) → String) (w : World) : Prop :=
  ∀ d x now t, w.discoveries d = some x → x.stage = .racing → w.step digest (.deadline d now) = some t →
    ∀ u, (World.worlds digest).Steps (fun _ _ => True) t u →
      ∀ now, u.step digest (.commit d now) = none ∧ u.step digest (.finish d now) = none

theorem Inv.separated (inv : Inv digest scopes w) : Separated digest w where
  own d x here := (inv.discoveries d x here).scope
  discovered id row here := (inv.rows id row here).1.discovered
  entered id row here := (inv.rows id row here).1.manual
  hydrated := inv.metadata
  viewed n m account account' p q here there same generation := by
    obtain ⟨⟨_,_,_,first⟩,-⟩ := inv.calls n account _ here
    obtain ⟨⟨_,_,_,second⟩,-⟩ := inv.calls m account' _ there
    rw [first,second,same,generation]
  edited edit mem n account p here same generation := by
    obtain ⟨⟨_,_,_,first⟩,-⟩ := inv.calls n account _ here
    obtain ⟨_,_,_,second⟩ := inv.edits edit mem
    rw [first,second,same,generation]
  alone d e x y here there flying flying' key := by
    have first := inv.flight d x here flying.1 flying.2
    have second := inv.flight e y there flying'.1 flying'.2
    rw [key,second] at first
    exact (Option.some.inj first).symm

theorem Inv.guarded (inv : Inv digest scopes w) (stepped : w.step digest e = some t) : Guarded digest w e t where
  discovered id row next here there differs := by
    obtain same | ⟨after,last,change⟩ := stepRows inv stepped id
    · rw [same,here] at there
      cases there
      exact absurd rfl differs
    · cases last.symm.trans there
      rw [here] at change
      cases change with
      | rescoped => exact .inl ⟨rfl,Nat.lt_succ_self _⟩
      | invalidated => exact .inl ⟨rfl,Nat.lt_succ_self _⟩
      | edited _ _ _ discovered => exact absurd discovered differs
      | failed _ _ _ _ _ _ _ _ discovered => exact absurd discovered differs
      | @discovered _ _ p d now x _ committed found committing own scope generation =>
        have sound := inv.discoveries d x found
        have stage := sound.stage
        rw [committing] at stage
        exact .inr ⟨d,now,x,p,committed,found,own.symm,stage.1,scope,scope.trans (sound.permissions p stage.1).2.symm,generation⟩
  outdated id row next here there differs := by
    obtain same | ⟨after,last,change⟩ := stepRows inv stepped id
    · rw [same,here] at there
      cases there
      exact absurd rfl differs
    · cases last.symm.trans there
      rw [here] at change
      cases change with
      | rescoped _ stored now => exact .inr ⟨_,stored,now.symm⟩
      | invalidated saved => exact .inl ⟨_,saved,rfl⟩
      | edited _ scope => exact absurd scope differs
      | failed _ _ _ _ _ _ scope => exact absurd scope differs
      | discovered _ _ _ _ _ _ scope => exact absurd scope differs
  manual d x id row its here before scope := by
    obtain same | ⟨after,last,change⟩ := stepRows inv stepped id
    · exact ⟨row,same.trans before,rfl⟩
    · refine ⟨after,last,?_⟩
      rw [before] at change
      cases change with
      | invalidated saved =>
        rw [saved] at its
        cases its
      | edited put =>
        rw [put] at its
        cases its
      | failed _ _ _ _ _ _ _ _ _ manual => exact manual
      | discovered _ _ _ _ _ _ _ _ manual => exact manual
      | rescoped differs _ _ asked =>
        obtain ⟨n,advanced⟩ | ⟨d',now,y,asks,found,own,same⟩ := asked
        · rw [advanced] at its
          cases its
        · rw [asks] at its
          cases its
          cases here.symm.trans found
          exact absurd ((scope same).trans own.symm) differs

theorem Change.disturbs (change : Change digest w e id (some row) next) (foreign : e.writes = false) : row.generation < next.generation := by
  cases change with
  | rescoped => exact Nat.lt_succ_self _
  | invalidated => exact Nat.lt_succ_self _
  | edited _ _ later => omega
  | discovered committed =>
    rw [committed] at foreign
    cases foreign
  | failed recorded =>
    rw [recorded] at foreign
    cases foreign

theorem Inv.inert (inv : Inv digest scopes w) : Inert digest w := by
  intro d x p here read t e u v run stepped foreign differs onward
  obtain ⟨⟨_,invT⟩,laters,grown⟩ := runKept inv run
  obtain ⟨⟨row,stored,le,-⟩,-⟩ := (inv.discoveries d x here).permissions p read
  obtain ⟨row',storedT,le'⟩ := grown _ row stored
  have later : ∃ row'', u.rows x.account.id = some row'' ∧ row'.generation < row''.generation := by
    obtain same | ⟨next,there,change⟩ := stepRows invT stepped x.account.id
    · exact absurd same.symm differs
    · rw [storedT] at change
      exact ⟨next,there,change.disturbs foreign⟩
  obtain ⟨row'',storedU,lt⟩ := later
  obtain ⟨_,invU⟩ := invT.step stepped
  obtain ⟨⟨_,invV⟩,lastly,grownV⟩ := runKept invU onward
  obtain ⟨rowV,storedV,leV⟩ := grownV _ row'' storedU
  obtain ⟨y,there,one⟩ := laters d x here
  obtain ⟨y',there',two⟩ := stepLaters invT stepped d y there
  obtain ⟨z,last,three⟩ := lastly d y' there'
  have reads : z.permissions = some p := three.permissions p (two.permissions p (one.permissions p read))
  have account : z.account = x.account := (three.account.trans two.account).trans one.account
  have stale : ∀ {row}, v.rows z.account.id = some row → row.generation ≠ p.generation := by
    intro row found
    rw [account] at found
    cases storedV.symm.trans found
    omega
  constructor
  · intro now after committed
    simp only [World.step,bind,Option.bind_eq_some_iff] at committed
    obtain ⟨z',found,ends⟩ := committed
    cases last.symm.trans found
    split at ends
    · next q catalog committing =>
      cases ends
      have stage := (invV.discoveries d z last).stage
      rw [committing] at stage
      cases stage.1.symm.trans reads
      rw [World.onCommit]
      obtain broken | same | ⟨_,row,_,-,-,found',-,generation,-⟩ :=
        completeCases now v.rows z.account.id z.scope p.generation catalog.ids catalog.variants
      · rw [broken]
        obtain ⟨metadata,y,held,lost⟩ := caughtLost v d z now
        refine ⟨caughtRows,metadata,fun y' q catalog held' at_ => ?_⟩
        cases held.symm.trans held'
        rw [at_] at lost
        cases lost
      · rw [same]
        refine ⟨rfl,rfl,fun y q catalog held at_ => ?_⟩
        simp only [World.setDiscovery,Function.update_self,Option.some.injEq] at held
        rw [← held] at at_
        cases at_
      · exact absurd generation (stale found')
    · cases ends
  · intro now after recorded
    simp only [World.step,bind,Option.bind_eq_some_iff] at recorded
    obtain ⟨z',found,ends⟩ := recorded
    cases last.symm.trans found
    split at ends
    · next q error failing =>
      cases ends
      have stage := (invV.discoveries d z last).stage
      rw [failing] at stage
      cases stage.symm.trans reads
      obtain same | ⟨row,_,-,found',-,generation,-⟩ := failCases now v.rows z.account.id z.scope p.generation error
      · rw [same]
        rfl
      · exact absurd generation (stale found')
    · cases ends

theorem Inv.missed (inv : Inv digest scopes w) : Missed digest w := by
  intro d x now t here racing stepped u run now'
  have lostT : ∃ y, t.discoveries d = some y ∧ y.stage.Lost := by
    simp only [World.step,bind,Option.bind_eq_some_iff] at stepped
    obtain ⟨x',found,ends⟩ := stepped
    cases here.symm.trans found
    rw [if_neg (by simp [racing])] at ends
    cases ends
    rw [World.onDeadline,if_pos racing]
    exact (caughtLost ..).2
  obtain ⟨y,there,lost⟩ := lostT
  obtain ⟨_,invT⟩ := inv.step stepped
  obtain ⟨-,laters,-⟩ := runKept invT run
  obtain ⟨z,last,later⟩ := laters d y there
  have still := later.lost lost
  constructor
  · simp only [World.step,last,bind,Option.bind_some]
    split
    · next committing =>
      rw [committing] at still
      cases still
    · rfl
  · simp only [World.step,last,bind,Option.bind_some]
    split
    · next committed =>
      rw [committed] at still
      cases still
    · rfl

theorem permissionsSeparated (digest : List (Option String) → String) (w : World) (reach : (World.worlds digest).Reachable w) :
    Separated digest w ∧ (∀ e t, w.step digest e = some t → Guarded digest w e t) ∧ Inert digest w ∧ Missed digest w := by
  obtain ⟨_,inv⟩ := reachableInv reach
  exact ⟨inv.separated,fun _ _ stepped => inv.guarded stepped,inv.inert,inv.missed⟩

def keyed : Account := ⟨"acct","zai",none,some "key",none,none,none,none,false⟩

def keyedDigest (fields : List (Option String)) : String :=
  if fields = [some "zai",none,some "key",some "acct",none,none,none]
  then "5d023d30ec73a401f51c0b067797edc45385456eb2cf6e949e346283ebc58514" else ""

def discoveredThenEdited : List Event :=
  [.saveAccount keyed,.refresh 0 keyed true 0,.listed 0 false,.ask 0 1,.ask 0 1,.ask 0 1,
   .fetched 0 (some ⟨["glm"],none,[]⟩) 2,.commit 0 3,.finish 0 3,.permissions 1 keyed,.advance 1,.put 1 1 ["glm-air"] false]

theorem permissionsSeparatedEdited : ∃ w, (World.worlds keyedDigest).run World.start discoveredThenEdited = some w ∧
    (w.rows "acct").map (fun row => (row.discoveredIds,row.manualIds,row.generation)) = some (["glm"],["glm-air"],2) ∧
    Separated keyedDigest w ∧ (∀ e t, w.step keyedDigest e = some t → Guarded keyedDigest w e t) ∧ Inert keyedDigest w ∧
      Missed keyedDigest w := by
  have view : ((World.worlds keyedDigest).run World.start discoveredThenEdited).map
      (fun w => (w.rows "acct").map (fun row => (row.discoveredIds,row.manualIds,row.generation))) =
        some (some (["glm"],["glm-air"],2)) := by decide +kernel
  obtain ⟨w,done,held⟩ := Option.map_eq_some_iff.mp view
  exact ⟨w,done,held,permissionsSeparated keyedDigest w (Machine.runReachable discoveredThenEdited rfl done)⟩

end Clankermux.ModelPermissions
