import Clankermux.ModelPermissionsRuns

/-! What every run of the permission service keeps. -/
namespace Clankermux.ModelPermissions

variable {digest : List (Option String) → String} {scopes : String → Nat → String} {w t : World} {account current old : Account}
  {id : String} {n d : Nat} {call : Call} {x y : Discovery} {p row row' : AccountModelPermissions} {table rows : Table}
  {now : Int}

theorem scopeSame (same : old.id = current.id) (unchanged : Table.identityChanged old current = false) :
    modelPermissionScope digest old = modelPermissionScope digest current := by
  simp only [Table.identityChanged,Bool.or_eq_false_iff,decide_eq_false_iff_not,not_not] at unchanged
  obtain ⟨⟨⟨⟨⟨⟨provider,endpoint⟩,apiKey⟩,external⟩,email⟩,organization⟩,tier⟩ := unchanged
  rw [modelPermissionScope,modelPermissionScope,provider,endpoint,apiKey,external,email,organization,tier,same]

def Known (scopes : String → Nat → String) (rows : Table) (id : String) (p : AccountModelPermissions) : Prop :=
  ∃ row, rows id = some row ∧ p.generation ≤ row.generation ∧ p.scope = scopes id p.generation

def Current (digest : List (Option String) → String) (accounts : String → Option Account) (rows : Table) (account : Account)
    (generation : Nat) : Prop :=
  ∀ row, rows account.id = some row → row.generation = generation →
    ∃ current, accounts account.id = some current ∧ modelPermissionScope digest current = modelPermissionScope digest account

def CallSound (digest : List (Option String) → String) (scopes : String → Nat → String) (accounts : String → Option Account)
    (rows : Table) (account : Account) : Call → Prop
  | .begun => True
  | .missed previous => ∀ p ∈ previous, Known scopes rows account.id p
  | .checked previous =>
    (∀ p ∈ previous, Known scopes rows account.id p) ∧ Current digest accounts rows account ((previous.map (·.generation)).getD 0)
  | .returned p => Known scopes rows account.id p ∧ p.scope = modelPermissionScope digest account
  | .threw => True

def Stage.Agrees (x : Discovery) : Stage → Prop
  | .listing => x.catalog = none ∧ x.permissions = none
  | .racing => x.catalog = none
  | .committing p c => x.permissions = some p ∧ x.catalog = some c
  | .committed p c _ => x.permissions = some p ∧ x.catalog = some c
  | .failing p _ => x.permissions = some p
  | .settled => True

structure DiscoverySound (digest : List (Option String) → String) (scopes : String → Nat → String)
    (accounts : String → Option Account) (rows : Table) (x : Discovery) : Prop where
  scope : x.scope = modelPermissionScope digest x.account
  branch : ∀ call, x.branch = .asking call → CallSound digest scopes accounts rows x.account call ∧ x.permissions = none
  permissions : ∀ p, x.permissions = some p → Known scopes rows x.account.id p ∧ p.scope = x.scope
  stage : x.stage.Agrees x

def Discovered (discoveries : Nat → Option Discovery) (id scope : String) (ids : List String) : Prop :=
  ∃ d x c, discoveries d = some x ∧ x.key = (id,scope) ∧ x.catalog = some c ∧ Table.modelIds c.ids = some ids

def Entered (edits : List Edit) (id scope : String) (ids : List String) : Prop :=
  ∃ edit ∈ edits, edit.accountId = id ∧ edit.scope = scope ∧ Table.modelIds edit.ids = some ids

def Hydrated (discoveries : Nat → Option Discovery) (key : Key) (models : ClientModelMetadataMap) : Prop :=
  ∃ d x c, discoveries d = some x ∧ x.key = key ∧ x.catalog = some c ∧ c.metadata = some models

structure RowSound (discoveries : Nat → Option Discovery) (edits : List Edit) (id : String) (row : AccountModelPermissions) : Prop where
  positive : 0 < row.generation
  discovered : row.discoveredIds = [] ∨ Discovered discoveries id row.scope row.discoveredIds
  manual : row.manualIds = [] ∨ Entered edits id row.scope row.manualIds

structure Inv (digest : List (Option String) → String) (scopes : String → Nat → String) (w : World) : Prop where
  stored : ∀ id account, w.accounts id = some account → account.id = id
  rows : ∀ id row, w.rows id = some row → RowSound w.discoveries w.edits id row ∧ row.scope = scopes id row.generation
  edits : ∀ edit ∈ w.edits, ∃ row, w.rows edit.accountId = some row ∧ edit.generation ≤ row.generation ∧
    edit.scope = scopes edit.accountId edit.generation
  calls : ∀ n account call, w.calls n = some (account,call) → CallSound digest scopes w.accounts w.rows account call
  discoveries : ∀ d x, w.discoveries d = some x → DiscoverySound digest scopes w.accounts w.rows x
  metadata : ∀ key snapshot, w.service.nativeMetadata key = some snapshot → Hydrated w.discoveries key snapshot.models
  epochs : ∀ d x, w.discoveries d = some x → x.epoch ≤ w.service.stopEpoch
  flight : ∀ d x, w.discoveries d = some x → x.stage ≠ .settled → x.epoch = w.service.stopEpoch → w.service.inFlight x.key = some d

def scopesAfter (scopes : String → Nat → String) (rows : Table) (id : String) (generation : Nat) : String :=
  match rows id with
  | some row => if generation = row.generation then row.scope else scopes id generation
  | none => scopes id generation

def Grows (table rows : Table) : Prop :=
  ∀ id row, table id = some row → ∃ row', rows id = some row' ∧
    (row'.generation = row.generation ∧ row'.scope = row.scope ∨ row.generation < row'.generation)

theorem Grows.refl : Grows table table := fun _ row here => ⟨row,here,.inl ⟨rfl,rfl⟩⟩

theorem Known.grows (grows : Grows table rows) (own : ∀ row, table id = some row → row.scope = scopes id row.generation)
    (known : Known scopes table id p) : Known (scopesAfter scopes rows) rows id p := by
  obtain ⟨row,here,le,scope⟩ := known
  obtain ⟨row',there,same | later⟩ := grows id row here
  · refine ⟨row',there,by omega,?_⟩
    rw [scopesAfter,there]
    dsimp only
    split
    · next last => rw [scope,same.2,own row here,last,same.1]
    · exact scope
  · refine ⟨row',there,by omega,?_⟩
    rw [scopesAfter,there]
    dsimp only
    rw [if_neg (by omega)]
    exact scope

def Steady (digest : List (Option String) → String) (w : World) (accounts : String → Option Account) (rows : Table) : Prop :=
  ∀ id old, w.accounts id = some old →
    (∃ new, accounts id = some new ∧ modelPermissionScope digest new = modelPermissionScope digest old) ∨
      ∀ row row', w.rows id = some row → rows id = some row' → row.generation < row'.generation

theorem Current.grows {accounts : String → Option Account} {previous : Option AccountModelPermissions}
    (known : ∀ p ∈ previous, Known scopes w.rows account.id p) (grows : Grows w.rows rows)
    (steady : Steady digest w accounts rows) (positive : ∀ row, rows account.id = some row → 0 < row.generation)
    (current : Current digest w.accounts w.rows account ((previous.map (·.generation)).getD 0)) :
    Current digest accounts rows account ((previous.map (·.generation)).getD 0) := by
  intro row' there same
  have early : ∃ row, w.rows account.id = some row ∧ (previous.map (·.generation)).getD 0 ≤ row.generation := by
    cases previous with
    | none =>
      have := positive row' there
      simp only [Option.map_none,Option.getD_none] at same
      omega
    | some p =>
      obtain ⟨row,here,le,-⟩ := known p rfl
      exact ⟨row,here,le⟩
  obtain ⟨row,here,le⟩ := early
  obtain ⟨_,found,change⟩ := grows _ row here
  cases there.symm.trans found
  have still : row.generation = (previous.map (·.generation)).getD 0 := by omega
  obtain ⟨old,stored,scope⟩ := current row here still
  obtain ⟨new,stores,again⟩ | later := steady _ old stored
  · exact ⟨new,stores,again.trans scope⟩
  · have := later row row' here there
    omega

theorem Inv.rewrite {accounts : String → Option Account} {edits : List Edit} (inv : Inv digest scopes w) (grows : Grows w.rows rows)
    (steady : Steady digest w accounts rows) (stored : ∀ id account, accounts id = some account → account.id = id)
    (edited : edits = w.edits ∨ ∃ edit, edits = edit::w.edits ∧
      ∃ row, w.rows edit.accountId = some row ∧ edit.generation = row.generation ∧ edit.scope = row.scope)
    (sound : ∀ id row, rows id = some row → w.rows id = some row ∨ RowSound w.discoveries edits id row) :
    Inv digest (scopesAfter scopes rows)
      { w with
        accounts := accounts
        rows := rows
        edits := edits } := by
  have own : ∀ {id row}, w.rows id = some row → row.scope = scopes id row.generation := fun here => (inv.rows _ _ here).2
  have each : ∀ id row, rows id = some row → RowSound w.discoveries edits id row := by
    intro id row here
    obtain before | now := sound id row here
    · have old := (inv.rows id row before).1
      refine ⟨old.positive,old.discovered,old.manual.imp_right ?_⟩
      rintro ⟨edit,mem,entered⟩
      refine ⟨edit,?_,entered⟩
      obtain rfl | ⟨_,rfl,-⟩ := edited
      · exact mem
      · exact .tail _ mem
    · exact now
  have known : ∀ {id p}, Known scopes w.rows id p → Known (scopesAfter scopes rows) rows id p :=
    fun known => known.grows grows (fun _ here => own here)
  have calls : ∀ {account call}, CallSound digest scopes w.accounts w.rows account call →
      CallSound digest (scopesAfter scopes rows) accounts rows account call := by
    intro account call callSound
    cases call with
    | begun => trivial
    | threw => trivial
    | missed previous => exact fun p here => known (callSound p here)
    | returned p => exact ⟨known callSound.1,callSound.2⟩
    | checked previous =>
      exact ⟨fun p here => known (callSound.1 p here),
        callSound.2.grows callSound.1 grows steady (fun row here => (each _ row here).positive)⟩
  have entry : ∀ (edit : Edit) row, w.rows edit.accountId = some row → edit.generation ≤ row.generation →
      edit.scope = scopes edit.accountId edit.generation →
      ∃ row, rows edit.accountId = some row ∧ edit.generation ≤ row.generation ∧
        edit.scope = scopesAfter scopes rows edit.accountId edit.generation := by
    intro edit row here le scope
    have seen : Known scopes w.rows edit.accountId { row with generation := edit.generation, scope := edit.scope } := ⟨row,here,le,scope⟩
    exact known seen
  constructor
  · exact stored
  · intro id row here
    refine ⟨each id row here,?_⟩
    have there : rows id = some row := here
    rw [scopesAfter,there]
    simp
  · intro edit mem
    obtain rfl | ⟨new,rfl,row,here,generation,scope⟩ := edited
    · obtain ⟨row,here,le,scope⟩ := inv.edits edit mem
      exact entry edit row here le scope
    · obtain rfl | mem := List.mem_cons.mp mem
      · exact entry edit row here (le_of_eq generation) (by rw [scope,generation,own here])
      · obtain ⟨row,here,le,scope⟩ := inv.edits edit mem
        exact entry edit row here le scope
  · exact fun n account call here => calls (inv.calls n account call here)
  · intro d x here
    have before := inv.discoveries d x here
    exact ⟨before.scope,fun call asks => ⟨calls (before.branch call asks).1,(before.branch call asks).2⟩,
      fun p reads => ⟨known (before.permissions p reads).1,(before.permissions p reads).2⟩,before.stage⟩
  · exact inv.metadata
  · exact inv.epochs
  · exact inv.flight

theorem Inv.setCall (inv : Inv digest scopes w) (sound : CallSound digest scopes w.accounts w.rows account call) :
    Inv digest scopes (w.setCall n account call) := by
  refine { inv with calls := ?_ }
  intro m other found here
  rw [World.setCall] at here
  dsimp only at here
  rw [Function.update_apply] at here
  split at here
  · cases here
    exact sound
  · exact inv.calls m other found here

structure Follows (x y : Discovery) : Prop where
  account : y.account = x.account
  scope : y.scope = x.scope
  epoch : y.epoch = x.epoch
  catalog : ∀ c, x.catalog = some c → y.catalog = some c

theorem Follows.refl : Follows x x := ⟨rfl,rfl,rfl,fun _ => id⟩

theorem Follows.key (follows : Follows x y) : y.key = x.key := by rw [Discovery.key,Discovery.key,follows.account,follows.scope]

def Onward (discoveries later : Nat → Option Discovery) : Prop :=
  ∀ d x, discoveries d = some x → ∃ y, later d = some y ∧ Follows x y

variable {discoveries later : Nat → Option Discovery} {edits : List Edit}

theorem Onward.update (here : discoveries d = some x) (follows : Follows x y) :
    Onward discoveries (Function.update discoveries d (some y)) := by
  intro e z there
  by_cases same : e = d
  · subst same
    cases here.symm.trans there
    exact ⟨y,Function.update_self ..,follows⟩
  · exact ⟨z,by rw [Function.update_of_ne same,there],.refl⟩

theorem RowSound.onward (onward : Onward discoveries later) (sound : RowSound discoveries edits id row) :
    RowSound later edits id row := by
  refine ⟨sound.positive,sound.discovered.imp_right ?_,sound.manual⟩
  rintro ⟨d,x,c,here,key,catalog,ids⟩
  obtain ⟨y,there,follows⟩ := onward d x here
  exact ⟨d,y,c,there,follows.key.trans key,follows.catalog c catalog,ids⟩

theorem Hydrated.onward {key : Key} {models} (onward : Onward discoveries later)
    (hydrated : Hydrated discoveries key models) : Hydrated later key models := by
  obtain ⟨d,x,c,here,same,catalog,metadata⟩ := hydrated
  obtain ⟨y,there,follows⟩ := onward d x here
  exact ⟨d,y,c,there,follows.key.trans same,follows.catalog c catalog,metadata⟩

theorem Inv.goOn {service : Service} (inv : Inv digest scopes w) (here : w.discoveries d = some x) (follows : Follows x y)
    (sound : DiscoverySound digest scopes w.accounts w.rows y) (epoch : service.stopEpoch = w.service.stopEpoch)
    (metadata : ∀ key snapshot, service.nativeMetadata key = some snapshot →
      w.service.nativeMetadata key = some snapshot ∨ Hydrated w.discoveries key snapshot.models)
    (others : ∀ e z, e ≠ d → w.service.inFlight z = some e → service.inFlight z = some e)
    (own : y.stage ≠ .settled → x.stage ≠ .settled ∧ (w.service.inFlight x.key = some d → service.inFlight x.key = some d)) :
    Inv digest scopes
      { w with
        discoveries := Function.update w.discoveries d (some y)
        service := service } := by
  have onward : Onward w.discoveries (Function.update w.discoveries d (some y)) := Onward.update here follows
  refine ⟨inv.stored,fun id row found => ⟨(inv.rows id row found).1.onward onward,(inv.rows id row found).2⟩,inv.edits,inv.calls,?_,
    fun key snapshot found => ?_,?_,?_⟩
  · intro e z found
    dsimp only at found
    rw [Function.update_apply] at found
    split at found
    · cases found
      exact sound
    · exact inv.discoveries e z found
  · obtain before | now := metadata key snapshot found
    · exact (inv.metadata key snapshot before).onward onward
    · exact now.onward onward
  · intro e z found
    dsimp only at found ⊢
    rw [epoch]
    rw [Function.update_apply] at found
    split at found
    · cases found
      rw [follows.epoch]
      exact inv.epochs d x here
    · exact inv.epochs e z found
  · intro e z found flying era
    dsimp only at found era ⊢
    rw [epoch] at era
    rw [Function.update_apply] at found
    split at found
    · next same =>
      cases found
      rw [follows.key,same]
      exact (own flying).2 (inv.flight d x here (own flying).1 (follows.epoch ▸ era))
    · next other => exact others e z.key other (inv.flight e z found flying era)

theorem Inv.setDiscovery (inv : Inv digest scopes w) (here : w.discoveries d = some x) (follows : Follows x y)
    (sound : DiscoverySound digest scopes w.accounts w.rows y) (unsettled : y.stage ≠ .settled → x.stage ≠ .settled) :
    Inv digest scopes (w.setDiscovery d y) :=
  inv.goOn here follows sound rfl (fun _ _ => .inl) (fun _ _ _ => id) fun stays => ⟨unsettled stays,id⟩

theorem DiscoverySound.ended (sound : DiscoverySound digest scopes w.accounts w.rows y) :
    DiscoverySound digest scopes w.accounts w.rows
      { y with
        stage := .settled
        aborted := some (y.aborted.getD .plain) } :=
  { sound with stage := trivial }

section
variable (inv : Inv digest scopes w)
include inv

theorem Inv.settle (here : w.discoveries d = some x) (follows : Follows x y)
    (sound : DiscoverySound digest scopes w.accounts w.rows y) : Inv digest scopes (w.settle d y) := by
  refine inv.goOn here (y := { y with stage := .settled, aborted := some (y.aborted.getD .plain) })
    { follows with } sound.ended rfl (fun _ _ => .inl) ?_ (fun stays => absurd rfl stays)
  intro e z other found
  dsimp only
  split
  · next own =>
    rw [Function.update_apply,if_neg]
    · exact found
    · rintro rfl
      exact other (Option.some.inj (found.symm.trans own))
  · exact found

theorem Inv.timed (service : Service) (epoch : service.stopEpoch = w.service.stopEpoch)
    (metadata : ∀ key snapshot, service.nativeMetadata key = some snapshot →
      w.service.nativeMetadata key = some snapshot ∨ Hydrated w.discoveries key snapshot.models)
    (flight : service.inFlight = w.service.inFlight) : Inv digest scopes { w with service := service } := by
  refine ⟨inv.stored,inv.rows,inv.edits,inv.calls,inv.discoveries,fun key snapshot found => ?_,?_,?_⟩
  · obtain before | now := metadata key snapshot found
    · exact inv.metadata key snapshot before
    · exact now
  · intro e z found
    rw [epoch]
    exact inv.epochs e z found
  · intro e z found flying era
    rw [flight]
    exact inv.flight e z found flying (epoch ▸ era)

theorem Inv.caught (here : w.discoveries d = some x) (follows : Follows x y)
    (sound : DiscoverySound digest scopes w.accounts w.rows y) (unsettled : x.stage ≠ .settled) :
    Inv digest scopes (w.caught d y now) := by
  rw [World.caught]
  split
  · exact inv.settle here follows sound
  · have backed := inv.timed
      { w.service with
        failures := Function.update w.service.failures y.key (w.service.failures y.key + 1)
        retryAt := Function.update w.service.retryAt y.key
          (now + Int.ofNat (Nat.min 300000 (60000 * Nat.pow 2 (Nat.min (w.service.failures y.key + 1 - 1) 3)))) } rfl (fun _ _ => .inl) rfl
    cases read : y.permissions with
    | none => exact backed.settle here follows sound
    | some p =>
      exact backed.setDiscovery here { follows with }
        ⟨sound.scope,by rw [← read]; exact sound.branch,by rw [← read]; exact sound.permissions,rfl⟩ (fun _ => unsettled)

theorem Inv.threw (here : w.discoveries d = some x) : Inv digest scopes (w.threw d x now) := by
  have before := inv.discoveries d x here
  have stage := before.stage
  have sound : DiscoverySound digest scopes w.accounts w.rows { x with branch := .ended } :=
    ⟨before.scope,(fun call asks => by cases asks),before.permissions,by cases at_ : x.stage <;> rw [at_] at stage <;> exact stage⟩
  have follows : Follows x { x with branch := .ended } := ⟨rfl,rfl,rfl,fun _ => id⟩
  rw [World.threw]
  split
  · next racing => exact inv.caught here follows sound (by simp [racing])
  · exact inv.setDiscovery here follows sound id

end

theorem growsUpdate (grow : ∀ row, table id = some row →
    row'.generation = row.generation ∧ row'.scope = row.scope ∨ row.generation < row'.generation) :
    Grows table (Function.update table id (some row')) := by
  intro other row here
  by_cases same : other = id
  · subst same
    exact ⟨row',Function.update_self ..,grow row here⟩
  · exact ⟨row,by rw [Function.update_of_ne same,here],.inl ⟨rfl,rfl⟩⟩

theorem steadyRefl : Steady digest w w.accounts rows := fun _ old here => .inl ⟨old,here,rfl⟩

theorem Inv.writeRow (inv : Inv digest scopes w) (id : String) (row' : AccountModelPermissions)
    (grow : ∀ row, w.rows id = some row → row'.generation = row.generation ∧ row'.scope = row.scope ∨ row.generation < row'.generation)
    (edited : edits = w.edits ∨ ∃ edit, edits = edit::w.edits ∧
      ∃ row, w.rows edit.accountId = some row ∧ edit.generation = row.generation ∧ edit.scope = row.scope)
    (sound : RowSound w.discoveries edits id row') :
    Inv digest (scopesAfter scopes (Function.update w.rows id (some row')))
      { w with
        rows := Function.update w.rows id (some row')
        edits := edits } := by
  refine inv.rewrite (growsUpdate grow) steadyRefl inv.stored edited fun other row found => ?_
  rw [Function.update_apply] at found
  split at found
  · next same =>
    cases found
    rw [same]
    exact .inr sound
  · exact .inl found

theorem Inv.rescoped (inv : Inv digest scopes w) : Inv digest (scopesAfter scopes w.rows) w :=
  inv.rewrite .refl steadyRefl inv.stored (.inl rfl) fun _ _ => .inl

theorem provisionedSound {scope : String} {generation} (positive : 0 < generation) :
    RowSound discoveries edits id (Table.provisioned scope generation) := ⟨positive,.inl rfl,.inl rfl⟩

theorem ensureCases (table : Table) (id scope : String) (generation : Option Nat) :
    (∃ row, table id = some row ∧ table.ensurePermissionScope id scope generation = (table,row)) ∨
    (table id = none ∧ table.ensurePermissionScope id scope generation =
      (Function.update table id (some (Table.provisioned scope 1)),Table.provisioned scope 1)) ∨
    ∃ row, table id = some row ∧ row.scope ≠ scope ∧ Table.expected generation row.generation = true ∧
      table.ensurePermissionScope id scope generation =
        (Function.update table id (some (Table.provisioned scope (row.generation + 1))),Table.provisioned scope (row.generation + 1)) := by
  rw [Table.ensurePermissionScope]
  cases here : table id with
  | none => exact .inr (.inl ⟨rfl,rfl⟩)
  | some row =>
    dsimp only
    split
    · next can => exact .inr (.inr ⟨row,rfl,can.1,can.2,rfl⟩)
    · exact .inl ⟨row,rfl,rfl⟩

theorem Inv.ensured (inv : Inv digest scopes w) (id scope : String) (generation : Option Nat) :
    Inv digest (scopesAfter scopes (w.rows.ensurePermissionScope id scope generation).1)
      { w with rows := (w.rows.ensurePermissionScope id scope generation).1 } ∧
    Known (scopesAfter scopes (w.rows.ensurePermissionScope id scope generation).1)
      (w.rows.ensurePermissionScope id scope generation).1 id (w.rows.ensurePermissionScope id scope generation).2 := by
  have known : ∀ {rows} {row}, rows id = some row → Known (scopesAfter scopes rows) rows id row := by
    intro rows row here
    refine ⟨row,here,le_refl _,?_⟩
    rw [scopesAfter,here]
    simp
  obtain ⟨row,here,same⟩ | ⟨absent,new⟩ | ⟨row,here,-,-,new⟩ := ensureCases w.rows id scope generation
  · rw [same]
    exact ⟨inv.rescoped,known here⟩
  · rw [new]
    exact ⟨inv.writeRow _ _ (fun row here => by rw [absent] at here; cases here) (.inl rfl) (provisionedSound Nat.one_pos),
      known (Function.update_self ..)⟩
  · rw [new]
    refine ⟨inv.writeRow _ _ (fun other there => ?_) (.inl rfl) (provisionedSound (Nat.succ_pos _)),known (Function.update_self ..)⟩
    cases here.symm.trans there
    exact .inr (Nat.lt_succ_self _)

theorem listedStored (listed : w.listed id = some current) : w.accounts id = some current := (Option.filter_eq_some_iff.mp listed).1

theorem Inv.advanced (inv : Inv digest scopes w) {next : Call} (sound : CallSound digest scopes w.accounts w.rows account call)
    (advance : call.advance digest w.listed w.rows account = some (rows,next)) :
    Inv digest (scopesAfter scopes rows) { w with rows := rows } ∧
      CallSound digest (scopesAfter scopes rows) w.accounts rows account next := by
  have own : ∀ {id row}, w.rows id = some row → row.scope = scopes id row.generation := fun here => (inv.rows _ _ here).2
  have still : ∀ {id p}, Known scopes w.rows id p → Known (scopesAfter scopes w.rows) w.rows id p :=
    fun known => known.grows .refl (fun _ here => own here)
  cases call with
  | returned p => cases advance
  | threw => cases advance
  | begun =>
    rw [Call.advance] at advance
    cases here : w.rows account.id with
    | none =>
      rw [here] at advance
      cases advance
      exact ⟨inv.rescoped,fun p none_ => by cases none_⟩
    | some previous =>
      rw [here] at advance
      have read : Known (scopesAfter scopes w.rows) w.rows account.id previous := still ⟨previous,here,le_refl _,own here⟩
      dsimp only at advance
      split at advance
      · next scope =>
        cases advance
        exact ⟨inv.rescoped,read,scope⟩
      · cases advance
        exact ⟨inv.rescoped,fun p same => by cases same; exact read⟩
  | missed previous =>
    rw [Call.advance] at advance
    cases found : w.listed account.id with
    | none =>
      rw [found] at advance
      cases advance
      exact ⟨inv.rescoped,trivial⟩
    | some current =>
      rw [found] at advance
      dsimp only at advance
      split at advance
      · cases advance
        exact ⟨inv.rescoped,trivial⟩
      · next same =>
        cases advance
        refine ⟨inv.rescoped,fun p here => still (sound p here),fun _ _ _ => ⟨current,listedStored found,?_⟩⟩
        simpa using same
  | checked previous =>
    rw [Call.advance] at advance
    obtain ⟨kept,known⟩ := inv.ensured account.id (modelPermissionScope digest account)
      (some ((previous.map (·.generation)).getD 0))
    split at advance
    · cases advance
      exact ⟨kept,trivial⟩
    · next same =>
      cases advance
      exact ⟨kept,known,by simpa using same⟩

theorem Inv.saveAccount (inv : Inv digest scopes w) :
    Inv digest (scopesAfter scopes (w.saveAccount account).rows) (w.saveAccount account) := by
  have stored : ∀ id other, Function.update w.accounts account.id (some account) id = some other → other.id = id := by
    intro id other here
    rw [Function.update_apply] at here
    split at here
    · next same =>
      cases here
      exact same.symm
    · exact inv.stored id other here
  have steady : ∀ {rows}, (∀ old, w.accounts account.id = some old →
      modelPermissionScope digest account = modelPermissionScope digest old ∨
        ∀ row row', w.rows account.id = some row → rows account.id = some row' → row.generation < row'.generation) →
      Steady digest w (Function.update w.accounts account.id (some account)) rows := by
    intro rows own id old here
    by_cases same : id = account.id
    · subst same
      exact (own old here).imp_left fun scope => ⟨account,Function.update_self ..,scope⟩
    · exact .inl ⟨old,by rw [Function.update_of_ne same,here],rfl⟩
  have kept : (∀ old, w.accounts account.id = some old → modelPermissionScope digest account = modelPermissionScope digest old) →
      Inv digest (scopesAfter scopes w.rows)
        { w with
          accounts := Function.update w.accounts account.id (some account)
          rows := w.rows } :=
    fun scope => inv.rewrite .refl (steady fun old here => .inl (scope old here)) stored (.inl rfl) fun _ _ => .inl
  rw [World.saveAccount]
  cases before : w.accounts account.id with
  | none => exact kept fun old here => by rw [before] at here; cases here
  | some old =>
    dsimp only
    cases changed : Table.identityChanged old account with
    | false =>
      refine kept fun other here => ?_
      cases before.symm.trans here
      exact (scopeSame (inv.stored _ _ before) changed).symm
    | true =>
      rw [if_pos rfl]
      have row : ∀ {row}, w.rows account.id = some row →
          w.rows.invalidate account.id account.id = some (Table.provisioned "invalidated" (row.generation + 1)) := by
        intro row here
        rw [Table.invalidate,Function.update_self,here]
        rfl
      have others : ∀ {id}, id ≠ account.id → w.rows.invalidate account.id id = w.rows id :=
        fun other => Function.update_of_ne other ..
      refine inv.rewrite ?_ (steady fun other here => .inr ?_) stored (.inl rfl) ?_
      · intro id earlier here
        by_cases same : id = account.id
        · subst same
          exact ⟨_,row here,.inr (Nat.lt_succ_self _)⟩
        · exact ⟨earlier,(others same).trans here,.inl ⟨rfl,rfl⟩⟩
      · intro earlier later here there
        cases (row here).symm.trans there
        exact Nat.lt_succ_self _
      · intro id later there
        by_cases same : id = account.id
        · subst same
          right
          cases here : w.rows account.id with
          | none =>
            rw [Table.invalidate,Function.update_self,here] at there
            cases there
          | some earlier =>
            cases (row here).symm.trans there
            exact provisionedSound (Nat.succ_pos _)
        · exact .inl ((others same).symm.trans there)

theorem expectedSome {generation : Nat} : Table.expected (some generation) n = true ↔ n = generation := by simp [Table.expected,eq_comm]

theorem setManualCases (table : Table) (id scope : String) (ids : List String) (declareEmpty : Bool) (generation : Nat) :
    table.setManualModels id scope ids declareEmpty (some generation) = (table,none) ∨
    ∃ manual row next,
      table.setManualModels id scope ids declareEmpty (some generation) = (Function.update table id (some next),some next) ∧
      Table.modelIds ids = some manual ∧ table id = some row ∧ row.scope = scope ∧ row.generation = generation ∧
      next.scope = row.scope ∧ next.generation = row.generation + 1 ∧ next.discoveredIds = row.discoveredIds ∧
      next.manualIds = manual := by
  rw [Table.setManualModels]
  cases valid : Table.modelIds ids with
  | none => exact .inl rfl
  | some manual =>
    dsimp only
    rw [if_neg (by simp)]
    cases here : table id with
    | none => exact .inl rfl
    | some row =>
      dsimp only
      split
      · next can => exact .inr ⟨manual,row,_,rfl,rfl,rfl,can.1,expectedSome.mp can.2,rfl,rfl,rfl,rfl⟩
      · exact .inl rfl

theorem Inv.put (inv : Inv digest scopes w) {generation} {ids : List String} {declareEmpty} :
    ∃ scopes', Inv digest scopes' (w.put account p generation ids declareEmpty) := by
  rw [World.put]
  split
  · exact ⟨scopes,inv⟩
  · dsimp only
    obtain same | ⟨manual,row,next,edited,valid,here,scope,same,scope',later,discovered,manuals⟩ :=
      setManualCases w.rows account.id p.scope ids declareEmpty generation
    · rw [same]
      exact ⟨scopes,inv⟩
    · rw [edited]
      have before := (inv.rows _ row here).1
      refine ⟨_,inv.writeRow _ _ (fun other there => .inr ?_) (.inr ⟨⟨account.id,p.scope,generation,ids⟩,rfl,row,here,same.symm,scope.symm⟩) ?_⟩
      · cases here.symm.trans there
        rw [later]
        exact Nat.lt_succ_self _
      · refine ⟨by omega,?_,.inr ⟨_,.head _,rfl,?_,by rw [manuals]; exact valid⟩⟩
        · rw [scope',discovered]
          exact before.discovered
        · rw [scope',scope]

theorem completeCases (now : Int) (table : Table) (id scope : String) (generation : Nat) (ids : List String)
    (variants : List (String × ModelVariant)) :
    table.completeDiscovery id scope generation ids now variants = none ∨
    table.completeDiscovery id scope generation ids now variants = some (table,false) ∨
    ∃ discovered row next,
      table.completeDiscovery id scope generation ids now variants = some (Function.update table id (some next),true) ∧
      Table.modelIds ids = some discovered ∧ table id = some row ∧ row.scope = scope ∧ row.generation = generation ∧
      next.scope = row.scope ∧ next.generation = row.generation ∧ next.discoveredIds = discovered ∧ next.manualIds = row.manualIds := by
  rw [Table.completeDiscovery]
  cases valid : Table.modelIds ids with
  | none => exact .inl rfl
  | some discovered =>
    right
    cases here : table id with
    | none => exact .inl rfl
    | some row =>
      dsimp only
      split
      · next can => exact .inr ⟨discovered,row,_,rfl,rfl,rfl,can.1,can.2,rfl,rfl,rfl,rfl⟩
      · exact .inl rfl

theorem failCases (now : Int) (table : Table) (id scope : String) (generation : Nat) (error : String) :
    table.failDiscovery id scope generation error now = table ∨
    ∃ row next, table.failDiscovery id scope generation error now = Function.update table id (some next) ∧
      table id = some row ∧ row.scope = scope ∧ row.generation = generation ∧ next.scope = row.scope ∧
      next.generation = row.generation ∧ next.discoveredIds = row.discoveredIds ∧ next.manualIds = row.manualIds := by
  rw [Table.failDiscovery]
  cases here : table id with
  | none => exact .inl rfl
  | some row =>
    dsimp only
    split
    · next can => exact .inr ⟨row,_,rfl,rfl,can.1,can.2,rfl,rfl,rfl,rfl⟩
    · exact .inl rfl

theorem Inv.refresh {manual : Bool} (inv : Inv digest scopes w) (fresh : w.discoveries d = none) :
    Inv digest scopes (w.refresh digest d account manual now) := by
  rw [World.refresh]
  split
  · exact inv
  dsimp only
  cases flying : w.service.inFlight (account.id,modelPermissionScope digest account) with
  | some _ => exact inv
  | none =>
    dsimp only
    split
    · exact inv
    have onward : ∀ {y}, Onward w.discoveries (Function.update w.discoveries d (some y)) := by
      intro y e x here
      refine ⟨x,?_,.refl⟩
      rw [Function.update_of_ne,here]
      rintro rfl
      rw [fresh] at here
      cases here
    refine ⟨inv.stored,fun id row found => ⟨(inv.rows id row found).1.onward onward,(inv.rows id row found).2⟩,inv.edits,inv.calls,?_,
      fun key snapshot found => (inv.metadata key snapshot found).onward onward,?_,?_⟩
    · intro e x found
      dsimp only at found
      rw [Function.update_apply] at found
      split at found
      · cases found
        exact ⟨rfl,(fun call asks => by cases asks; exact ⟨trivial,rfl⟩),(fun p none_ => by cases none_),rfl,rfl⟩
      · exact inv.discoveries e x found
    · intro e x found
      dsimp only at found
      rw [Function.update_apply] at found
      split at found
      · cases found
        exact le_refl _
      · exact inv.epochs e x found
    · intro e x found unsettled era
      dsimp only at found era ⊢
      rw [Function.update_apply] at found
      split at found
      · next same =>
        cases found
        rw [same]
        exact Function.update_self ..
      · have entry := inv.flight e x found unsettled era
        rw [Function.update_apply,if_neg]
        · exact entry
        · intro same
          rw [same,flying] at entry
          cases entry

section
variable (inv : Inv digest scopes w) (here : w.discoveries d = some x)
include inv here

theorem Inv.onListed {broken : Bool} (listing : x.stage = .listing) :
    Inv digest scopes (w.onListed d x broken) := by
  have before := inv.discoveries d x here
  have stage := before.stage
  rw [listing] at stage
  have over_ : Inv digest scopes (w.settle d { x with branch := .ended }) :=
    inv.settle here ⟨rfl,rfl,rfl,fun _ => id⟩ ⟨before.scope,(fun call asks => by cases asks),before.permissions,by rw [listing]; exact stage⟩
  rw [World.onListed]
  split
  · exact over_
  · cases w.listed x.account.id with
    | none => exact over_
    | some current =>
      exact inv.setDiscovery here ⟨rfl,rfl,rfl,fun _ => id⟩ { before with stage := stage.1 } (by simp [listing])

theorem Inv.onAsked {next : Call} (begun : x.stage ≠ .listing)
    (asking : x.branch = .asking call) (advance : call.advance digest w.listed w.rows x.account = some (rows,next)) :
    Inv digest (scopesAfter scopes rows) (w.onAsked d x rows next now) := by
  obtain ⟨sound,unread⟩ := (inv.discoveries d x here).branch call asking
  obtain ⟨kept,onward⟩ := inv.advanced sound advance
  have before := kept.discoveries d x here
  have stage := before.stage
  unfold World.onAsked
  split
  · next p =>
    refine kept.setDiscovery here ⟨rfl,rfl,rfl,fun _ => id⟩ ⟨before.scope,(fun call asks => by cases asks),?_,?_⟩ id
    · intro q same
      cases same
      exact ⟨onward.1,onward.2.trans before.scope.symm⟩
    · cases at_ : x.stage with
      | listing => exact absurd at_ begun
      | racing => rw [at_] at stage; exact stage
      | settled => trivial
      | committing q c => rw [at_] at stage; cases unread.symm.trans stage.1
      | committed q c b => rw [at_] at stage; cases unread.symm.trans stage.1
      | failing q error => rw [at_] at stage; cases unread.symm.trans stage
  · exact kept.threw here
  · refine kept.setDiscovery here ⟨rfl,rfl,rfl,fun _ => id⟩ ⟨before.scope,?_,before.permissions,?_⟩ id
    · intro other same
      cases same
      exact ⟨onward,unread⟩
    · cases at_ : x.stage <;> rw [at_] at stage <;> exact stage

theorem Inv.onFetched {result : Option DiscoveredCatalog} :
    Inv digest scopes (w.onFetched d x result now) := by
  have before := inv.discoveries d x here
  have stage := before.stage
  unfold World.onFetched
  split
  · next catalog p _ read =>
    split
    · next racing =>
      rw [racing] at stage
      refine inv.setDiscovery here ⟨rfl,rfl,rfl,fun c found => ?_⟩ ⟨before.scope,(fun call asks => by cases asks),before.permissions,read,rfl⟩
        (by simp [racing])
      rw [stage] at found
      cases found
    · refine inv.setDiscovery here ⟨rfl,rfl,rfl,fun _ => id⟩ ⟨before.scope,(fun call asks => by cases asks),before.permissions,?_⟩ id
      cases at_ : x.stage <;> rw [at_] at stage <;> exact stage
  · exact inv.threw here

theorem Inv.onDeadline : Inv digest scopes (w.onDeadline d x now) := by
  have before := inv.discoveries d x here
  have stage := before.stage
  have late : DiscoverySound digest scopes w.accounts w.rows { x with aborted := some (x.aborted.getD .plain) } :=
    { before with stage := by cases at_ : x.stage <;> rw [at_] at stage <;> exact stage }
  rw [World.onDeadline]
  split
  · next racing => exact inv.caught here ⟨rfl,rfl,rfl,fun _ => id⟩ late (by simp [racing])
  · exact inv.setDiscovery here ⟨rfl,rfl,rfl,fun _ => id⟩ late id

theorem Inv.onCommit {catalog : DiscoveredCatalog} (committing : x.stage = .committing p catalog) : ∃ scopes', Inv digest scopes' (w.onCommit d x p catalog now) := by
  have before := inv.discoveries d x here
  have stage := before.stage
  rw [committing] at stage
  have committed : ∀ {scopes'} {rows : Table} {changed : Bool},
      Inv digest scopes' { w with rows := rows } →
      Inv digest scopes' ({ w with rows := rows }.setDiscovery d { x with stage := .committed p catalog changed }) := by
    intro scopes' rows changed kept
    have after := kept.discoveries d x here
    exact kept.setDiscovery here ⟨rfl,rfl,rfl,fun _ => id⟩ { after with stage := stage } (by simp [committing])
  rw [World.onCommit]
  obtain broken | same | ⟨discovered,row,next,done,valid,found,scope,generation,scope',generation',ids,manual⟩ :=
    completeCases now w.rows x.account.id x.scope p.generation catalog.ids catalog.variants
  · rw [broken]
    exact ⟨scopes,inv.caught here .refl before (by simp [committing])⟩
  · rw [same]
    exact ⟨scopes,committed inv⟩
  · rw [done]
    have old := (inv.rows _ row found).1
    refine ⟨_,committed (inv.writeRow _ _ (fun other there => ?_) (.inl rfl) ⟨generation' ▸ old.positive,.inr ⟨d,x,catalog,here,?_,stage.2,?_⟩,?_⟩)⟩
    · cases found.symm.trans there
      exact .inl ⟨generation',scope'⟩
    · rw [Discovery.key,scope',scope]
    · rw [ids]
      exact valid
    · rw [manual,scope']
      exact old.manual

theorem Inv.onFinish {catalog : DiscoveredCatalog} {changed}
    (committed : x.stage = .committed p catalog changed) : Inv digest scopes (w.onFinish d x p catalog changed now) := by
  have before := inv.discoveries d x here
  have stage := before.stage
  rw [committed] at stage
  rw [World.onFinish]
  split
  · exact inv.settle here .refl before
  · dsimp only
    refine Inv.settle ?_ here .refl before
    refine inv.timed _ rfl (fun key snapshot found => ?_) rfl
    cases metadata : catalog.metadata with
    | none =>
      rw [metadata] at found
      exact .inl found
    | some models =>
      rw [metadata] at found
      dsimp only at found
      rw [Function.update_apply] at found
      split at found
      · next same =>
        cases found
        exact .inr ⟨d,x,catalog,here,same.symm,stage.2,metadata⟩
      · exact .inl found

theorem Inv.recordFailure {error : String} :
    ∃ scopes', Inv digest scopes'
      ({ w with rows := w.rows.failDiscovery x.account.id x.scope p.generation error now }.settle d x) := by
  obtain same | ⟨row,next,done,found,scope,generation,scope',generation',ids,manual⟩ :=
    failCases now w.rows x.account.id x.scope p.generation error
  · rw [same]
    exact ⟨scopes,inv.settle here .refl (inv.discoveries d x here)⟩
  · rw [done]
    have old := (inv.rows _ row found).1
    have kept := inv.writeRow x.account.id next (fun other there => by
      cases found.symm.trans there
      exact .inl ⟨generation',scope'⟩) (.inl rfl)
      ⟨generation' ▸ old.positive,by rw [ids,scope']; exact old.discovered,by rw [manual,scope']; exact old.manual⟩
    exact ⟨_,kept.settle here .refl (kept.discoveries d x here)⟩

end

theorem Inv.stop (inv : Inv digest scopes w) : Inv digest scopes w.stop := by
  have follows : ∀ x, Follows x (World.stopped x) := by
    intro x
    rw [World.stopped]
    split
    · exact .refl
    · exact ⟨rfl,rfl,rfl,fun _ => id⟩
  have onward : Onward w.discoveries (fun d => (w.discoveries d).map World.stopped) :=
    fun d x here => ⟨World.stopped x,by simp [here],follows x⟩
  refine ⟨inv.stored,fun id row found => ⟨(inv.rows id row found).1.onward onward,(inv.rows id row found).2⟩,inv.edits,inv.calls,?_,
    fun key snapshot found => (inv.metadata key snapshot found).onward onward,?_,?_⟩
  · intro d y found
    obtain ⟨x,here,rfl⟩ := Option.map_eq_some_iff.mp found
    have before := inv.discoveries d x here
    have stage := before.stage
    rw [World.stopped]
    split
    · exact before
    · exact { before with stage := by cases at_ : x.stage <;> rw [at_] at stage <;> exact stage }
  · intro d y found
    obtain ⟨x,here,rfl⟩ := Option.map_eq_some_iff.mp found
    rw [(follows x).epoch]
    exact Nat.le_succ_of_le (inv.epochs d x here)
  · intro d y found _ era
    obtain ⟨x,here,rfl⟩ := Option.map_eq_some_iff.mp found
    rw [(follows x).epoch] at era
    have := inv.epochs d x here
    simp only [World.stop] at era
    omega

theorem Inv.prune {live : Key → Bool} (inv : Inv digest scopes w) : Inv digest scopes (w.prune live) := by
  refine inv.timed _ rfl (fun key snapshot found => .inl ?_) rfl
  dsimp only at found
  split at found
  · exact found
  · cases found

theorem startInv : Inv digest (fun _ _ => "") World.start := by
  constructor
  · exact fun _ _ absent => by cases absent
  · exact fun _ _ absent => by cases absent
  · exact fun _ absent => by cases absent
  · exact fun _ _ _ absent => by cases absent
  · exact fun _ _ absent => by cases absent
  · exact fun _ _ absent => by cases absent
  · exact fun _ _ absent => by cases absent
  · exact fun _ _ absent => by cases absent

inductive Stepped (digest : List (Option String) → String) (w : World) : Event → World → Prop where
  | saveAccount (account : Account) : Stepped digest w (.saveAccount account) (w.saveAccount account)
  | permissions (n : Nat) (account : Account) : Stepped digest w (.permissions n account) (w.setCall n account .begun)
  | advance {n : Nat} {account} {call next} {rows} (here : w.calls n = some (account,call))
    (advance : call.advance digest w.listed w.rows account = some (rows,next)) :
    Stepped digest w (.advance n) ({ w with rows := rows }.setCall n account next)
  | callFails (n : Nat) (account : Account) : Stepped digest w (.callFails n) (w.setCall n account .threw)
  | put (n : Nat) (account : Account) (p : AccountModelPermissions) (generation : Nat) (ids : List String) (declareEmpty : Bool) :
    Stepped digest w (.put n generation ids declareEmpty) (w.put account p generation ids declareEmpty)
  | refresh {d : Nat} (account : Account) (manual : Bool) (now : Int) (fresh : w.discoveries d = none) :
    Stepped digest w (.refresh d account manual now) (w.refresh digest d account manual now)
  | listed {d : Nat} {x} (broken : Bool) (here : w.discoveries d = some x) (listing : x.stage = .listing) :
    Stepped digest w (.listed d broken) (w.onListed d x broken)
  | ask {d : Nat} {x} {call next} {rows} (now : Int) (here : w.discoveries d = some x) (begun : x.stage ≠ .listing)
    (asking : x.branch = .asking call) (advance : call.advance digest w.listed w.rows x.account = some (rows,next)) :
    Stepped digest w (.ask d now) (w.onAsked d x rows next now)
  | askFails {d : Nat} {x} (now : Int) (here : w.discoveries d = some x) : Stepped digest w (.askFails d now) (w.threw d x now)
  | fetched {d : Nat} {x} (result : Option DiscoveredCatalog) (now : Int) (here : w.discoveries d = some x) :
    Stepped digest w (.fetched d result now) (w.onFetched d x result now)
  | deadline {d : Nat} {x} (now : Int) (here : w.discoveries d = some x) : Stepped digest w (.deadline d now) (w.onDeadline d x now)
  | commit {d : Nat} {x} {p} {catalog} (now : Int) (here : w.discoveries d = some x)
    (committing : x.stage = .committing p catalog) : Stepped digest w (.commit d now) (w.onCommit d x p catalog now)
  | commitFails {d : Nat} {x} {p} {catalog} (now : Int)
    (here : w.discoveries d = some x) (committing : x.stage = .committing p catalog) : Stepped digest w (.commitFails d now) (w.caught d x now)
  | finish {d : Nat} {x} {p} {catalog} {changed} (now : Int)
    (here : w.discoveries d = some x) (committed : x.stage = .committed p catalog changed) :
    Stepped digest w (.finish d now) (w.onFinish d x p catalog changed now)
  | recordFailure {d : Nat} {x} {p} {error} (now : Int) (here : w.discoveries d = some x)
    (failing : x.stage = .failing p error) : Stepped digest w (.recordFailure d now)
      ({ w with rows := w.rows.failDiscovery x.account.id x.scope p.generation error now }.settle d x)
  | recordFailureFails {d : Nat} {x} (here : w.discoveries d = some x) : Stepped digest w (.recordFailureFails d) (w.settle d x)
  | stop : Stepped digest w .stop w.stop
  | prune (live : Key → Bool) : Stepped digest w (.prune live) (w.prune live)

theorem stepped {e : Event} (went : w.step digest e = some t) : Stepped digest w e t := by
  cases e with
  | saveAccount account => cases went; exact .saveAccount account
  | stop => cases went; exact .stop
  | prune live => cases went; exact .prune live
  | permissions n account =>
    rw [World.step] at went
    split at went <;> cases went
    exact .permissions n account
  | put n generation ids declareEmpty =>
    rw [World.step] at went
    split at went <;> cases went
    exact .put ..
  | refresh d account manual now =>
    rw [World.step] at went
    split at went <;> cases went
    exact .refresh account manual now ‹_›
  | advance n =>
    simp only [World.step,bind,Option.bind_eq_some_iff] at went
    obtain ⟨⟨account,call⟩,here,⟨rows,next⟩,advance,last⟩ := went
    cases last
    exact .advance here advance
  | ask d now =>
    simp only [World.step,bind,Option.bind_eq_some_iff] at went
    obtain ⟨x,here,last⟩ := went
    split at last
    · cases last
    · split at last
      · obtain ⟨⟨rows,next⟩,advance,last⟩ := Option.bind_eq_some_iff.mp last
        cases last
        exact .ask now here ‹_› ‹_› advance
      · cases last
  | askFails d now =>
    simp only [World.step,bind,Option.bind_eq_some_iff] at went
    obtain ⟨x,here,last⟩ := went
    split at last
    · cases last
    · split at last <;> cases last
      exact .askFails now here
  | callFails n | listed d broken | fetched d result now | deadline d now | commit d now | commitFails d now | finish d now
    | recordFailure d now | recordFailureFails d =>
    simp only [World.step,bind,Option.bind_eq_some_iff] at went
    obtain ⟨x,here,last⟩ := went
    split at last <;> cases last
    constructor <;> assumption

theorem Inv.step {e : Event} (inv : Inv digest scopes w) (went : w.step digest e = some t) : ∃ scopes', Inv digest scopes' t := by
  cases stepped went with
  | saveAccount account => exact ⟨_,inv.saveAccount⟩
  | permissions | callFails => exact ⟨_,inv.setCall trivial⟩
  | @advance n account call next rows here advance =>
    obtain ⟨kept,sound⟩ := inv.advanced (inv.calls n account call here) advance
    exact ⟨_,kept.setCall sound⟩
  | put => exact inv.put
  | refresh account manual now fresh => exact ⟨_,inv.refresh fresh⟩
  | listed broken here listing => exact ⟨_,inv.onListed here listing⟩
  | ask now here begun asking advance => exact ⟨_,inv.onAsked here begun asking advance⟩
  | askFails now here => exact ⟨_,inv.threw here⟩
  | fetched result now here => exact ⟨_,inv.onFetched here⟩
  | deadline now here => exact ⟨_,inv.onDeadline here⟩
  | commit now here committing => exact inv.onCommit here committing
  | commitFails now here committing => exact ⟨_,inv.caught here .refl (inv.discoveries _ _ here) (by simp [committing])⟩
  | finish now here committed => exact ⟨_,inv.onFinish here committed⟩
  | recordFailure now here => exact inv.recordFailure here
  | recordFailureFails here => exact ⟨_,inv.settle here .refl (inv.discoveries _ _ here)⟩
  | stop => exact ⟨_,inv.stop⟩
  | prune live => exact ⟨_,inv.prune⟩

theorem reachableInv (reach : (World.worlds digest).Reachable w) : ∃ scopes, Inv digest scopes w := by
  refine Machine.Reachable.invariant (P := fun w => ∃ scopes, Inv digest scopes w) reach ?_ ?_
  · rintro _ rfl
    exact ⟨_,startInv⟩
  · rintro _ _ _ ⟨_,inv⟩ stepped
    exact inv.step stepped

end Clankermux.ModelPermissions
