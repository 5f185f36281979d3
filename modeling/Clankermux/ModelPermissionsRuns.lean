import Clankermux.ModelPermissions
import Clankermux.Machine

/-! Runs of the permission service: `permissions()` calls with snapshots of any age, writes of the account rows,
manual edits, discoveries and stops, at every order of their awaits. -/
namespace Clankermux.ModelPermissions

structure Edit where
  accountId : String
  scope : String
  generation : Nat
  ids : List String

structure World where
  accounts : String → Option Account
  rows : Table
  calls : Nat → Option (Account × Call)
  discoveries : Nat → Option Discovery
  service : Service
  edits : List Edit

/-- Calls and discoveries are numbered as they begin. `fails` and `broken` are awaits that reject. -/
inductive Event where
  | saveAccount (account : Account)
  | permissions (n : Nat) (account : Account)
  | advance (n : Nat)
  | callFails (n : Nat)
  | put (n generation : Nat) (ids : List String) (declareEmpty : Bool)
  | refresh (d : Nat) (account : Account) (manual : Bool) (now : Int)
  | listed (d : Nat) (broken : Bool)
  | ask (d : Nat) (now : Int)
  | askFails (d : Nat) (now : Int)
  | fetched (d : Nat) (result : Option DiscoveredCatalog) (now : Int)
  | deadline (d : Nat) (now : Int)
  | commit (d : Nat) (now : Int)
  | commitFails (d : Nat) (now : Int)
  | finish (d : Nat) (now : Int)
  | recordFailure (d : Nat) (now : Int)
  | recordFailureFails (d : Nat)
  | stop
  | prune (live : Key → Bool)

namespace World

def start : World where
  accounts _ := none
  rows _ := none
  calls _ := none
  discoveries _ := none
  service := ⟨fun _ => none,fun _ => 0,fun _ => 0,fun _ => none,0⟩
  edits := []

def listed (w : World) (id : String) : Option Account := (w.accounts id).filter (fun account => !account.disabled)

def setCall (w : World) (n : Nat) (account : Account) (call : Call) : World :=
  { w with calls := Function.update w.calls n (some (account,call)) }

def setDiscovery (w : World) (d : Nat) (discovery : Discovery) : World :=
  { w with discoveries := Function.update w.discoveries d (some discovery) }

def saveAccount (w : World) (account : Account) : World :=
  { w with
    accounts := Function.update w.accounts account.id (some account)
    rows := match w.accounts account.id with
      | some old => if Table.identityChanged old account then w.rows.invalidate account.id else w.rows
      | none => w.rows }

def put (w : World) (account : Account) (permissions : AccountModelPermissions) (generation : Nat) (ids : List String)
    (declareEmpty : Bool) : World :=
  if generation ≠ permissions.generation then w
  else
    let edited := w.rows.setManualModels account.id permissions.scope ids declareEmpty (some generation)
    match edited.2 with
    | some _ =>
      { w with
        rows := edited.1
        edits := ⟨account.id,permissions.scope,generation,ids⟩::w.edits }
    | none => { w with rows := edited.1 }

def refresh (digest : List (Option String) → String) (w : World) (d : Nat) (account : Account) (manual : Bool) (now : Int) : World :=
  if account.disabled then w
  else
    let key := (account.id,modelPermissionScope digest account)
    match w.service.inFlight key with
    | some _ => w
    | none =>
      if !manual && decide (w.service.retryAt key > now) then w
      else { w with
        service := { w.service with
          retryAt := Function.update w.service.retryAt key (now + 60000)
          inFlight := Function.update w.service.inFlight key (some d) }
        discoveries := Function.update w.discoveries d
          (some ⟨account,modelPermissionScope digest account,w.service.stopEpoch,.listing,.asking .begun,none,none,none⟩) }

def settle (w : World) (d : Nat) (discovery : Discovery) : World :=
  { w with
    discoveries := Function.update w.discoveries d
      (some { discovery with
        stage := .settled
        aborted := some (discovery.aborted.getD .plain) })
    service := { w.service with
      inFlight := if w.service.inFlight discovery.key = some d then Function.update w.service.inFlight discovery.key none
        else w.service.inFlight } }

def failureText (discovery : Discovery) : String :=
  if discovery.aborted.isSome then "Model discovery timed out"
  else "Could not obtain a complete account model list; configure manual models if discovery is unsupported"

def caught (w : World) (d : Nat) (discovery : Discovery) (now : Int) : World :=
  if discovery.aborted = some .stopped then w.settle d discovery
  else
    let count := w.service.failures discovery.key + 1
    let backedOff := { w with
      service := { w.service with
        failures := Function.update w.service.failures discovery.key count
        retryAt := Function.update w.service.retryAt discovery.key (now + Int.ofNat (Nat.min 300000 (60000 * Nat.pow 2 (Nat.min (count - 1) 3)))) } }
    match discovery.permissions with
    | some permissions => backedOff.setDiscovery d { discovery with stage := .failing permissions (failureText discovery) }
    | none => backedOff.settle d discovery

def threw (w : World) (d : Nat) (discovery : Discovery) (now : Int) : World :=
  if discovery.stage = .racing then w.caught d { discovery with branch := .ended } now
  else w.setDiscovery d { discovery with branch := .ended }

def onListed (w : World) (d : Nat) (discovery : Discovery) (broken : Bool) : World :=
  if broken then w.settle d { discovery with branch := .ended }
  else match w.listed discovery.account.id with
    | none => w.settle d { discovery with branch := .ended }
    | some _ => w.setDiscovery d { discovery with stage := .racing }

def onAsked (w : World) (d : Nat) (discovery : Discovery) (rows : Table) (call : Call) (now : Int) : World :=
  match call with
  | .returned permissions =>
    { w with rows := rows }.setDiscovery d
      { discovery with
        branch := .fetching
        permissions := some permissions }
  | .threw => { w with rows := rows }.threw d discovery now
  | other => { w with rows := rows }.setDiscovery d { discovery with branch := .asking other }

def onFetched (w : World) (d : Nat) (discovery : Discovery) (result : Option DiscoveredCatalog) (now : Int) : World :=
  match discovery.aborted,result,discovery.permissions with
  | none,some catalog,some permissions =>
    if discovery.stage = .racing then w.setDiscovery d
      { discovery with
        branch := .ended
        stage := .committing permissions catalog
        catalog := some catalog }
    else w.setDiscovery d { discovery with branch := .ended }
  | _,_,_ => w.threw d discovery now

def onDeadline (w : World) (d : Nat) (discovery : Discovery) (now : Int) : World :=
  let late := { discovery with aborted := some (discovery.aborted.getD .plain) }
  if discovery.stage = .racing then w.caught d late now else w.setDiscovery d late

def onCommit (w : World) (d : Nat) (discovery : Discovery) (permissions : AccountModelPermissions) (catalog : DiscoveredCatalog)
    (now : Int) : World :=
  match w.rows.completeDiscovery discovery.account.id discovery.scope permissions.generation catalog.ids now catalog.variants with
  | none => w.caught d discovery now
  | some (rows,changed) => { w with rows := rows }.setDiscovery d { discovery with stage := .committed permissions catalog changed }

def onFinish (w : World) (d : Nat) (discovery : Discovery) (permissions : AccountModelPermissions) (catalog : DiscoveredCatalog)
    (changed : Bool) (now : Int) : World :=
  if !changed then w.settle d discovery
  else
    let hydrated := match catalog.metadata with
      | some models => Function.update w.service.nativeMetadata discovery.key (some ⟨permissions.generation,now,models⟩)
      | none => w.service.nativeMetadata
    { w with
      service := { w.service with
        nativeMetadata := hydrated
        failures := Function.update w.service.failures discovery.key 0 } }.settle d discovery

def stopped (discovery : Discovery) : Discovery :=
  if discovery.stage = .listing ∨ discovery.stage = .settled then discovery
  else { discovery with aborted := some (discovery.aborted.getD .stopped) }

def stop (w : World) : World :=
  { w with
    discoveries := fun d => (w.discoveries d).map stopped
    service := { w.service with
      inFlight := fun _ => none
      stopEpoch := w.service.stopEpoch + 1 } }

def prune (w : World) (live : Key → Bool) : World :=
  { w with
    service := { w.service with
      retryAt := fun key => if live key then w.service.retryAt key else 0
      failures := fun key => if live key then w.service.failures key else 0
      nativeMetadata := fun key => if live key then w.service.nativeMetadata key else none } }

def step (digest : List (Option String) → String) (w : World) : Event → Option World
  | .saveAccount account => some (w.saveAccount account)
  | .permissions n account =>
    match w.calls n with
    | some _ => none
    | none => some (w.setCall n account .begun)
  | .advance n => do
    let (account,call) ← w.calls n
    let (rows,next) ← call.advance digest w.listed w.rows account
    some ({ w with rows := rows }.setCall n account next)
  | .callFails n => do
    let (account,call) ← w.calls n
    if call.pending then some (w.setCall n account .threw) else none
  | .put n generation ids declareEmpty =>
    match w.calls n with
    | some (account,.returned permissions) => some (w.put account permissions generation ids declareEmpty)
    | _ => none
  | .refresh d account manual now =>
    match w.discoveries d with
    | some _ => none
    | none => some (w.refresh digest d account manual now)
  | .listed d broken => do
    let discovery ← w.discoveries d
    if discovery.stage = .listing then some (w.onListed d discovery broken) else none
  | .ask d now => do
    let discovery ← w.discoveries d
    if discovery.stage = .listing then none
    else match discovery.branch with
      | .asking call => do
        let (rows,next) ← call.advance digest w.listed w.rows discovery.account
        some (w.onAsked d discovery rows next now)
      | _ => none
  | .askFails d now => do
    let discovery ← w.discoveries d
    if discovery.stage = .listing then none
    else match discovery.branch with
      | .asking _ => some (w.threw d discovery now)
      | _ => none
  | .fetched d result now => do
    let discovery ← w.discoveries d
    if discovery.branch = .fetching then some (w.onFetched d discovery result now) else none
  | .deadline d now => do
    let discovery ← w.discoveries d
    if discovery.stage = .listing ∨ discovery.stage = .settled then none else some (w.onDeadline d discovery now)
  | .commit d now => do
    let discovery ← w.discoveries d
    match discovery.stage with
    | .committing permissions catalog => some (w.onCommit d discovery permissions catalog now)
    | _ => none
  | .commitFails d now => do
    let discovery ← w.discoveries d
    match discovery.stage with
    | .committing _ _ => some (w.caught d discovery now)
    | _ => none
  | .finish d now => do
    let discovery ← w.discoveries d
    match discovery.stage with
    | .committed permissions catalog changed => some (w.onFinish d discovery permissions catalog changed now)
    | _ => none
  | .recordFailure d now => do
    let discovery ← w.discoveries d
    match discovery.stage with
    | .failing permissions error =>
      some ({ w with rows := w.rows.failDiscovery discovery.account.id discovery.scope permissions.generation error now }.settle d discovery)
    | _ => none
  | .recordFailureFails d => do
    let discovery ← w.discoveries d
    match discovery.stage with
    | .failing _ _ => some (w.settle d discovery)
    | _ => none
  | .stop => some w.stop
  | .prune live => some (w.prune live)

def worlds (digest : List (Option String) → String) : Machine World Event where
  init := (· = start)
  step := step digest

end World
end Clankermux.ModelPermissions
