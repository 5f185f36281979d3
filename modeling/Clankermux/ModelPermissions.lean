import Clankermux.Text
import Mathlib.Data.List.Sort

/-! The model permissions of accounts: the table's guarded statements, the trigger on the account row,
and the service that reads, provisions and discovers them. -/
namespace Clankermux.ModelPermissions

/-- The fields of an account row that a permission scope reads, with the effective endpoint of `custom_endpoint`. -/
structure Account where
  id : String
  provider : String
  endpoint : Option String
  apiKey : Option String
  identityExternalId : Option String
  identityEmail : Option String
  identityOrganizationName : Option String
  identityPlanTier : Option String
  disabled : Bool

/-- `digest` is the hex of the hash of the JSON text of the fields. -/
def modelPermissionScope (digest : List (Option String) → String) (account : Account) : String :=
  digest
    [some account.provider,account.endpoint,account.apiKey,some (account.identityExternalId.getD account.id),
     account.identityEmail,account.identityOrganizationName,account.identityPlanTier]

structure ModelVariant where
  family : String
  effort : Option String
  dimensions : String
  deriving DecidableEq

structure ClientModelMetadata where
  inputModalities : List String
  contextWindow : Option Nat
  maxOutputTokens : Option Nat
  reasoning : Option Bool
  deriving DecidableEq

abbrev ClientModelMetadataMap := List (String × ClientModelMetadata)

inductive Completeness where
  | unknown | knownComplete | knownEmpty
  deriving DecidableEq

structure AccountModelPermissions where
  scope : String
  generation : Nat
  completeness : Completeness
  discoveredIds : List String
  manualIds : List String
  lastSuccessAt : Option Int
  lastAttemptAt : Option Int
  lastError : Option String
  modelVariants : List (String × ModelVariant)
  deriving DecidableEq

/-- The table, by its primary key `account_id`. -/
abbrev Table := String → Option AccountModelPermissions

namespace Table

def utf16 (text : String) : List Nat :=
  text.toList.flatMap (fun ch =>
    if ch.toNat < 0x10000 then [ch.toNat]
    else [0xD800 + (ch.toNat - 0x10000) / 0x400,0xDC00 + (ch.toNat - 0x10000) % 0x400])

def modelIds (ids : List String) : Option (List String) :=
  if ids.length > 10000 ∨ ids.any (fun id => decide (trim id = "" ∨ id ≠ trim id ∨ utf16Length id > 256)) then none
  else some (ids.dedup.mergeSort (fun a b => !List.lex (utf16 b) (utf16 a) (fun x y => decide (x < y))))

def discoveredVariants (discovered : List String) (variants : List (String × ModelVariant)) : List (String × ModelVariant) :=
  variants.filter (fun entry => decide (entry.1 ∈ discovered))

def provisioned (scope : String) (generation : Nat) : AccountModelPermissions :=
  ⟨scope,generation,.unknown,[],[],none,none,none,[]⟩

def expected (expectedGeneration : Option Nat) (generation : Nat) : Bool := expectedGeneration.all (· = generation)

def ensurePermissionScope (table : Table) (accountId scope : String) (expectedGeneration : Option Nat) :
    Table × AccountModelPermissions :=
  match table accountId with
  | none => (Function.update table accountId (some (provisioned scope 1)),provisioned scope 1)
  | some row =>
    if row.scope ≠ scope ∧ expected expectedGeneration row.generation
    then (Function.update table accountId (some (provisioned scope (row.generation + 1))),provisioned scope (row.generation + 1))
    else (table,row)

/-- The row that is read back is `none` on invalid ids, and on the conflict when no row has the scope and the generation. -/
def setManualModels (table : Table) (accountId scope : String) (ids : List String) (declareEmpty : Bool)
    (expectedGeneration : Option Nat) : Table × Option AccountModelPermissions :=
  match modelIds ids with
  | none => (table,none)
  | some manual =>
    let table := if expectedGeneration = none then (table.ensurePermissionScope accountId scope none).1 else table
    match table accountId with
    | none => (table,none)
    | some row =>
      if row.scope = scope ∧ expected expectedGeneration row.generation then
        let next := { row with
          manualIds := manual
          generation := row.generation + 1
          completeness := if row.lastSuccessAt = none ∧ declareEmpty = true ∧ manual = [] then .knownEmpty else row.completeness }
        (Function.update table accountId (some next),some next)
      else (table,none)

def completeDiscovery (table : Table) (accountId scope : String) (generation : Nat) (ids : List String) (now : Int)
    (variants : List (String × ModelVariant)) : Option (Table × Bool) :=
  match modelIds ids with
  | none => none
  | some discovered =>
    match table accountId with
    | none => some (table,false)
    | some row =>
      if row.scope = scope ∧ row.generation = generation then
        some
          (Function.update table accountId
            (some { row with
              discoveredIds := discovered
              modelVariants := discoveredVariants discovered variants
              completeness := if discovered = [] then .knownEmpty else .knownComplete
              lastSuccessAt := some now
              lastAttemptAt := some now
              lastError := none }),true)
      else some (table,false)

-- both texts are shorter than the 2000 characters that are kept
def failDiscovery (table : Table) (accountId scope : String) (generation : Nat) (error : String) (now : Int) : Table :=
  match table accountId with
  | none => table
  | some row =>
    if row.scope = scope ∧ row.generation = generation
    then Function.update table accountId (some { row with lastAttemptAt := some now, lastError := some error }) else table

def identityChanged (old new : Account) : Bool :=
  old.provider ≠ new.provider || old.endpoint ≠ new.endpoint || old.apiKey ≠ new.apiKey ||
    old.identityExternalId ≠ new.identityExternalId || old.identityEmail ≠ new.identityEmail ||
    old.identityOrganizationName ≠ new.identityOrganizationName || old.identityPlanTier ≠ new.identityPlanTier

def invalidate (table : Table) (accountId : String) : Table :=
  Function.update table accountId ((table accountId).map (fun row => provisioned "invalidated" (row.generation + 1)))

end Table

inductive Call where
  | begun
  | missed (previous : Option AccountModelPermissions)
  | checked (previous : Option AccountModelPermissions)
  | returned (permissions : AccountModelPermissions)
  | threw
  deriving DecidableEq

def Call.pending : Call → Bool
  | .returned _ => false
  | .threw => false
  | _ => true

def Call.advance (digest : List (Option String) → String) (listed : String → Option Account) (table : Table) (account : Account) :
    Call → Option (Table × Call)
  | .begun =>
    match table account.id with
    | some previous =>
      if previous.scope = modelPermissionScope digest account then some (table,.returned previous)
      else some (table,.missed (some previous))
    | none => some (table,.missed none)
  | .missed previous =>
    match listed account.id with
    | none => some (table,.threw)
    | some current =>
      if modelPermissionScope digest current ≠ modelPermissionScope digest account then some (table,.threw)
      else some (table,.checked previous)
  | .checked previous =>
    let ensured := table.ensurePermissionScope account.id (modelPermissionScope digest account)
      (some ((previous.map (·.generation)).getD 0))
    if ensured.2.scope ≠ modelPermissionScope digest account then some (ensured.1,.threw) else some (ensured.1,.returned ensured.2)
  | .returned _ => none
  | .threw => none

structure DiscoveredCatalog where
  ids : List String
  metadata : Option ClientModelMetadataMap
  variants : List (String × ModelVariant)
  deriving DecidableEq

inductive AbortReason where
  | plain | stopped
  deriving DecidableEq

inductive Branch where
  | asking (call : Call)
  | fetching
  | ended
  deriving DecidableEq

/-- What a discovery waits for. `failing` carries the generation and the text of the failure it writes. -/
inductive Stage where
  | listing
  | racing
  | committing (permissions : AccountModelPermissions) (catalog : DiscoveredCatalog)
  | committed (permissions : AccountModelPermissions) (catalog : DiscoveredCatalog) (changed : Bool)
  | failing (permissions : AccountModelPermissions) (error : String)
  | settled
  deriving DecidableEq

structure Discovery where
  account : Account
  scope : String
  epoch : Nat
  stage : Stage
  branch : Branch
  aborted : Option AbortReason
  permissions : Option AccountModelPermissions
  catalog : Option DiscoveredCatalog

structure NativeMetadataSnapshot where
  generation : Nat
  fetchedAt : Int
  models : ClientModelMetadataMap

abbrev Key := String × String

def Discovery.key (d : Discovery) : Key := (d.account.id,d.scope)

structure Service where
  inFlight : Key → Option Nat
  retryAt : Key → Int
  failures : Key → Nat
  nativeMetadata : Key → Option NativeMetadataSnapshot
  stopEpoch : Nat

def Service.discoveredMetadata (service : Service) (digest : List (Option String) → String) (account : Account)
    (permissionsOf : String) (permissions : AccountModelPermissions) (now : Int) : Option (ClientModelMetadataMap × Bool) :=
  if permissionsOf ≠ account.id ∨ permissions.scope ≠ modelPermissionScope digest account then none
  else match service.nativeMetadata (account.id,modelPermissionScope digest account) with
    | none => none
    | some snapshot =>
      if snapshot.generation ≠ permissions.generation then none
      else some (snapshot.models,decide (permissions.lastError ≠ none ∨ now ≥ snapshot.fetchedAt + 3600000))

end Clankermux.ModelPermissions
