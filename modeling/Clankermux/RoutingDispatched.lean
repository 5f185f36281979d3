import Clankermux.RoutingDispatch

/-! Every send of a client's inference is authorised, recorded first and closed. -/
namespace Clankermux.RoutingDispatch
open ModelPermissions (Account AccountModelPermissions modelPermissionScope)

def layer (fields : List (String × Json)) : Nat → Option (List (String × Json))
  | 0 => some fields
  | n + 1 => match layer fields n with
    | some inner => match (Json.obj inner).field "extra_body" with
      | some (.obj extra) => some extra
      | _ => none
    | none => none

def OverrideFree (fields : List (String × Json)) : Prop :=
  ∀ n inner, layer fields n = some inner →
    (∀ field ∈ overrideFields, (Json.obj inner).field field = none) ∧ (0 < n → (Json.obj inner).field "model" = none)

def Serialized (request : Request) (model : String) : Prop :=
  ∃ fields, request.json = some (.obj fields) ∧ (Json.obj fields).field "model" = some (.str model) ∧ OverrideFree fields

variable {digest : List (Option String) → String} {call : Call} {target : AuthorizedTarget} {attempt : Attempt} {events : List BodyEvent}

structure Authorized (digest : List (Option String) → String) (call : Call) (target : AuthorizedTarget) : Prop where
  row : ∃ current, call.getAccount = .ok (some current) ∧ current.id = call.account.id ∧ current.disabled = false ∧
    target.provider = current.provider ∧ target.scope = modelPermissionScope digest current ∧
    (call.route.maintenance = false → call.excluded = false ∧
      (∃ permissions, call.permissions current = .ok permissions ∧
        isModelPermitted permissions current target.upstreamModel call.route.rule = true) ∧
      ∀ id ∈ Call.suppressionIds current target.upstreamModel, call.isModelSuppressed id = .ok false)

theorem bindOk {α β : Type} {x} {f : α → Except Thrown β} {b} (run : x >>= f = .ok b) : ∃ a, x = .ok a ∧ f a = .ok b := by
  cases x with
  | error e => cases run
  | ok a => exact ⟨a,rfl,run⟩

theorem required {holds} {otherwise : String} {u} (run : require holds otherwise = .ok u) : holds = true := by
  unfold require at run
  split at run
  · assumption
  · cases run

theorem layerInner {fields extra : List (String × Json)} (nested : (Json.obj fields).field "extra_body" = some (.obj extra)) (n : Nat) :
    layer fields (n + 1) = layer extra n := by
  induction n with
  | zero => simp [layer,nested]
  | succ n ih => rw [layer,ih,layer]

theorem rejectPassed {fields : List (String × Json)} (passed : rejectModelSwitchFields fields = .ok ()) : OverrideFree fields := by
  fun_induction rejectModelSwitchFields fields with
  | case1 => cases passed
  | case2 => cases passed
  | case3 fields free extra nested unmodelled ih =>
    intro n inner here
    cases n with
    | zero =>
      cases here
      exact ⟨by simpa using free,fun positive => absurd positive (Nat.lt_irrefl 0)⟩
    | succ n =>
      rw [layerInner nested] at here
      obtain ⟨deep,model⟩ := ih passed n inner here
      refine ⟨deep,fun _ => ?_⟩
      cases n with
      | zero =>
        cases here
        simpa using unmodelled
      | succ n => exact model (Nat.succ_pos n)
  | case4 fields free other =>
    intro n inner here
    cases n with
    | zero =>
      cases here
      exact ⟨by simpa using free,fun positive => absurd positive (Nat.lt_irrefl 0)⟩
    | succ n =>
      have bottom : ∀ n, layer fields (n + 1) = none := by
        intro n
        induction n with
        | zero =>
          rw [layer,layer]
          split
          · rename_i outer found
            cases found
            split
            · rename_i extra nested
              exact absurd nested (other extra)
            · rfl
          · rfl
        | succ n ih => rw [layer,ih]
      rw [bottom] at here
      cases here

theorem enforced {request : Request} {expected model} (run : enforceOutgoingModel request expected = .ok model) :
    model = expected ∧ Serialized request expected := by
  unfold enforceOutgoingModel at run
  split at run
  · cases run
  · rename_i fields parsed
    obtain ⟨passed,free,run⟩ := bindOk run
    split at run
    · rename_i sent found
      split at run
      · rename_i same
        cases run
        exact ⟨rfl,fields,parsed,same ▸ found,rejectPassed free⟩
      · cases run
    · cases run
  · cases run

theorem unsuppressed {ids : List String} (run : call.isModelSuppressedFor ids = .ok false) : ∀ id ∈ ids, call.isModelSuppressed id = .ok false := by
  induction ids with
  | nil =>
    intro id absent
    cases absent
  | cons first rest ih =>
    obtain ⟨suppressed,answer,run⟩ := bindOk run
    cases suppressed with
    | true => cases run
    | false =>
      intro id here
      obtain rfl | later := List.mem_cons.mp here
      · exact answer
      · exact ih run id later

theorem targetOf {account : Account} (found : call.route.target digest account = some target) :
    call.route.targets account.id = some target ∧ target.provider = account.provider ∧ target.scope = modelPermissionScope digest account := by
  obtain ⟨held,same⟩ := Option.filter_eq_some_iff.mp found
  simp only [Bool.and_eq_true,decide_eq_true_eq] at same
  exact ⟨held,same⟩

theorem permitted {current : Account} (fresh : call.route.target digest current = some target) {u}
    (run : call.permit digest target current = .ok u) (kept : call.route.maintenance = false) :
    call.excluded = false ∧ (∃ permissions, call.permissions current = .ok permissions ∧
        isModelPermitted permissions current target.upstreamModel call.route.rule = true) ∧
      ∀ id ∈ Call.suppressionIds current target.upstreamModel, call.isModelSuppressed id = .ok false := by
  obtain ⟨_,open_,run⟩ := bindOk run
  obtain ⟨permissions,read,run⟩ := bindOk run
  obtain ⟨_,permits,run⟩ := bindOk run
  obtain ⟨suppressed,free,run⟩ := bindOk run
  have unsuppressed' : suppressed = false := by simpa using required run
  have allowed := required permits
  rw [ResolvedRoute.permits,fresh,kept] at allowed
  refine ⟨by simpa using required open_,⟨permissions,?_,by simpa using allowed⟩,unsuppressed (unsuppressed' ▸ free)⟩
  unfold Call.currentPermissions at read
  split at read
  · cases read
  · exact read

theorem authorized (found : call.route.target digest call.account = some target) {u : Unit} (run : call.authorize digest target = .ok u) :
    Authorized digest call target := by
  obtain ⟨_,-,run⟩ := bindOk run
  obtain ⟨_,-,run⟩ := bindOk run
  obtain ⟨row,read,run⟩ := bindOk run
  obtain ⟨_,enabled,run⟩ := bindOk run
  cases row with
  | none => cases run
  | some current =>
    have same := call.rowOfId current read
    obtain ⟨_,known,run⟩ := bindOk run
    obtain ⟨held,fresh⟩ := Option.isSome_iff_exists.mp (required known)
    -- both rows are of one id, so both name the same target of the frozen route
    have one : held = target := by
      have first := (targetOf found).1
      have again := (targetOf fresh).1
      rw [same,first] at again
      exact (Option.some.inj again).symm
    subst one
    obtain ⟨-,provider,scope⟩ := targetOf fresh
    refine ⟨current,read,same,by simpa using required enabled,provider,scope,?_⟩
    intro kept
    rw [kept] at run
    exact permitted fresh run kept

def Call.Over (digest : List (Option String) → String) (call : Call) (events : List BodyEvent) : Prop :=
  match (call.sendAuthorizedRequest digest).2 with
  | .observed _ response => response.body = false ∨ ∃ event ∈ events, event.ending.isSome = true
  | _ => True

def Entry.Closing : Entry → Prop
  | .quotaEnded | .suppressModel _ | .finishAttempt _ _ _ _ => True
  | _ => False

def Entry.isFinish : Entry → Bool
  | .finishAttempt _ _ _ _ => true
  | _ => false

structure Closes (call : Call) (attempt : Attempt) (tail : List Entry) : Prop where
  quota : call.usesQuota attempt = true → .quotaEnded ∈ tail
  row : (∃ entry ∈ tail, entry.isFinish = true) ∨ .suppressModel false ∈ tail

def Call.opened (call : Call) (attempt : Attempt) : List Entry :=
  .recordAttempt attempt true::if call.usesQuota attempt then [.quotaBegun] else []

def Call.send (call : Call) : Entry := if call.transport then .transport else .makeProxyRequest

inductive Lived (digest : List (Option String) → String) (call : Call) (events : List BodyEvent) : List Entry → Prop where
  | unsent {trace} (rows : ∀ entry ∈ trace, ∃ attempt committed, entry = .recordAttempt attempt committed ∧
      (committed = true → attempt.finished = true)) : Lived digest call events trace
  | sent {target attempt tail} (found : call.route.target digest call.account = some target) (authorized : Authorized digest call target)
      (classified : call.classify target = .ok attempt) (closing : ∀ entry ∈ tail, entry.Closing)
      (closes : call.Over digest events → Closes call attempt tail) : Lived digest call events (call.opened attempt ++ call.send::tail)

theorem quotaEndCloses {begun : Bool} : (∀ entry ∈ endQuotaUse begun, entry.Closing) ∧ (begun = true → .quotaEnded ∈ endQuotaUse begun) := by
  cases begun with
  | false => exact ⟨(fun _ absent => by cases absent),fun same => by cases same⟩
  | true =>
    refine ⟨fun entry here => ?_,fun _ => List.mem_singleton_self _⟩
    rw [List.mem_singleton.mp here]
    trivial

theorem closesBy {last : List Entry} (closing : ∀ entry ∈ last, entry.Closing)
    (row : (∃ entry ∈ last, entry.isFinish = true) ∨ .suppressModel false ∈ last) :
    (∀ entry ∈ endQuotaUse (call.usesQuota attempt) ++ last, entry.Closing) ∧ Closes call attempt (endQuotaUse (call.usesQuota attempt) ++ last) := by
  refine ⟨?_,fun quota => List.mem_append_left _ (quotaEndCloses.2 quota),?_⟩
  · intro entry here
    obtain first | later := List.mem_append.mp here
    · exact quotaEndCloses.1 entry first
    · exact closing entry later
  · obtain ⟨entry,here,finish⟩ | failed := row
    · exact .inl ⟨entry,List.mem_append_right _ here,finish⟩
    · exact .inr (List.mem_append_right _ failed)

theorem finishCloses {response} {inspected : Inspected} {error} :
    (∀ entry ∈ call.finish attempt response inspected error, entry.Closing) ∧
      Closes call attempt (call.finish attempt response inspected error) := by
  unfold Call.finish
  extract_lets error ended finished
  split
  · exact closesBy (by simp [Entry.Closing]) (.inl ⟨_,List.mem_singleton_self _,rfl⟩)
  · split
    · split
      · exact closesBy (by simp [Entry.Closing,finished]) (.inl ⟨finished,by simp,rfl⟩)
      · exact closesBy (by simp [Entry.Closing]) (.inr (List.mem_singleton_self _))
    · exact closesBy (by simp [Entry.Closing,finished]) (.inl ⟨finished,List.mem_singleton_self _,rfl⟩)

theorem observeCloses {response : Response} {seen} :
    (∀ entry ∈ call.observe attempt response seen events, entry.Closing) ∧
      ((∃ event ∈ events, event.ending.isSome = true) → Closes call attempt (call.observe attempt response seen events)) := by
  induction events generalizing seen with
  | nil =>
    refine ⟨fun _ absent => ?_,?_⟩
    · cases absent
    · intro ⟨_,absent,_⟩
      cases absent
  | cons event rest ih =>
    cases event with
    | chunk bytes =>
      refine ⟨ih.1,fun finished => ih.2 ?_⟩
      obtain ⟨event,here,finished⟩ := finished
      obtain rfl | later := List.mem_cons.mp here
      · cases finished
      · exact ⟨event,later,finished⟩
    | _ => exact ⟨finishCloses.1,fun _ => finishCloses.2⟩

theorem caughtCloses {error} {answered : Option Response} {before} :
    ∃ tail, call.caught attempt error true answered before = before ++ tail ∧ (∀ entry ∈ tail, entry.Closing) ∧ Closes call attempt tail := by
  have trace : call.caught attempt error true answered before = before ++ (endQuotaUse (call.usesQuota attempt) ++
      [.finishAttempt (Call.verdict error answered).1 (some (Call.verdict error answered).2) none (committed call.finishAttempt)]) := by
    rw [Call.caught,if_pos rfl,List.append_assoc]
  exact ⟨_,trace,closesBy (by simp [Entry.Closing]) (.inl ⟨_,List.mem_singleton_self _,rfl⟩)⟩

theorem lived : Lived digest call events (call.life digest events) := by
  cases found : call.route.target digest call.account with
  | none =>
    have life : call.life digest events = [] := by simp [Call.life,Call.sendAuthorizedRequest,found]
    rw [life]
    exact .unsent fun entry absent => by cases absent
  | some target =>
    cases checked : call.authorize digest target >>= fun _ => call.classify target with
    | error error =>
      have life : call.life digest events = call.caught (call.begin target) error false none [] := by
        simp [Call.life,Call.sendAuthorizedRequest,found,checked]
      rw [life]
      refine .unsent fun entry here => ?_
      rw [Call.caught,if_neg Bool.false_ne_true,List.nil_append,List.mem_singleton] at here
      exact ⟨_,_,here,fun _ => rfl⟩
    | ok attempt =>
      obtain ⟨_,allowed,classified⟩ := bindOk checked
      have authorized := authorized found allowed
      have sent : ∀ {tail}, call.life digest events = call.opened attempt ++ [call.send] ++ tail → (∀ entry ∈ tail, entry.Closing) →
          (call.Over digest events → Closes call attempt tail) → Lived digest call events (call.life digest events) := by
        intro tail life closing closes
        rw [life,List.append_assoc]
        exact .sent found authorized classified closing closes
      cases written : call.recordAttempt attempt with
      | error error =>
        have life : call.life digest events = call.caught attempt error false none [.recordAttempt attempt false] := by
          simp [Call.life,Call.sendAuthorizedRequest,found,checked,written]
        rw [life]
        refine .unsent fun entry here => ?_
        obtain first | last := List.mem_append.mp here
        · exact ⟨_,_,List.mem_singleton.mp first,fun done => by cases done⟩
        · exact ⟨_,_,List.mem_singleton.mp last,fun _ => rfl⟩
      | ok =>
        cases headed : call.head with
        | error error =>
          obtain ⟨tail,trace,closing,closes⟩ : ∃ tail, call.caught attempt error true none (call.opened attempt ++ [call.send]) =
              (call.opened attempt ++ [call.send]) ++ tail ∧ (∀ entry ∈ tail, entry.Closing) ∧ Closes call attempt tail := caughtCloses
          refine sent ?_ closing fun _ => closes
          rw [← trace]
          simp [Call.life,Call.sendAuthorizedRequest,found,checked,written,headed,Call.opened,Call.send]
        | ok head =>
          cases prepared : call.prepareResponse head with
          | error error =>
            obtain ⟨tail,trace,closing,closes⟩ : ∃ tail, call.caught attempt error true (some head) (call.opened attempt ++ [call.send]) =
                (call.opened attempt ++ [call.send]) ++ tail ∧ (∀ entry ∈ tail, entry.Closing) ∧ Closes call attempt tail := caughtCloses
            refine sent ?_ closing fun _ => closes
            rw [← trace]
            simp [Call.life,Call.sendAuthorizedRequest,found,checked,written,headed,prepared,Call.opened,Call.send]
          | ok response =>
            by_cases kind : attempt.kind = .upstreamSend
            · have ran : call.sendAuthorizedRequest digest = (call.opened attempt ++ [call.send],.observed attempt response) := by
                simp [Call.sendAuthorizedRequest,found,checked,written,headed,prepared,kind,Call.opened,Call.send]
              cases body : response.body with
              | false =>
                have life : call.life digest events = (call.opened attempt ++ [call.send]) ++
                    call.finish attempt response (call.inspect []) none := by
                  rw [Call.life,ran]
                  simp [body]
                exact sent life finishCloses.1 fun _ => finishCloses.2
              | true =>
                have life : call.life digest events = (call.opened attempt ++ [call.send]) ++ call.observe attempt response [] events := by
                  rw [Call.life,ran]
                  simp [body]
                refine sent life observeCloses.1 fun ended => observeCloses.2 ?_
                rw [Call.Over,ran] at ended
                simpa [body] using ended
            · have quotaless : call.usesQuota attempt = false := by simp [Call.usesQuota,kind]
              have life : call.life digest events = (call.opened attempt ++ [call.send]) ++
                  [.finishAttempt response.status (call.localError response) none (committed call.finishAttempt)] := by
                cases finished : call.finishAttempt with
                | ok => simp [Call.life,Call.sendAuthorizedRequest,found,checked,written,headed,prepared,kind,finished,Call.opened,Call.send]
                | error => simp [Call.life,Call.sendAuthorizedRequest,found,checked,written,headed,prepared,kind,finished,Call.opened,Call.send]
              refine sent life (by simp [Entry.Closing]) fun _ => ⟨fun quota => ?_,.inl ⟨_,List.mem_singleton_self _,rfl⟩⟩
              rw [quotaless] at quota
              cases quota

variable {before after tail : List Entry} {entry : Entry}

theorem sendLast (closing : ∀ entry ∈ tail, entry.Closing) (here : entry ∈ call.send::tail) :
    entry ≠ .quotaBegun ∧ ∀ attempt, entry ≠ .recordAttempt attempt true := by
  obtain rfl | later := List.mem_cons.mp here
  · unfold Call.send
    split <;> exact ⟨(fun same => by cases same),fun _ same => by cases same⟩
  · have closes := closing entry later
    constructor
    · rintro rfl
      exact closes
    · rintro attempt rfl
      exact closes

theorem quotaEnded (ended : call.Over digest events) (split : call.life digest events = before ++ .quotaBegun::after) : .quotaEnded ∈ after := by
  have entries : Lived digest call events (call.life digest events) := lived
  rw [split] at entries
  generalize life : before ++ Entry.quotaBegun::after = trace at entries
  cases entries with
  | unsent rows =>
    obtain ⟨attempt,committed,same,-⟩ := rows .quotaBegun (by rw [← life]; simp)
    cases same
  | @sent target attempt tail found authorized classified closing closes =>
    have begins : Entry.quotaBegun ∉ call.send::tail := fun here => (sendLast closing here).1 rfl
    rw [Call.opened] at life
    split at life
    · rename_i quota
      cases before with
      | nil => cases List.head_eq_of_cons_eq life
      | cons first rest =>
        have life := List.tail_eq_of_cons_eq life
        cases rest with
        | nil =>
          rw [List.tail_eq_of_cons_eq life]
          exact .tail _ ((closes ended).quota quota)
        | cons second rest =>
          have life : rest ++ .quotaBegun::after = call.send::tail := List.tail_eq_of_cons_eq life
          exact absurd (by rw [← life]; simp) begins
    · cases before with
      | nil => cases List.head_eq_of_cons_eq life
      | cons first rest =>
        have life : rest ++ .quotaBegun::after = call.send::tail := List.tail_eq_of_cons_eq life
        exact absurd (by rw [← life]; simp) begins

end Clankermux.RoutingDispatch
