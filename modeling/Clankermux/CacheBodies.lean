import Clankermux.CacheBodyStore
import Clankermux.History

/-! Whose bodies reach the sessions' store. A request tells it once, after it has been forwarded. What
it tells is of the account that served, and nothing is left of the request, in the runs that stay
clear of two situations: an attempt that does not stage is forwarded over the entry of an earlier
one, and a terminal that does not discard ends a request that has one. -/
namespace Clankermux.CacheBodyStore
open InsertionMap History

def Call.Follows (request : Request) (attempt : Attempt) : Call → Prop
  | .register accountId _ body headers _ _ _ _ =>
    accountId = attempt.account.id ∧ body = attempt.body ∧ headers = sanitizeHeadersForReplay request.headers
  | .touchActivity accountId _ _ _ => accountId = attempt.account.id

def CalledOnce (trace : List Happened) : Prop :=
  ∀ newer older id call, trace = newer ++ .called id call::older → ∀ other, .called id other ∉ older

def ForwardedOnce (trace : List Happened) : Prop :=
  ∀ newer older id request attempt, trace = newer ++ .forwarded id request attempt::older → ∀ its other, .forwarded id its other ∉ older

def Followed (trace : List Happened) : Prop :=
  ∀ newer older id call, trace = newer ++ .called id call::older →
    ∃ request attempt, .forwarded id request attempt ∈ older ∧ call.Follows request attempt

def Cleared (w : World) : Prop := ∀ id request, get w.requests id = some ⟨request,.ended⟩ → get w.store.staging id = none

def clear (w : World) (e : Event) : Bool :=
  match e.action with
  | .forward id _ _ =>
    match get w.requests id with
    | some ⟨_,.attempting _ attempt⟩ => attempt.staged || attempt.reprobe || (get w.store.staging id).isNone
    | _ => true
  | .leave id exit =>
    match get w.requests id with
    | some ⟨_,.waiting place⟩ => leave place exit != some (false,none) || (get w.store.staging id).isNone
    | _ => true
  | _ => true

section Store
variable {s : Store} {now : Int} {id other : String} {account : Account} {body : Body} {headers : Headers} {path : String}
  {sessionKey : Option String} {staged : Staged}

def Store.Within (after s : Store) : Prop := List.Sublist after.staging s.staging

theorem sweepWithin : (s.sweepStaleStaging now).Within s := List.filter_sublist

theorem capWithin : s.enforceStagingCap.Within s := by
  simp only [Store.Within,Store.enforceStagingCap]
  exact List.drop_sublist _ _

theorem discardWithin : (s.discardStaged id).Within s := deleteSublist

theorem enabledWithin (enabled : Bool) : (s.setEnabled enabled).Within s := by
  unfold Store.setEnabled Store.Within
  split_ifs
  · exact List.Sublist.refl _
  · exact List.nil_sublist _

theorem Store.Within.nodup {after : Store} (within : after.Within s) (unique : (keys s.staging).Nodup) : (keys after.staging).Nodup :=
  nodupSublist unique within

theorem Store.Within.get {after : Store} (within : after.Within s) (unique : (keys s.staging).Nodup)
    (found : InsertionMap.get after.staging id = some staged) : InsertionMap.get s.staging id = some staged := getSublist unique within found

theorem stageNodup (unique : (keys s.staging).Nodup) :
    (keys (s.stageRequest now id account body headers path sessionKey).staging).Nodup := by
  unfold Store.stageRequest
  split_ifs
  · exact capWithin.nodup (sweepWithin.nodup (nodupSet unique))
  · exact unique

theorem stageGet (unique : (keys s.staging).Nodup)
    (found : get (s.stageRequest now id account body headers path sessionKey).staging other = some staged) :
    get s.staging other = some staged ∧ (other = id → s.stages account body path = false) ∨
      other = id ∧ s.stages account body path = true ∧
        staged = ⟨account.id,sessionKey,⟨body,sanitizeHeadersForReplay headers,path,now⟩⟩ := by
  unfold Store.stageRequest at found
  split_ifs at found with admitted
  · have written := sweepWithin.get (nodupSet unique) (capWithin.get (sweepWithin.nodup (nodupSet unique)) found)
    by_cases same : other = id
    · subst same
      rw [getSetSelf] at written
      exact .inr ⟨rfl,admitted,(Option.some.inj written).symm⟩
    · rw [getSetOther same] at written
      exact .inl ⟨written,fun its => absurd its same⟩
  · exact .inl ⟨found,fun _ => by simpa using admitted⟩

theorem stagesPath (admitted : s.stages account body path = true) : path = CACHEABLE_PATH ∧ isBridgeableProvider account.provider = true := by
  simp only [Store.stages,Bool.and_eq_true,beq_iff_eq] at admitted
  exact ⟨admitted.1.2,admitted.1.1.2⟩

theorem callFollows {request attempt call creation read model}
    (account : staged.accountId = attempt.account.id) (body : staged.entry.body = attempt.body)
    (headers : staged.entry.headers = sanitizeHeadersForReplay request.headers)
    (told : callFor now staged creation read model = some call) : call.Follows request attempt := by
  unfold callFor at told
  simp only at told
  split_ifs at told
  · cases told
    exact ⟨account,body,headers⟩
  · cases told
    exact account

end Store

structure Belongs (request : Request) (staged : Staged) : Prop where
  path : request.path = CACHEABLE_PATH
  probe : isTrustedProbe request = false
  direct : request.viaSdkBridge = false
  headers : staged.entry.headers = sanitizeHeadersForReplay request.headers

def Names (staged : Staged) (account : Account) (body : Body) : Prop := staged.accountId = account.id ∧ staged.entry.body = body

def Place.Fits (staged : Staged) : Place → Prop
  | .ingested | .zeroAccounts | .preflight _ _ | .burst _ _ true => False
  | .preflighted account body | .burst account body false => Names staged account body
  | _ => True

def Phase.Fits (staged : Staged) : Phase → Prop
  | .waiting place => place.Fits staged
  | .attempting place attempt => place.Fits staged ∧ (attempt.staged = true ∨ attempt.reprobe = true → Names staged attempt.account attempt.body)
  | .bridging _ => False
  | .forwarded attempt => Names staged attempt.account attempt.body
  | .ended => False

structure Place.Suits (place : Place) (account : Account) (body : Body) (reprobe : Bool) : Prop where
  fresh : reprobe = false → ∀ staged, Names staged account body → place.Fits staged
  own : reprobe = true → ∀ staged, place.Fits staged → Names staged account body

def Phase.Sound : Phase → Prop
  | .attempting place attempt => place.Suits attempt.account attempt.body attempt.reprobe
  | _ => True

structure Moves (w : World) (id : String) (request : Request) (phase : Phase) (added : List Happened) (after : World) : Prop where
  nodup : (keys w.store.staging).Nodup → (keys after.store.staging).Nodup
  others : ∀ other staged, other ≠ id → get after.store.staging other = some staged → get w.store.staging other = some staged
  requests : after.requests = set w.requests id ⟨request,phase⟩
  trace : after.trace = added ++ w.trace

def Phase.closed : Phase → Bool
  | .forwarded _ | .ended => true
  | _ => false

def Phase.unsent : Phase → Bool
  | .forwarded _ => false
  | _ => true

inductive Adds (id : String) (request : Request) : Phase → Phase → List Happened → Prop where
  | quiet {before phase} (open_ : before.closed = false) (unsent : phase.unsent = true) : Adds id request before phase []
  | forwarded {before phase attempt} (open_ : before.closed = false) (closes : phase = .forwarded attempt ∨ phase = .ended) :
      Adds id request before phase [.forwarded id request attempt]
  | silent {attempt} : Adds id request (.forwarded attempt) .ended []
  | called {attempt} (call : Call) : Adds id request (.forwarded attempt) .ended [.called id call]

def Fitting (w : World) (id : String) (request : Request) (phase : Phase) : Prop :=
  ∀ staged, get w.store.staging id = some staged → Belongs request staged ∧ phase.Fits staged

structure Stepped (safe : Prop) (w : World) (id : String) (request : Request) (before phase : Phase) (added : List Happened) (after : World) :
    Prop where
  moves : Moves w id request phase added after
  adds : Adds id request before phase added
  sound : before.Sound → phase.Sound
  belongs : (∀ staged, get w.store.staging id = some staged → Belongs request staged) →
    ∀ staged, get after.store.staging id = some staged → Belongs request staged
  fits : safe → Fitting w id request before → ∀ staged, get after.store.staging id = some staged → phase.Fits staged
  follows : Fitting w id request before → ∀ call, .called id call ∈ added →
    ∃ attempt, before = .forwarded attempt ∧ call.Follows request attempt

section Steps
variable {safe : Prop} {w after : World} {now : Int} {id : String} {request : Request} {before phase : Phase} {place : Place}

theorem movesWithin {store trace added} (within : store.Within w.store) (unique : (keys w.store.staging).Nodup)
    (its : trace = added ++ w.trace) :
    Moves w id request phase added ⟨store,set w.requests id ⟨request,phase⟩,trace⟩ :=
  ⟨within.nodup,fun _ _ _ found => within.get unique found,rfl,its⟩

theorem steppedDiscard (unique : (keys w.store.staging).Nodup) (open_ : before.closed = false) (unsent : phase.unsent = true) (sound : phase.Sound) :
    Stepped safe w id request before phase [] ((w.discard id).enter id request phase) := by
  have gone : ∀ staged, get (w.discard id).store.staging id ≠ some staged := by simp [World.discard,Store.discardStaged]
  exact ⟨movesWithin discardWithin unique rfl,.quiet open_ unsent,fun _ => sound,fun _ staged found => absurd found (gone staged),
    fun _ _ staged found => absurd found (gone staged),fun _ _ inside => absurd inside List.not_mem_nil⟩

theorem steppedEnter (unique : (keys w.store.staging).Nodup) (open_ : before.closed = false) (unsent : phase.unsent = true) (sound : phase.Sound)
    (fits : safe → ∀ staged, get w.store.staging id = some staged → Belongs request staged → before.Fits staged → phase.Fits staged) :
    Stepped safe w id request before phase [] (w.enter id request phase) :=
  ⟨movesWithin (List.Sublist.refl _) unique rfl,.quiet open_ unsent,fun _ => sound,fun belongs => belongs,
    fun safe fitting staged found => fits safe staged found (fitting staged found).1 (fitting staged found).2,
    fun _ _ inside => absurd inside List.not_mem_nil⟩

theorem steppedAttempt {account body reprobe} (unique : (keys w.store.staging).Nodup)
    (open_ : before.closed = false) (keeps : ∀ staged, before.Fits staged → place.Fits staged) (suits : place.Suits account body reprobe) :
    ∃ phase, Stepped safe w id request before phase [] (proxyWithAccount w now id request place account body reprobe) := by
  unfold proxyWithAccount
  split_ifs with bridged aside
  · refine ⟨.bridging place,steppedEnter unique open_ rfl trivial fun _ staged _ belongs _ => ?_⟩
    have direct := belongs.direct
    simp only [isSdkBridgeAttempt,Bool.and_eq_true] at bridged
    cases direct.symm.trans bridged.1
  · refine ⟨.attempting place ⟨account,body,reprobe,false⟩,steppedEnter unique open_ rfl suits fun _ staged _ _ fits => ⟨keeps staged fits,?_⟩⟩
    rintro (impossible | probing)
    · cases impossible
    · exact suits.own probing staged (keeps staged fits)
  · rw [Bool.or_eq_true,not_or,Bool.not_eq_true,Bool.not_eq_true] at aside
    refine ⟨_,⟨stageNodup,?_,rfl,rfl⟩,.quiet open_ rfl,fun _ => suits,?_,?_,fun _ _ inside => absurd inside List.not_mem_nil⟩
    · intro other staged ne found
      rcases stageGet unique found with ⟨old,-⟩ | ⟨same,-,-⟩
      · exact old
      · exact absurd same ne
    · intro belongs staged found
      rcases stageGet unique found with ⟨old,-⟩ | ⟨-,admitted,rfl⟩
      · exact belongs staged old
      · obtain ⟨path,bridgeable⟩ := stagesPath admitted
        refine ⟨path,aside.1,?_,rfl⟩
        have official : isOfficialAnthropicProvider account.provider = true := by
          simp only [isBridgeableProvider,PREMIUM_CACHE_PROVIDERS,List.contains_cons,List.contains_nil,Bool.or_false] at bridgeable
          simp [isOfficialAnthropicProvider,bridgeable]
        simpa [isSdkBridgeAttempt,official] using bridged
    · intro _ fitting staged found
      rcases stageGet unique found with ⟨old,refused⟩ | ⟨-,admitted,rfl⟩
      · refine ⟨keeps staged (fitting staged old).2,?_⟩
        rintro (staging | probing)
        · cases (refused rfl).symm.trans staging
        · cases aside.2.symm.trans probing
      · exact ⟨suits.fresh aside.2 _ ⟨rfl,rfl⟩,fun _ => ⟨rfl,rfl⟩⟩

theorem leaveFits {exit next staged} (left : leave place exit = some (false,some next))
    (fits : place.Fits staged) : next.Fits staged := by
  unfold leave at left
  split at left
  all_goals first
    | cases left; trivial
    | exact fits.elim
    | simp at left

theorem steppedLeave {exit : Exit} (unique : (keys w.store.staging).Nodup)
    (spared : safe → leave place exit = some (false,none) → get w.store.staging id = none)
    (left : leavePlace w id request place exit = some after) :
    ∃ phase, Stepped safe w id request (.waiting place) phase [] after := by
  obtain ⟨⟨discards,next⟩,exits,rfl⟩ := Option.map_eq_some_iff.mp left
  cases discards with
  | true =>
    cases next with
    | none => exact ⟨_,steppedDiscard unique rfl rfl trivial⟩
    | some next => exact ⟨_,steppedDiscard unique rfl rfl trivial⟩
  | false =>
    cases next with
    | none => exact ⟨_,steppedEnter unique rfl rfl trivial fun safe _ found => nomatch found.symm.trans (spared safe exits)⟩
    | some next => exact ⟨_,steppedEnter unique rfl rfl trivial fun _ _ _ _ fits => leaveFits exits fits⟩

theorem Belongs.recorded {staged : Staged} (belongs : Belongs request staged) (countsLocally : Bool) (responseStatus : Nat) :
    shouldRecordRequest request countsLocally responseStatus = true := by
  have probe : isInternalProbe request = false := by
    have untrusted := belongs.probe
    cases inner : request.internal with
    | false => simp [isInternalProbe,inner]
    | true =>
      simp only [isTrustedProbe,isSyntheticInternalRequest,inner,Bool.true_and,Bool.or_eq_false_iff] at untrusted
      have silent : ∀ name, (get request.headers name).any (· ≠ "") = false → (get request.headers name == some "true") = false := by
        intro name quiet
        cases found : get request.headers name with
        | none => rfl
        | some value =>
          have empty : value = "" := by simpa [found] using quiet
          simp [empty]
      simp [isInternalProbe,silent _ untrusted.1,silent _ untrusted.2]
  have counted : (request.path == "/v1/messages/count_tokens") = false := by rw [belongs.path]; decide
  have known : "/.well-known/".toList.isPrefixOf request.path.toList = false := by rw [belongs.path]; decide
  simp only [shouldRecordRequest,probe,counted,known,Bool.and_false,Bool.false_and,Bool.false_eq_true,if_false,Bool.not_false]

theorem steppedForward {attempt countsLocally responseStatus} (unique : (keys w.store.staging).Nodup)
    (own : safe → attempt.staged = true ∨ attempt.reprobe = true ∨ get w.store.staging id = none) :
    ∃ phase, Stepped safe w id request (.attempting place attempt) phase [.forwarded id request attempt]
      ((w.record (.forwarded id request attempt)).enter id request
        (if shouldRecordRequest request countsLocally responseStatus then .forwarded attempt else .ended)) := by
  refine ⟨_,⟨movesWithin (List.Sublist.refl _) unique rfl,.forwarded rfl ?_,fun _ => ?_,fun belongs => belongs,fun safe fitting staged found => ?_,
    fun _ call inside => nomatch List.mem_singleton.mp inside⟩⟩
  · split
    · exact .inl rfl
    · exact .inr rfl
  · split <;> trivial
  · obtain ⟨belongs,-,names⟩ := fitting staged found
    rw [if_pos (belongs.recorded countsLocally responseStatus)]
    rcases own safe with staging | probing | none_
    · exact names (.inl staging)
    · exact names (.inr probing)
    · cases found.symm.trans none_

theorem steppedFinalize {attempt : Attempt} (unique : (keys w.store.staging).Nodup) (summary : Option Summary) :
    ∃ added, Stepped safe w id request (.forwarded attempt) .ended added (finalize w now id request summary) := by
  have gone : ∀ staged, get (w.store.discardStaged id).staging id ≠ some staged := by simp [Store.discardStaged]
  have uncalled : ∃ added, Stepped safe w id request (.forwarded attempt) .ended added ((w.discard id).enter id request .ended) :=
    ⟨[],movesWithin discardWithin unique rfl,.silent,fun _ => trivial,fun _ staged found => absurd found (gone staged),
      fun _ _ staged found => absurd found (gone staged),fun _ _ inside => absurd inside List.not_mem_nil⟩
  cases summary with
  | none => exact uncalled
  | some summary =>
    unfold finalize
    simp only [Store.onSummary]
    cases told : (get w.store.staging id).bind
        (callFor now · (summary.usageCacheCreationInputTokens.or summary.cacheCreationInputTokens) summary.usageCacheReadInputTokens summary.model) with
    | none => exact uncalled
    | some call =>
      obtain ⟨staged,found,told⟩ := Option.bind_eq_some_iff.mp told
      refine ⟨[.called id call],movesWithin discardWithin unique rfl,.called call,fun _ => trivial,fun _ staged found => absurd found (gone staged),
        fun _ _ staged found => absurd found (gone staged),fun fitting other inside => ⟨attempt,rfl,?_⟩⟩
      cases List.mem_singleton.mp inside
      obtain ⟨belongs,account,body⟩ := fitting staged found
      exact callFollows account body belongs.headers told

theorem attemptSuits {account body reprobe} (starts : place.attempt account body = some reprobe) :
    place.after.Suits account body reprobe ∧ ∀ staged, place.Fits staged → place.after.Fits staged := by
  unfold Place.attempt at starts
  split at starts
  · split_ifs at starts with its
    obtain ⟨rfl,rfl⟩ := its
    cases starts
    exact ⟨⟨fun _ _ names => names,fun impossible => nomatch impossible⟩,fun _ fits => fits.elim⟩
  · rename_i held body zeroAccounts
    split_ifs at starts with its
    obtain ⟨rfl,rfl⟩ := its
    cases starts
    refine ⟨⟨fun impossible => (nomatch impossible),fun _ staged fits => ?_⟩,fun _ fits => fits⟩
    cases zeroAccounts with
    | true => exact fits.elim
    | false => exact fits
  all_goals cases starts
  all_goals exact ⟨⟨fun _ _ _ => trivial,fun impossible => nomatch impossible⟩,fun _ fits => fits⟩

theorem actStepped {action : Action} (unique : (keys w.store.staging).Nodup) (sound : before.Sound) (mine : action.requestId = some id)
    (at_ : get w.requests id = some ⟨request,before⟩) (done : act w now id request before action = some after) :
    ∃ phase added, Stepped (clear w ⟨now,action⟩ = true) w id request before phase added after := by
  unfold act at done
  split at done
  case h_1 place _ _ _ =>
    obtain ⟨reprobe,starts,rfl⟩ := Option.map_eq_some_iff.mp done
    obtain ⟨suits,keeps⟩ := attemptSuits starts
    have open_ : (Phase.waiting place).closed = false := rfl
    obtain ⟨phase,stepped⟩ := steppedAttempt unique open_ keeps suits
    exact ⟨phase,[],stepped⟩
  case h_2 place _ exit =>
    cases mine
    have spared : clear w ⟨now,.leave id exit⟩ = true → leave place exit = some (false,none) → get w.store.staging id = none := by
      intro safe exits
      simpa [clear,at_,exits] using safe
    obtain ⟨phase,stepped⟩ := steppedLeave unique spared done
    exact ⟨phase,[],stepped⟩
  case h_4 place attempt _ =>
    cases done
    have open_ : (Phase.attempting place attempt).closed = false := rfl
    obtain ⟨phase,stepped⟩ := steppedAttempt unique open_ (fun _ fits => And.left fits) sound
    exact ⟨phase,[],stepped⟩
  case h_7 place attempt _ countsLocally responseStatus =>
    cases done
    cases mine
    have own : clear w ⟨now,.forward id countsLocally responseStatus⟩ = true →
        attempt.staged = true ∨ attempt.reprobe = true ∨ get w.store.staging id = none := by
      intro safe
      simpa [clear,at_,or_assoc] using safe
    obtain ⟨phase,stepped⟩ := steppedForward unique own
    exact ⟨phase,_,stepped⟩
  case h_12 =>
    cases done
    obtain ⟨added,stepped⟩ := steppedFinalize unique _
    exact ⟨.ended,added,stepped⟩
  case h_13 => cases done
  all_goals
    cases done
    first
    | exact ⟨_,[],steppedDiscard unique rfl rfl trivial⟩
    | exact ⟨_,[],steppedEnter unique rfl rfl trivial fun _ _ _ _ fits => fits.1⟩
    | exact ⟨_,[],steppedEnter unique rfl rfl trivial fun _ _ _ _ fits => fits.elim⟩

end Steps

structure Base (w : World) : Prop where
  nodup : (keys w.store.staging).Nodup
  sound : ∀ id its, get w.requests id = some its → its.phase.Sound
  belongs : ∀ id staged, get w.store.staging id = some staged → ∃ its, get w.requests id = some its ∧ Belongs its.request staged
  called : ∀ id call, .called id call ∈ w.trace → ∃ request, get w.requests id = some ⟨request,.ended⟩
  forwarded : ∀ id request attempt, .forwarded id request attempt ∈ w.trace →
    get w.requests id = some ⟨request,.forwarded attempt⟩ ∨ get w.requests id = some ⟨request,.ended⟩
  calledOnce : CalledOnce w.trace
  forwardedOnce : ForwardedOnce w.trace

structure Follows (w : World) : Prop where
  fits : ∀ id its, get w.requests id = some its → Fitting w id its.request its.phase
  current : ∀ id request attempt, get w.requests id = some ⟨request,.forwarded attempt⟩ → .forwarded id request attempt ∈ w.trace
  followed : Followed w.trace

section Runs
variable {safe : Prop} {w after : World} {e : Event} {id : String} {request : Request} {before phase : Phase} {added : List Happened}

theorem Moves.getSelf (moves : Moves w id request phase added after) : get after.requests id = some ⟨request,phase⟩ := by
  rw [moves.requests,getSetSelf]

theorem Moves.getOther (moves : Moves w id request phase added after) {other : String} (ne : other ≠ id) :
    get after.requests other = get w.requests other := by
  rw [moves.requests,getSetOther ne]

theorem Adds.about (adds : Adds id request before phase added) {other : String} :
    (∀ call, .called other call ∈ added → other = id ∧ phase = .ended) ∧
    (∀ its attempt, .forwarded other its attempt ∈ added →
      other = id ∧ its = request ∧ before.closed = false ∧ (phase = .forwarded attempt ∨ phase = .ended)) := by
  cases adds with
  | quiet open_ => simp
  | silent => simp
  | forwarded open_ closes =>
    refine ⟨fun _ inside => (nomatch List.mem_singleton.mp inside),fun its attempt inside => ?_⟩
    cases List.mem_singleton.mp inside
    exact ⟨rfl,rfl,open_,closes⟩
  | called call =>
    refine ⟨fun other inside => ?_,fun _ _ inside => nomatch List.mem_singleton.mp inside⟩
    cases List.mem_singleton.mp inside
    exact ⟨rfl,rfl⟩

theorem Adds.running (adds : Adds id request before phase added) : before ≠ .ended ∧ (before.closed = true → phase = .ended) := by
  have open_ : before.closed = false → before ≠ .ended ∧ (before.closed = true → phase = .ended) := by
    intro open_
    cases before <;> simp_all [Phase.closed]
  cases adds with
  | quiet its => exact open_ its
  | forwarded its => exact open_ its
  | silent => simp
  | called => simp

theorem Adds.sent {attempt : Attempt} (adds : Adds id request before (.forwarded attempt) added) :
    .forwarded id request attempt ∈ added := by
  cases adds with
  | quiet _ unsent => cases unsent
  | forwarded _ closes =>
    rcases closes with same | same
    · cases same
      exact .head _
    · cases same

theorem CalledOnce.record {trace h} (once : CalledOnce trace)
    (first : ∀ id call, h = .called id call → ∀ other, .called id other ∉ trace) : CalledOnce (h::trace) := by
  intro newer older id call split
  rcases splitCons.mp split with ⟨-,same,rfl⟩ | ⟨rest,-,split⟩
  · exact first id call same
  · exact once rest older id call split

theorem ForwardedOnce.record {trace h} (once : ForwardedOnce trace)
    (first : ∀ id request attempt, h = .forwarded id request attempt → ∀ its other, .forwarded id its other ∉ trace) :
    ForwardedOnce (h::trace) := by
  intro newer older id request attempt split
  rcases splitCons.mp split with ⟨-,same,rfl⟩ | ⟨rest,-,split⟩
  · exact first id request attempt same
  · exact once rest older id request attempt split

theorem Followed.grow {trace : List Happened} (followed : Followed trace) (new : ∀ id call, .called id call ∈ added →
    ∃ request attempt, .forwarded id request attempt ∈ trace ∧ call.Follows request attempt) : Followed (added ++ trace) := by
  induction added with
  | nil => exact followed
  | cons h rest ih =>
    intro newer older id call split
    rcases splitCons.mp split with ⟨-,rfl,rfl⟩ | ⟨its,-,split⟩
    · obtain ⟨request,attempt,inside,told⟩ := new id call (.head _)
      exact ⟨request,attempt,List.mem_append_right _ inside,told⟩
    · exact ih (fun id call inside => new id call (.tail _ inside)) its older id call split

theorem Base.once (base : Base w) (at_ : get w.requests id = some ⟨request,before⟩) (adds : Adds id request before phase added) :
    CalledOnce (added ++ w.trace) ∧ ForwardedOnce (added ++ w.trace) := by
  have fresh : before.closed = false → ∀ its attempt, .forwarded id its attempt ∉ w.trace := by
    intro open_ its attempt inside
    rcases base.forwarded id its attempt inside with found | found
    all_goals
      cases at_.symm.trans found
      cases open_
  have uncalled : ∀ call, .called id call ∉ w.trace := by
    intro call inside
    obtain ⟨its,found⟩ := base.called id call inside
    cases at_.symm.trans found
    exact adds.running.1 rfl
  cases adds with
  | quiet => exact ⟨base.calledOnce,base.forwardedOnce⟩
  | silent => exact ⟨base.calledOnce,base.forwardedOnce⟩
  | forwarded open_ =>
    refine ⟨base.calledOnce.record (fun _ _ same => nomatch same),base.forwardedOnce.record fun other its attempt same => ?_⟩
    cases same
    exact fresh open_
  | called call =>
    refine ⟨base.calledOnce.record (fun other its same => ?_),base.forwardedOnce.record fun _ _ _ same => nomatch same⟩
    cases same
    exact uncalled

theorem Base.move (base : Base w) (at_ : get w.requests id = some ⟨request,before⟩)
    (stepped : Stepped safe w id request before phase added after) : Base after := by
  have moves := stepped.moves
  have running := stepped.adds.running
  refine ⟨moves.nodup base.nodup,?_,?_,?_,?_,moves.trace ▸ (base.once at_ stepped.adds).1,moves.trace ▸ (base.once at_ stepped.adds).2⟩
  · intro other its found
    by_cases same : other = id
    · subst same
      cases moves.getSelf.symm.trans found
      exact stepped.sound (base.sound _ _ at_)
    · exact base.sound other its ((moves.getOther same).symm.trans found)
  · intro other staged found
    by_cases same : other = id
    · subst same
      refine ⟨_,moves.getSelf,stepped.belongs (fun old here => ?_) staged found⟩
      obtain ⟨its,mine,belongs⟩ := base.belongs _ old here
      cases at_.symm.trans mine
      exact belongs
    · obtain ⟨its,mine,belongs⟩ := base.belongs other staged (moves.others other staged same found)
      exact ⟨its,(moves.getOther same).trans mine,belongs⟩
  · intro other call inside
    rw [moves.trace] at inside
    rcases List.mem_append.mp inside with new | old
    · obtain ⟨rfl,rfl⟩ := stepped.adds.about.1 call new
      exact ⟨request,moves.getSelf⟩
    · obtain ⟨its,found⟩ := base.called other call old
      have apart : other ≠ id := by
        rintro rfl
        cases at_.symm.trans found
        exact running.1 rfl
      exact ⟨its,(moves.getOther apart).trans found⟩
  · intro other its attempt inside
    rw [moves.trace] at inside
    rcases List.mem_append.mp inside with new | old
    · obtain ⟨rfl,rfl,-,rfl | rfl⟩ := stepped.adds.about.2 its attempt new
      · exact .inl moves.getSelf
      · exact .inr moves.getSelf
    · by_cases same : other = id
      · subst same
        rcases base.forwarded other its attempt old with found | found
        all_goals cases at_.symm.trans found
        · rw [← running.2 rfl]
          exact .inr moves.getSelf
        · exact absurd rfl running.1
      · rw [moves.getOther same]
        exact base.forwarded other its attempt old

theorem Follows.move (follows : Follows w) (at_ : get w.requests id = some ⟨request,before⟩)
    (stepped : Stepped safe w id request before phase added after) (spared : safe) : Follows after := by
  have moves := stepped.moves
  have fitting : Fitting w id request before := follows.fits id _ at_
  refine ⟨?_,?_,?_⟩
  · intro other its found staged here
    by_cases same : other = id
    · subst same
      cases moves.getSelf.symm.trans found
      exact ⟨stepped.belongs (fun old inside => (fitting old inside).1) staged here,stepped.fits spared fitting staged here⟩
    · exact follows.fits other its ((moves.getOther same).symm.trans found) staged (moves.others other staged same here)
  · intro other its attempt found
    rw [moves.trace]
    by_cases same : other = id
    · subst same
      cases moves.getSelf.symm.trans found
      exact List.mem_append_left _ stepped.adds.sent
    · exact List.mem_append_right _ (follows.current other its attempt ((moves.getOther same).symm.trans found))
  · rw [moves.trace]
    exact follows.followed.grow fun other call inside => by
      obtain ⟨rfl,rfl⟩ := stepped.adds.about.1 call inside
      obtain ⟨attempt,rfl,told⟩ := stepped.follows fitting call inside
      exact ⟨request,attempt,follows.current _ request attempt at_,told⟩

theorem Base.weaken (base : Base w) {store : Store} (within : store.Within w.store) : Base { w with store } :=
  { base with nodup := within.nodup base.nodup, belongs := fun id staged found => base.belongs id staged (within.get base.nodup found) }

theorem Follows.weaken (base : Base w) (follows : Follows w) {store : Store} (within : store.Within w.store) : Follows { w with store } :=
  ⟨fun id its found staged here => follows.fits id its found staged (within.get base.nodup here),follows.current,follows.followed⟩

theorem Base.arrive (base : Base w) (fresh : id ∉ keys w.requests) : Base (w.enter id request (.waiting .ingested)) := by
  have other : ∀ its known, get w.requests its = some known → get (set w.requests id ⟨request,.waiting .ingested⟩) its = some known := by
    intro its known found
    have apart : its ≠ id := fun same => fresh (same ▸ memKeysOfGet found)
    exact (getSetOther apart).trans found
  refine ⟨base.nodup,?_,?_,?_,?_,base.calledOnce,base.forwardedOnce⟩
  · intro its known found
    by_cases same : its = id
    · subst same
      cases getSetSelf.symm.trans found
      trivial
    · exact base.sound its known ((getSetOther same).symm.trans found)
  · intro its staged found
    obtain ⟨known,mine,belongs⟩ := base.belongs its staged found
    exact ⟨known,other its known mine,belongs⟩
  · intro its call inside
    obtain ⟨known,found⟩ := base.called its call inside
    exact ⟨known,other its _ found⟩
  · intro its known attempt inside
    exact (base.forwarded its known attempt inside).imp (other its _) (other its _)

theorem Follows.arrive (base : Base w) (follows : Follows w) (fresh : id ∉ keys w.requests) :
    Follows (w.enter id request (.waiting .ingested)) := by
  refine ⟨?_,?_,follows.followed⟩
  · intro its known found staged here
    obtain ⟨old,mine,-⟩ := base.belongs its staged here
    have apart : its ≠ id := fun same => fresh (same ▸ memKeysOfGet mine)
    exact follows.fits its known ((getSetOther apart).symm.trans found) staged here
  · intro its known attempt found
    by_cases same : its = id
    · subst same
      cases getSetSelf.symm.trans found
    · exact follows.current its known attempt ((getSetOther same).symm.trans found)

theorem stepKeeps (base : Base w) (stepped : step w e = some after) :
    Base after ∧ (clear w e = true → Follows w → Follows after) := by
  obtain ⟨now,action⟩ := e
  unfold step at stepped
  split at stepped
  · rename_i id request
    split_ifs at stepped with fresh
    cases stepped
    exact ⟨base.arrive fresh,fun _ follows => follows.arrive base fresh⟩
  · cases stepped
    exact ⟨base.weaken (enabledWithin _),fun _ follows => follows.weaken base (enabledWithin _)⟩
  · cases stepped
    exact ⟨base.weaken sweepWithin,fun _ follows => follows.weaken base sweepWithin⟩
  · obtain ⟨id,mine,stepped⟩ := Option.bind_eq_some_iff.mp stepped
    obtain ⟨its,at_,done⟩ := Option.bind_eq_some_iff.mp stepped
    obtain ⟨phase,added,moved⟩ := actStepped base.nodup (base.sound id its at_) mine at_ done
    exact ⟨base.move at_ moved,fun safe follows => follows.move at_ moved safe⟩

theorem startBase (start : machine.init w) : Base w ∧ Follows w := by
  obtain ⟨enabled,rfl⟩ := start
  refine ⟨⟨List.nodup_nil,by simp,by simp,by simp,by simp,?_,?_⟩,⟨by simp,by simp,?_⟩⟩
  · intro newer older id call split
    simp at split
  · intro newer older id request attempt split
    simp at split
  · intro newer older id call split
    simp at split

theorem reachableBase (reach : machine.Reachable w) : Base w :=
  reach.invariant (fun _ start => (startBase start).1) (fun _ _ _ base stepped => (stepKeeps base stepped).1)

theorem clearFollows (reach : machine.ReachableUnder (fun w e => clear w e = true) w) : Base w ∧ Follows w :=
  reach.invariant (fun _ start => startBase start)
    (fun _ _ _ both safe stepped => ⟨(stepKeeps both.1 stepped).1,(stepKeeps both.1 stepped).2 safe both.2⟩)

theorem bodiesFollow (reach : machine.Reachable w) :
    (CalledOnce w.trace ∧ ForwardedOnce w.trace ∧ (keys w.store.staging).Nodup) ∧
    (machine.ReachableUnder (fun w e => clear w e = true) w → Followed w.trace ∧ Cleared w) := by
  have base := reachableBase reach
  refine ⟨⟨base.calledOnce,base.forwardedOnce,base.nodup⟩,fun spared => ?_⟩
  obtain ⟨-,follows⟩ := clearFollows spared
  refine ⟨follows.followed,fun id request found => ?_⟩
  cases here : get w.store.staging id with
  | none => rfl
  | some staged => exact ((follows.fits id _ found staged here).2).elim

def sampleRequest : Request := ⟨CACHEABLE_PATH,[("anthropic-version","2023-06-01")],false,none,false⟩

def sampleBody : Body := "\x7b\"cache_control\"".toUTF8.toList

/-- A request that fails over from the account `a` to the account `b`, which serves it. -/
def failedOver (provider : String) (summary : Summary) : List Event :=
  [⟨1,.arrive "r" sampleRequest⟩,⟨1,.leave "r" (.to (.candidates false))⟩,⟨2,.attempt "r" ⟨"a","anthropic"⟩ sampleBody⟩,⟨3,.fail "r"⟩,
    ⟨4,.attempt "r" ⟨"b",provider⟩ sampleBody⟩,⟨5,.forward "r" false 200⟩,⟨6,.finalize "r" (some summary)⟩]

theorem bodiesFollowBridged : ∃ w, machine.runUnder clear ⟨⟨[],true⟩,[],[]⟩ (failedOver "anthropic" ⟨some 2000,none,none,none⟩) = some w ∧
    w.trace.head? = some (.called "r" (.register "b" "__account__:b" sampleBody sampleRequest.headers CACHEABLE_PATH none 0 2000)) ∧
    CalledOnce w.trace ∧ Followed w.trace ∧ Cleared w := by
  have told : (machine.runUnder clear ⟨⟨[],true⟩,[],[]⟩ (failedOver "anthropic" ⟨some 2000,none,none,none⟩)).map (·.trace.head?) =
      some (some (.called "r" (.register "b" "__account__:b" sampleBody sampleRequest.headers CACHEABLE_PATH none 0 2000))) := by
    decide +kernel
  obtain ⟨w,done,head⟩ := Option.map_eq_some_iff.mp told
  have start : machine.init ⟨⟨[],true⟩,[],[]⟩ := ⟨true,rfl⟩
  have spared := Machine.runReachableUnder _ start done
  obtain ⟨⟨once,-,-⟩,follows⟩ := bodiesFollow spared.reachable
  exact ⟨w,done,head,once,follows spared⟩

def leftWaiting : List Event :=
  [⟨1,.arrive "r" sampleRequest⟩,⟨1,.leave "r" (.to .zeroAccounts)⟩,⟨1,.leave "r" (.to (.recovery .pin))⟩,
    ⟨2,.attempt "r" ⟨"a","anthropic"⟩ sampleBody⟩,⟨3,.fail "r"⟩,⟨4,.leave "r" .aborted⟩]

/-- The account that serves is not one whose cache is kept warm, so its attempt stages nothing. -/
theorem bodiesMisled : (∃ w, machine.Reachable w ∧ ¬ Followed w.trace) ∧ ∃ w, machine.Reachable w ∧ ¬ Cleared w := by
  have start : machine.init ⟨⟨[],true⟩,[],[]⟩ := ⟨true,rfl⟩
  constructor
  · have traced : (machine.run ⟨⟨[],true⟩,[],[]⟩ (failedOver "codex" ⟨none,none,some 500,none⟩)).map (·.trace) = some
        [.called "r" (.touchActivity "a" "__account__:a" 6 500),
          .forwarded "r" sampleRequest ⟨⟨"b","codex"⟩,sampleBody,false,false⟩] := by decide +kernel
    obtain ⟨w,done,trace⟩ := Option.map_eq_some_iff.mp traced
    refine ⟨w,Machine.runReachable _ start done,fun followed => ?_⟩
    obtain ⟨request,attempt,inside,told⟩ := followed [] _ "r" _ trace
    cases List.mem_singleton.mp inside
    exact absurd told (by simp [Call.Follows])
  · have left : (machine.run ⟨⟨[],true⟩,[],[]⟩ leftWaiting).map (fun w => (get w.requests "r",(get w.store.staging "r").isSome)) =
        some (some ⟨sampleRequest,.ended⟩,true) := by decide +kernel
    obtain ⟨w,done,its⟩ := Option.map_eq_some_iff.mp left
    obtain ⟨ended,staged⟩ := Prod.mk.inj its
    refine ⟨w,Machine.runReachable _ start done,fun cleared => ?_⟩
    simp [cleared "r" sampleRequest ended] at staged

end Runs

end Clankermux.CacheBodyStore
