import Clankermux.FrameLoop

/-! When all the ways to cut a body into chunks come to the same. -/
namespace Clankermux.FrameLoop
open FramedReading

variable {δ σ ω : Type*} {r : Reader δ σ ω} {d d' : δ} {s last : σ} {text more frame rest left : List Char} {length : Nat}
  {out yielded : List ω} {body : List UInt8}

def Marginal (r : Reader δ σ ω) (text : List Char) : Prop := ∃ frame length rest, nextFrame text = some (frame,length,rest) ∧
  r.exceeds frame = false ∧ r.limit.any (· < units frame + (length-1)) = true

inductive Muted (r : Reader δ σ ω) : σ → List Char → Prop where
  | tail {s : σ} {text} (none_ : nextFrame text = none) (fails : r.exceeds text = true ∨ r.close s = none) : Muted r s text
  | overlong {s : σ} {text frame rest length} (found : nextFrame text = some (frame,length,rest))
    (long : r.exceeds frame = true) : Muted r s text
  | failed {s : σ} {text frame rest length} (found : nextFrame text = some (frame,length,rest))
    (short : r.exceeds frame = false) (failed : r.process s frame = none) : Muted r s text
  | silent {s after text frame rest length} (found : nextFrame text = some (frame,length,rest))
    (short : r.exceeds frame = false) (processed : r.process s frame = some ([],after)) (going : r.terminal after = false)
    (later : Muted r after rest) : Muted r s text

def Calm (r : Reader δ σ ω) (s : σ) (text : List Char) : Prop := ∀ yielded last left, Reaches r s text yielded last left →
  Marginal r left → Muted r last left

def Trailing (r : Reader δ σ ω) (s : σ) (text : List Char) : Prop := ∀ yielded last left frame length rest out after,
  Reaches r s text yielded last left → nextFrame left = some (frame,length,rest) → r.exceeds frame = false →
  r.process last frame = some (out,after) → r.terminal after = true → r.exceeds rest = false

def Silent (r : Reader δ σ ω) (s : σ) (text : List Char) : Prop := ∀ yielded last left frame length rest out after,
  Reaches r s text yielded last left → nextFrame left = some (frame,length,rest) → r.exceeds frame = false →
  r.process last frame = some (out,after) → out = []

def Steady (r : Reader δ σ ω) (d : δ) (s : σ) (body : List UInt8) : Prop :=
  (∀ d' text, r.decode d body = some (d',text) → Calm r s text ∧ Trailing r s text) ∧
  (r.decode d body = none → ∀ front back d' text, body = front ++ back → r.decode d front = some (d',text) → Silent r s text)

theorem Reaches.going (reaches : Reaches r s text yielded last left) (going : r.terminal s = false) : r.terminal last = false := by
  induction reaches with
  | here => exact going
  | step _ _ _ stays _ ih => exact ih stays

theorem Calm.later (calm : Calm r s text) (reaches : Reaches r s text yielded last left) : Calm r last left :=
  fun _ _ _ further marginal => calm _ _ _ (reaches.trans further) marginal

theorem Trailing.later (trailing : Trailing r s text) (reaches : Reaches r s text yielded last left) : Trailing r last left :=
  fun _ _ _ _ _ _ _ _ further => trailing _ _ _ _ _ _ _ _ (reaches.trans further)

theorem exceedsIff : r.exceeds text = true ↔ ∃ limit, r.limit = some limit ∧ limit < units text := by
  unfold Reader.exceeds
  cases r.limit <;> simp

theorem exceedsPrefix (before : text <+: more) (long : r.exceeds text = true) : r.exceeds more = true := by
  obtain ⟨limit,known,less⟩ := exceedsIff.mp long
  exact exceedsIff.mpr ⟨limit,known,Nat.lt_of_lt_of_le less (unitsPrefix before)⟩

theorem shortPrefix (before : text <+: more) (short : r.exceeds more = false) : r.exceeds text = false := by
  cases long : r.exceeds text with
  | false => rfl
  | true => exact absurd (exceedsPrefix before long) (by simp [short])

theorem exceedsEmpty (r : Reader δ σ ω) : r.exceeds [] = false := by
  cases long : r.exceeds [] with
  | false => rfl
  | true =>
    obtain ⟨limit,-,less⟩ := exceedsIff.mp long
    exact absurd less (Nat.not_lt_zero _)

theorem Muted.concludes (muted : Muted r s text) : conclude r s text = ([],true) := by
  induction muted with
  | @tail s text none_ fails =>
    cases long : r.exceeds text with
    | true => rw [conclude,serveLeft none_ long,finish]
    | false =>
      have closes := fails.resolve_left (by simp [long])
      simp [conclude,serveOpen none_ long,finish,closes]
  | overlong found long => rw [conclude,serveLong found long,finish]
  | failed found short failed => rw [conclude,serveFailed found short failed,finish]
  | silent found short processed going _ ih =>
    rw [(Reaches.step found short processed going (.here _ _)).conclude,ih]
    rfl

theorem mutedOf (lawful : r.Lawful) (text : List Char) : ∀ s, r.terminal s = false → conclude r s text = ([],true) → Muted r s text := by
  induction size : text.length using Nat.strongRecOn generalizing text with
  | ind n ih =>
    intro s going same
    cases found : nextFrame text with
    | none =>
      refine .tail found ?_
      cases long : r.exceeds text with
      | true => exact .inl rfl
      | false =>
        cases closes : r.close s with
        | none => exact .inr rfl
        | some more => simp [conclude,serveOpen found long,finish,long,closes] at same
    | some next =>
      obtain ⟨frame,length,rest⟩ := next
      cases long : r.exceeds frame with
      | true => exact .overlong found long
      | false =>
        cases processed : r.process s frame with
        | none => exact .failed found long processed
        | some done =>
          obtain ⟨out,after⟩ := done
          cases ends : r.terminal after with
          | true =>
            have told := lawful.announced _ _ _ _ going processed ends
            rw [conclude,serveEnds found long processed ends,finish] at same
            split at same
            · exact absurd (Prod.mk.inj same).1 told
            · cases closes : r.close after with
              | none => simp [closes,told] at same
              | some more => simp [closes] at same
          | false =>
            rw [(Reaches.step found long processed ends (.here _ _)).conclude,List.append_nil] at same
            obtain ⟨empty,none_⟩ := List.append_eq_nil_iff.mp (Prod.mk.inj same).1
            subst empty
            exact .silent found long processed ends (ih rest.length (size ▸ nextFrameShorter found) rest rfl after ends
              (Prod.ext none_ (Prod.mk.inj same).2))

theorem Silent.serves (silent : Silent r s text) : (serve r s text).1 = [] := by
  have reached : ∀ {yielded last left}, Reaches r s text yielded last left → yielded = [] := by
    intro yielded last left reaches
    induction reaches with
    | here => rfl
    | step found short processed going _ ih =>
      rw [silent _ _ _ _ _ _ _ _ (.here _ _) found short processed,List.nil_append]
      exact ih (fun _ _ _ _ _ _ _ _ further => silent _ _ _ _ _ _ _ _ (.step found short processed going further))
  have stops := served r text s
  generalize serve r s text = ends at stops
  cases stops with
  | waits reaches _ _ | leftLong reaches _ _ | overlong reaches _ _ | failed reaches _ _ _ => exact reached reaches
  | ended reaches found short processed _ =>
    rw [reached reaches,silent _ _ _ _ _ _ _ _ reaches found short processed]
    rfl

theorem silentOf (nothing : (serve r s text).1 = []) : Silent r s text := by
  intro yielded last left frame length rest out after reaches found short processed
  rw [reaches.serve] at nothing
  have here := (List.append_eq_nil_iff.mp nothing).2
  cases going : r.terminal after with
  | true => rwa [serveEnds found short processed going] at here
  | false =>
    rw [serveStep found short processed going] at here
    exact (List.append_eq_nil_iff.mp here).1

theorem Calm.leftLong (calm : Calm r s (left ++ more)) (none_ : nextFrame left = none) (long : r.exceeds left = true) :
    conclude r s (left ++ more) = ([],true) := by
  cases found : nextFrame (left ++ more) with
  | none => rw [conclude,serveLeft found (exceedsPrefix (List.prefix_append _ _) long),finish]
  | some next =>
    obtain ⟨frame,length,rest⟩ := next
    cases short : r.exceeds frame with
    | true => rw [conclude,serveLong found short,finish]
    | false =>
      refine (calm _ _ _ (.here _ _) ⟨frame,length,rest,found,short,?_⟩).concludes
      obtain ⟨limit,known,less⟩ := exceedsIff.mp long
      rw [known,Option.any_some,decide_eq_true_eq]
      exact Nat.lt_of_lt_of_le less (openUnits none_ found)

theorem endedMore (reaches : Reaches r s text yielded last left) (found : nextFrame left = some (frame,length,rest))
    (short : r.exceeds frame = false) {after : σ} (processed : r.process last frame = some (out,after)) (ends : r.terminal after = true)
    (trailing : Trailing r s (text ++ more)) : finish r (yielded ++ out,some (after,rest)) = conclude r s (text ++ more) := by
  have further := reaches.behind more
  have found_ := nextFrameMore _ more found
  have few := trailing _ _ _ _ _ _ _ _ further found_ short processed ends
  rw [further.conclude,conclude,serveEnds found_ short processed ends,finish,finish,few,shortPrefix (List.prefix_append _ _) few]
  cases r.close after with
  | none => rfl
  | some closing => simp

theorem readEnded (ends : r.terminal s = true) (packets : List (List UInt8)) : readAll r d s left packets = ([],some (s,left)) := by
  cases packets <;> simp [readAll,ends]

theorem cutLong {front back mid consumed open_} (going : r.terminal s = false)
    (reaches : Reaches r s (consumed ++ open_) yielded last open_) (decoded : r.decode d front = some (mid,consumed ++ open_))
    (none_ : nextFrame open_ = none) (long : r.exceeds open_ = true) : outcome r d s [front,back] = (yielded,true) := by
  rw [outcome,readAll,if_neg (by simp [going]),decoded]
  simp only [List.nil_append,reaches.serve,serveLeft none_ long,List.append_nil,finish]

theorem Reaches.cut (reaches : Reaches r s text yielded last left) : ∃ consumed, text = consumed ++ left ∧
    ∀ other, Reaches r s (consumed ++ other) yielded last other := by
  induction reaches with
  | here => exact ⟨[],rfl,fun other => .here _ other⟩
  | step found short processed going _ ih =>
    obtain ⟨consumed,rfl,cuts⟩ := ih
    obtain ⟨taken,rfl,next⟩ := frameTaken found
    refine ⟨taken ++ consumed,by simp,fun other => ?_⟩
    rw [List.append_assoc]
    exact .step (next _) short processed going (cuts other)

theorem readOnce (going : r.terminal s = false) (decoded : r.decode d body = some (d',text)) :
    outcome r d s [body] = conclude r s text := by
  rw [outcome,readAll,if_neg (by simp [going]),decoded,conclude]
  simp only [List.nil_append]
  cases serve r s text with
  | mk out ends => cases ends <;> simp [readAll]

section Chunks
variable (lawful : r.Lawful)
include lawful

theorem readCalm (packets : List (List UInt8)) : ∀ {d d'} {s : σ} (buffer : List Char) {text : List Char}, r.terminal s = false →
    Calm r s (buffer ++ text) → Trailing r s (buffer ++ text) → nextFrame buffer = none → r.exceeds buffer = false →
    r.decode d packets.flatten = some (d',text) → finish r (readAll r d s buffer packets) = conclude r s (buffer ++ text) := by
  induction packets with
  | nil =>
    intro d d' s buffer text going calm trailing open_ fits decoded
    rw [List.flatten_nil,lawful.decodeNil] at decoded
    cases decoded
    rw [readAll,List.append_nil,conclude,serveOpen open_ fits]
  | cons chunk rest ih =>
    intro d d' s buffer text going calm trailing open_ fits decoded
    rw [List.flatten_cons,lawful.decodeAppend] at decoded
    obtain ⟨⟨mid,here⟩,first,others⟩ := Option.bind_eq_some_iff.mp decoded
    obtain ⟨⟨d'',there⟩,second,same⟩ := Option.map_eq_some_iff.mp others
    cases same
    rw [readAll,if_neg (by simp [going]),first]
    rw [← List.append_assoc] at calm trailing ⊢
    have stops := served r (buffer ++ here) s
    dsimp only
    generalize serve r s (buffer ++ here) = ends at stops
    cases stops with
    | overlong reaches found long =>
      have further := reaches.behind there
      rw [further.conclude,conclude,serveLong (nextFrameMore _ there found) long]
      simp [finish]
    | failed reaches found short failed =>
      have further := reaches.behind there
      rw [further.conclude,conclude,serveFailed (nextFrameMore _ there found) short failed]
      simp [finish]
    | leftLong reaches none_ long =>
      have further := reaches.behind there
      rw [further.conclude,(calm.later further).leftLong none_ long]
      simp [finish]
    | ended reaches found short processed ends =>
      dsimp only
      rw [readEnded ends rest,List.append_nil]
      exact endedMore reaches found short processed ends trailing
    | @waits out last left reaches none_ short =>
      have further := reaches.behind there
      have still := reaches.going going
      rw [finishAhead,ih left still (calm.later further) (trailing.later further) none_ short second,further.conclude]

theorem readSilent {first start} (going : r.terminal first = false) (broken : r.decode start body = none)
    (silent : ∀ front back d' text, body = front ++ back → r.decode start front = some (d',text) → Silent r first text)
    (packets : List (List UInt8)) : ∀ {front} {d : δ} {s : σ} {text buffer : List Char}, body = front ++ packets.flatten →
    r.decode start front = some (d,text) → Reaches r first text [] s buffer → finish r (readAll r d s buffer packets) = ([],true) := by
  induction packets with
  | nil =>
    intro front d s text buffer whole decoded _
    rw [List.flatten_nil,List.append_nil] at whole
    rw [whole,decoded] at broken
    cases broken
  | cons chunk rest ih =>
    intro front d s text buffer whole decoded reaches
    rw [readAll,if_neg (by simp [reaches.going going])]
    cases here : r.decode d chunk with
    | none => rfl
    | some decoded_ =>
      obtain ⟨mid,more⟩ := decoded_
      have longer : r.decode start (front ++ chunk) = some (mid,text ++ more) := by
        rw [lawful.decodeAppend,decoded,Option.bind_some,here]
        rfl
      have whole_ : body = (front ++ chunk) ++ rest.flatten := by rw [whole,List.flatten_cons,List.append_assoc]
      have further := reaches.behind more
      have none_ := (silent _ _ _ _ whole_ longer).serves
      rw [further.serve,List.nil_append] at none_
      have stops := served r (buffer ++ more) s
      dsimp only
      generalize serve r s (buffer ++ more) = ends at stops none_
      cases stops with
      | overlong _ _ _ | failed _ _ _ _ | leftLong _ _ _ =>
        cases none_
        rfl
      | ended reaches_ _ _ processed ends =>
        have stays := reaches_.going (reaches.going going)
        exact absurd (List.append_eq_nil_iff.mp none_).2 (lawful.announced _ _ _ _ stays processed ends)
      | waits reaches_ _ _ =>
        cases none_
        rw [finishAhead,ih whole_ longer (further.trans reaches_)]
        rfl

theorem agreeCalm (going : r.terminal s = false) (decoded : r.decode d body = some (d',text))
    (agree : ∀ front back, body = front ++ back → outcome r d s [front,back] = outcome r d s [body]) : Calm r s text := by
  rintro yielded last left reaches ⟨frame,length,rest,found,short,long⟩
  obtain ⟨consumed,rfl,cuts⟩ := reaches.cut
  obtain ⟨head,tail,rfl,open_,size⟩ := frameShort found
  have limited : r.limit ≠ none := by
    intro unlimited
    simp [unlimited] at long
  rw [← List.append_assoc] at decoded
  obtain ⟨front,back,mid,rfl,first,-⟩ := lawful.decodeSplit limited _ _ _ _ _ decoded
  have excess : r.exceeds head = true := by
    rw [Reader.exceeds,size]
    exact long
  have once := agree front back rfl
  rw [cutLong going (cuts _) first open_ excess,readOnce going decoded,List.append_assoc,reaches.conclude] at once
  obtain ⟨outs,ends⟩ := Prod.mk.inj once
  exact mutedOf lawful _ _ (reaches.going going) (Prod.ext (List.append_right_eq_self.mp outs.symm) ends.symm)

theorem agreeTrailing (going : r.terminal s = false) (decoded : r.decode d body = some (d',text))
    (agree : ∀ front back, body = front ++ back → outcome r d s [front,back] = outcome r d s [body]) : Trailing r s text := by
  intro yielded last left frame length rest out after reaches found short processed ends
  cases long : r.exceeds rest with
  | false => rfl
  | true =>
    obtain ⟨consumed,rfl,cuts⟩ := reaches.cut
    obtain ⟨taken,rfl,alone⟩ := frameTaken found
    have alone := alone []
    rw [List.append_nil] at alone
    have limited : r.limit ≠ none := by
      obtain ⟨limit,known,-⟩ := exceedsIff.mp long
      simp [known]
    rw [← List.append_assoc] at decoded
    obtain ⟨front,back,mid,rfl,first,-⟩ := lawful.decodeSplit limited _ _ _ _ _ decoded
    have once := agree front back rfl
    obtain ⟨closing,closes⟩ := Option.isSome_iff_exists.mp (lawful.closes _ ends)
    have early : outcome r d s [front,back] = (yielded ++ out ++ closing,false) := by
      rw [outcome,readAll,if_neg (by simp [going]),first]
      simp only [List.nil_append,(cuts _).serve,serveEnds alone short processed ends,readEnded ends,List.append_nil,finish,
        exceedsEmpty r,Bool.false_eq_true,if_false,closes]
    have late : outcome r d s [front ++ back] = (yielded ++ out,true) := by
      rw [readOnce going decoded,List.append_assoc,reaches.conclude,conclude,serveEnds found short processed ends,finish,if_pos long]
    rw [early,late] at once
    cases (Prod.mk.inj once).2

theorem cutsSteady (going : r.terminal s = false) (body : List UInt8) :
    (∀ packets others, packets.flatten = body → others.flatten = body → outcome r d s packets = outcome r d s others) ↔
      Steady r d s body := by
  constructor
  · intro agree
    have twice : ∀ front back, body = front ++ back → outcome r d s [front,back] = outcome r d s [body] := by
      intro front back whole
      exact agree _ _ (by simp [whole]) (by simp)
    refine ⟨fun d' text decoded => ⟨agreeCalm lawful going decoded twice,agreeTrailing lawful going decoded twice⟩,?_⟩
    intro broken front back d' text whole decoded
    refine silentOf ?_
    have once := congrArg Prod.fst (twice front back whole)
    have nothing : outcome r d s [body] = ([],true) := by
      rw [outcome,readAll,if_neg (by simp [going]),broken]
      rfl
    rw [nothing,outcome,readAll,if_neg (by simp [going]),decoded] at once
    simp only [List.nil_append] at once
    cases result : serve r s text with
    | mk out ends =>
      rw [result] at once
      cases ends with
      | none => exact once
      | some stopped =>
        rw [finishAhead] at once
        exact (List.append_eq_nil_iff.mp once).1
  · rintro ⟨steady,silent⟩ packets others its theirs
    cases decoded : r.decode d body with
    | some whole =>
      obtain ⟨d',text⟩ := whole
      obtain ⟨calm,trailing⟩ := steady d' text decoded
      have same (packets : List (List UInt8)) (its : packets.flatten = body) : outcome r d s packets = conclude r s text :=
        readCalm lawful packets [] going calm trailing rfl (exceedsEmpty r) (its ▸ decoded)
      rw [same packets its,same others theirs]
    | none =>
      have same (packets : List (List UInt8)) (its : packets.flatten = body) : outcome r d s packets = ([],true) :=
        readSilent lawful going decoded (silent decoded) packets (by simp [its]) (lawful.decodeNil d) (.here _ _)
      rw [same packets its,same others theirs]

end Chunks

end Clankermux.FrameLoop
