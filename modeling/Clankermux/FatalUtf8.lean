import Clankermux.Utf8

/-! The decoder of UTF-8 that fails where the other one replaces. -/
namespace Clankermux.Utf8

def badLead (byte : Nat) : Bool :=
  !(byte ≤ 0x7F || (0xC2 ≤ byte && byte ≤ 0xDF) || (0xE0 ≤ byte && byte ≤ 0xEF) || (0xF0 ≤ byte && byte ≤ 0xF4))

def Decoder.bad (d : Decoder) (byte : Nat) : Bool := if d.bytesNeeded = 0 then badLead byte else byte < d.lower || d.upper < byte

@[grind] def decodeFatal (d : Decoder) : List UInt8 → Option (Decoder × List Char)
  | [] => some (d,[])
  | byte::rest =>
    if d.bad byte.toNat then none
    else (decodeFatal (d.feed byte).1 rest).map (fun last => (last.1,(d.feed byte).2 ++ last.2))

variable {d : Decoder} {bytes more : List UInt8}

theorem fatalDecodes (bytes : List UInt8) : ∀ {d last}, decodeFatal d bytes = some last → decode d bytes = last := by
  induction bytes with
  | nil => exact fun done => Option.some.inj done
  | cons byte rest ih =>
    intro d last done
    rw [decodeFatal] at done
    split at done
    · cases done
    · obtain ⟨after,went,same⟩ := Option.map_eq_some_iff.mp done
      rw [← same,← ih went]
      rfl

theorem fatalAppend (bytes more : List UInt8) : ∀ d, decodeFatal d (bytes ++ more) =
    (decodeFatal d bytes).bind (fun mid => (decodeFatal mid.1 more).map (fun last => (last.1,mid.2 ++ last.2))) := by
  induction bytes with
  | nil =>
    intro d
    cases found : decodeFatal d more with
    | none => simp [decodeFatal]
    | some last => simp [decodeFatal]
  | cons byte rest ih =>
    intro d
    rw [List.cons_append,decodeFatal,decodeFatal]
    split
    · rfl
    · simp only [ih]
      cases decodeFatal (d.feed byte).1 rest with
      | none => rfl
      | some mid =>
        simp only [Option.bind_some,Option.map_some]
        cases decodeFatal mid.1 more <;> simp

theorem badShows (byte : UInt8) (bad : d.bad byte.toNat = true) : replacement ∈ (d.feed byte).2 := by
  have emits : ∀ (d : Decoder) (text : List Char), replacement ∈ text → replacement ∈ (d.emit text).2 := by
    intro d text inside
    cases text with
    | nil => exact inside
    | cons ch rest =>
      rw [Decoder.emit]
      split
      · exact inside
      · split
        · rename_i marked
          rcases List.mem_cons.mp inside with same | later
          · cases same.trans marked
          · exact later
        · exact inside
  have shown : replacement ∈ (d.step byte.toNat).2 := by
    rw [Decoder.bad] at bad
    unfold Decoder.step
    split at bad
    · rename_i zero
      rw [if_pos zero,Decoder.lead]
      simp only [badLead,Bool.not_eq_true',Bool.or_eq_false_iff,decide_eq_false_iff_not,Bool.and_eq_false_iff] at bad
      rw [if_neg (by omega),if_neg (by omega),if_neg (by omega),if_neg (by omega)]
      exact List.mem_singleton_self _
    · rename_i needed
      rw [if_neg needed,if_pos (by simpa using bad)]
      exact .head _
  exact emits _ _ shown

theorem fatalQuiet (bytes : List UInt8) : ∀ {d}, replacement ∉ (decode d bytes).2 → ∃ last, decodeFatal d bytes = some last := by
  induction bytes with
  | nil => exact fun _ => ⟨_,rfl⟩
  | cons byte rest ih =>
    intro d quiet
    simp only [decode,List.mem_append,not_or] at quiet
    rw [decodeFatal,if_neg (fun bad => quiet.1 (badShows byte bad))]
    obtain ⟨last,went⟩ := ih quiet.2
    exact ⟨_,by rw [went]; rfl⟩

theorem fatalChar (c : Char) (b : Bool) : ∃ last, decodeFatal (.clean b) (String.utf8EncodeChar c) = some last := by
  by_cases same : c = replacement
  · subst same
    cases b <;> exact ⟨_,rfl⟩
  · refine fatalQuiet _ ?_
    rw [decodeChar,Decoder.emit]
    split
    · simpa using Ne.symm same
    · split
      · simp
      · simpa using Ne.symm same

theorem fatalEncode (text : List Char) : decodeFatal .start (encode text) = some (decode .start (encode text)) := by
  have whole : ∀ text (b : Bool), ∃ last, decodeFatal (.clean b) (encode text) = some last := by
    intro text
    induction text with
    | nil => exact fun _ => ⟨_,rfl⟩
    | cons c rest ih =>
      intro b
      obtain ⟨first,went⟩ := fatalChar c b
      have seen : ∃ b', first.1 = .clean b' := by
        have decoded := fatalDecodes _ went
        rw [decodeChar,Decoder.emit] at decoded
        split at decoded
        · exact ⟨b,by rw [← decoded]⟩
        · exact ⟨true,by rw [← decoded]; rfl⟩
      obtain ⟨b',clean⟩ := seen
      obtain ⟨last,later⟩ := ih b'
      have split : encode (c::rest) = String.utf8EncodeChar c ++ encode rest := rfl
      rw [split,fatalAppend,went,Option.bind_some,clean,later]
      exact ⟨_,rfl⟩
  obtain ⟨last,went⟩ := whole text false
  have same := fatalDecodes _ went
  exact same ▸ went

theorem goodOne (d : Decoder) (byte : UInt8) (good : d.bad byte.toNat = false) : (d.feed byte).2.length ≤ 1 := by
  have emitted : ∀ (d : Decoder) (text : List Char), (d.emit text).2.length ≤ text.length := by
    intro d text
    cases text with
    | nil => exact Nat.le_refl _
    | cons ch rest =>
      rw [Decoder.emit]
      split
      · exact Nat.le_refl _
      · split
        · exact Nat.le_succ _
        · exact Nat.le_refl _
  have stepped : (d.step byte.toNat).2.length ≤ 1 := by
    rw [Decoder.bad] at good
    unfold Decoder.step Decoder.lead
    split at good
    · rename_i zero
      rw [if_pos zero]
      repeat' split
      all_goals simp
    · rename_i needed
      rw [if_neg needed,if_neg (by simpa using good)]
      split <;> simp
  exact Nat.le_trans (emitted _ _) stepped

theorem fatalSplit (bytes : List UInt8) : ∀ d d' (front back : List Char), decodeFatal d bytes = some (d',front ++ back) →
    ∃ first second mid, bytes = first ++ second ∧ decodeFatal d first = some (mid,front) ∧
      decodeFatal mid second = some (d',back) := by
  induction bytes with
  | nil =>
    intro d d' front back decoded
    obtain ⟨rfl,none_⟩ := Prod.mk.inj (Option.some.inj decoded)
    obtain ⟨rfl,rfl⟩ := List.append_eq_nil_iff.mp none_.symm
    exact ⟨[],[],d,rfl,rfl,rfl⟩
  | cons byte rest ih =>
    intro d d' front back decoded
    cases front with
    | nil => exact ⟨[],byte::rest,d,rfl,rfl,decoded⟩
    | cons ch front =>
      rw [decodeFatal] at decoded
      split at decoded
      · cases decoded
      · rename_i good
        obtain ⟨⟨last,later⟩,went,same⟩ := Option.map_eq_some_iff.mp decoded
        obtain ⟨rfl,text⟩ := Prod.mk.inj same
        have one := goodOne d byte (by simpa using good)
        dsimp only at text
        -- The byte shows the first character of the front, or none.
        cases shown : (d.feed byte).2 with
        | nil =>
          rw [shown,List.nil_append] at text
          obtain ⟨first,second,mid,rfl,here,there⟩ := ih _ _ (ch::front) back (text ▸ went)
          exact ⟨byte::first,second,mid,rfl,by rw [decodeFatal,if_neg good,here,shown]; rfl,there⟩
        | cons shownCh more =>
          rw [shown,List.length_cons] at one
          have none_ : more = [] := List.length_eq_zero_iff.mp (by omega)
          subst none_
          rw [shown] at text
          obtain ⟨rfl,tail⟩ := List.cons.inj text
          obtain ⟨first,second,mid,rfl,here,there⟩ := ih _ _ front back (by rw [went]; exact congrArg (fun t => some (_,t)) tail)
          exact ⟨byte::first,second,mid,rfl,by rw [decodeFatal,if_neg good,here,shown]; rfl,there⟩

end Clankermux.Utf8
