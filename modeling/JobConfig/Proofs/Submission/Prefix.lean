import JobConfig.Submission.Payload
import JobConfig.Proofs.Submission.Wire

/-!
How decoding depends on the bytes at hand. A decoder that goes through its bytes
from the front settles on a value as soon as it has seen the bytes of that value:
more bytes do not change it, and fewer are reported as missing, never as anything
else. A fault in the bytes is settled likewise.

Both hold of every part of the payload because they hold of words and of the
bodies of texts, and are kept when one decoder goes on where another stopped.
No count is bounded anywhere, so they hold of counts that no input can meet.
-/

namespace JobConfig.Submission

variable {α β : Type}

/-- Decoding ends because bytes are missing. -/
def Truncated (decoder : Decoder α) (bytes : List UInt8) : Prop :=
  ∃ fault, decoder bytes = .error fault ∧ fault.isTruncation = true

/-- `used` is what the decoder needs for `x`: with these bytes it gives `x`
whatever follows, and with less it misses bytes. -/
structure Needs (decoder : Decoder α) (used : List UInt8) (x : α) : Prop where
  decodes : Decodes decoder used x
  truncated : ∀ part, part <+: used → part ≠ used → Truncated decoder part

/-- A decoder that goes through its bytes from the front. -/
structure Sequential (decoder : Decoder α) : Prop where
  of_ok : ∀ {bytes x rest}, decoder bytes = .ok (x, rest) →
    ∃ used, bytes = used ++ rest ∧ Needs decoder used x
  of_error : ∀ {bytes fault}, decoder bytes = .error fault → fault.isTruncation = false →
    ∀ more, decoder (bytes ++ more) = .error fault

/-! ### Going on where another decoder stopped -/

theorem Needs.bind {decoder : Decoder α} {next : α → Decoder β} {used used' : List UInt8} {x : α}
    {y : β} (h : Needs decoder used x) (h' : Needs (next x) used' y) :
    Needs (decoder >>= next) (used ++ used') y where
  decodes := h.decodes.bind h'.decodes
  truncated := by
    intro part hpart hne
    -- The bytes end within those of the first decoder, or within those of the next.
    rcases List.prefix_or_prefix_of_prefix hpart (List.prefix_append used used') with hless | hmore
    · by_cases hall : part = used
      · subst hall
        obtain ⟨fault, hfault, htrunc⟩ := h'.truncated [] List.nil_prefix fun heq =>
          hne (by rw [← heq, List.append_nil])
        have hx := h.decodes []
        rw [List.append_nil] at hx
        exact ⟨fault, (bind_of_ok hx).trans hfault, htrunc⟩
      · obtain ⟨fault, hfault, htrunc⟩ := h.truncated part hless hall
        exact ⟨fault, bind_of_error hfault, htrunc⟩
    · obtain ⟨part', rfl⟩ := hmore
      obtain ⟨fault, hfault, htrunc⟩ := h'.truncated part'
        ((List.prefix_append_right_inj used).1 hpart) fun heq => hne (by rw [heq])
      exact ⟨fault, (bind_of_ok (h.decodes part')).trans hfault, htrunc⟩

namespace Sequential

theorem pure (x : α) : Sequential (Pure.pure x : Decoder α) where
  of_ok h := by
    obtain ⟨rfl, rfl⟩ := pure_sound h
    refine ⟨[], rfl, Decodes.pure _, fun part hpart hne => ?_⟩
    exact absurd (List.prefix_nil.1 hpart) hne
  of_error h := nomatch h

theorem fail {fault : Fault} : Sequential (Decoder.fail fault : Decoder α) where
  of_ok h := nomatch h
  of_error h _ _ := h

theorem bind {decoder : Decoder α} {next : α → Decoder β} (h : Sequential decoder)
    (h' : ∀ x, Sequential (next x)) : Sequential (decoder >>= next) where
  of_ok hy := by
    obtain ⟨x, middle, hx, hnext⟩ := bind_sound hy
    obtain ⟨used, rfl, hused⟩ := h.of_ok hx
    obtain ⟨used', rfl, hused'⟩ := (h' x).of_ok hnext
    exact ⟨used ++ used', (List.append_assoc ..).symm, hused.bind hused'⟩
  of_error {bytes fault} hfault htrunc more := by
    cases hx : decoder bytes with
    | error fault' =>
      rw [bind_of_error hx] at hfault
      obtain rfl := Except.error.inj hfault
      exact bind_of_error (h.of_error hx htrunc more)
    | ok p =>
      obtain ⟨x, middle⟩ := p
      rw [bind_of_ok hx] at hfault
      obtain ⟨used, rfl, hused⟩ := h.of_ok hx
      rw [List.append_assoc, bind_of_ok (hused.decodes (middle ++ more))]
      exact (h' x).of_error hfault htrunc more

end Sequential

/-! ### Words and bodies of texts -/

theorem isTruncation_of_decodeWord {width : Nat} {bytes : List UInt8} {fault : Fault}
    (h : decodeWord width bytes = .error fault) : fault.isTruncation = true := by
  induction width generalizing bytes with
  | zero => cases h
  | succ width ih =>
    cases bytes with
    | nil =>
      cases h
      rfl
    | cons b bytes =>
      rw [decodeWord] at h
      cases hrest : decodeWord width bytes with
      | error fault' =>
        rw [hrest] at h
        obtain rfl := Except.error.inj h
        exact ih hrest
      | ok p =>
        rw [hrest] at h
        cases h

theorem needs_word {width : Nat} {bytes rest : List UInt8} {n : Nat}
    (h : decodeWord width bytes = .ok (n, rest)) :
    ∃ used, bytes = used ++ rest ∧ Needs (decodeWord width) used n := by
  obtain ⟨rfl, hn⟩ := decodeWord_sound h
  refine ⟨encodeWord width n, rfl, decodes_word hn, fun part hpart hne => ?_⟩
  cases hword : decodeWord width part with
  | error fault => exact ⟨fault, hword, isTruncation_of_decodeWord hword⟩
  | ok p =>
    -- A part that holds a word is as long as the word, so it is no proper one.
    obtain ⟨m, rest'⟩ := p
    obtain ⟨rfl, -⟩ := decodeWord_sound hword
    exact absurd (hpart.eq_of_length_le (by simp)) hne

theorem sequential_word (width : Nat) : Sequential (decodeWord width) where
  of_ok := needs_word
  of_error h htrunc _ := by
    rw [isTruncation_of_decodeWord h] at htrunc
    cases htrunc

theorem sequential_takeBytes (count : Nat) : Sequential (takeBytes count) where
  of_ok h := by
    obtain ⟨rfl, rfl⟩ := takeBytes_sound h
    refine ⟨_, rfl, decodes_takeBytes _, fun part hpart hne => ?_⟩
    have hshort : part.length < _ := Nat.lt_of_not_le fun hle => hne (hpart.eq_of_length_le hle)
    exact ⟨.endOfString, by rw [takeBytes, if_pos hshort], rfl⟩
  of_error {bytes fault} h htrunc _ := by
    rw [takeBytes] at h
    split at h
    · cases h
      cases htrunc
    · cases h

/-! ### Parts of the payload -/

theorem sequential_int64 : Sequential decodeInt64 :=
  (sequential_word 8).bind fun _ => .pure _

theorem sequential_int32 : Sequential decodeInt32 :=
  (sequential_word 4).bind fun _ => .pure _

theorem sequential_flag : Sequential decodeFlag := by
  refine (sequential_word 1).bind fun n => ?_
  split
  · exact .pure false
  split
  · exact .pure true
  · exact .fail

theorem sequential_level : Sequential decodeLevel := by
  refine (sequential_word 4).bind fun n => ?_
  split
  · exact .pure _
  · exact .fail

theorem sequential_text : Sequential decodeText := by
  refine (sequential_word 8).bind fun count => (sequential_takeBytes count).bind fun bytes => ?_
  split
  · exact .pure _
  · exact .fail

theorem sequential_many {item : Decoder α} (h : Sequential item) (count : Nat) :
    Sequential (decodeMany item count) := by
  induction count with
  | zero => exact .pure []
  | succ count ih => exact h.bind fun _ => ih.bind fun _ => .pure _

theorem sequential_map : Sequential decodeMap := by
  have hentry : Sequential decodeEntry :=
    sequential_text.bind fun _ => sequential_text.bind fun _ => .pure _
  exact (sequential_word 8).bind fun count => (sequential_many hentry count).bind fun _ => .pure _

theorem sequential_set : Sequential decodeSet :=
  (sequential_word 8).bind fun count =>
    (sequential_many sequential_text count).bind fun _ => .pure _

theorem sequential_serializers : Sequential decodeSerializers := by
  refine sequential_flag.bind fun _ => sequential_flag.bind fun _ => ?_
  refine sequential_flag.bind fun _ => sequential_map.bind fun _ => ?_
  refine sequential_set.bind fun _ => sequential_set.bind fun _ => ?_
  exact .pure _

theorem sequential_config : Sequential decodeConfig := by
  refine sequential_level.bind fun _ => ?_
  refine sequential_int64.bind fun _ => sequential_int64.bind fun _ => ?_
  refine sequential_int32.bind fun _ => sequential_int32.bind fun _ => ?_
  refine sequential_int64.bind fun _ => sequential_int64.bind fun _ => ?_
  refine sequential_serializers.bind fun _ => ?_
  refine sequential_flag.bind fun _ => sequential_flag.bind fun _ => ?_
  exact sequential_map.bind fun _ => sequential_flag.bind fun _ => .pure _

theorem sequential_payload : Sequential Payload.decoder :=
  sequential_text.bind fun _ => sequential_config.bind fun _ => .pure _

/-! ### Whole payloads -/

theorem decode_of_ok {bytes rest : List UInt8} {p : Payload}
    (h : Payload.decoder bytes = .ok (p, rest)) : decode bytes = .ok p := by
  rw [decode, h]

theorem decode_of_error {bytes : List UInt8} {fault : Fault}
    (h : Payload.decoder bytes = .error fault) :
    decode bytes = .error (.malformedPayload fault) := by
  rw [decode, h]

theorem isTruncation_iff (fault : Fault) :
    fault.isTruncation = true ↔ fault = .endOfBytes ∨ fault = .endOfString := by
  cases fault <;> simp [Fault.isTruncation]

/-- With fewer bytes than a payload needs, bytes are missing. -/
theorem Needs.decode_take {used : List UInt8} {p : Payload} (h : Needs Payload.decoder used p)
    {m : Nat} (hm : m < used.length) :
    ∃ fault, decode (used.take m) = .error (.malformedPayload fault) ∧
      (fault = .endOfBytes ∨ fault = .endOfString) := by
  have hne : used.take m ≠ used := by
    intro heq
    have hlength := congrArg List.length heq
    rw [List.length_take] at hlength
    omega
  obtain ⟨fault, hfault, htrunc⟩ := h.truncated (used.take m) (List.take_prefix m used) hne
  exact ⟨fault, decode_of_error hfault, (isTruncation_iff fault).1 htrunc⟩

/-- A payload is decoded from its first bytes, the same whatever follows them,
and never from fewer: then bytes are reported as missing. Bytes refused for
anything else are refused for the same fault whatever follows them. -/
theorem decode_settled (bytes : List UInt8) :
    (∀ p, decode bytes = .ok p → ∃ n ≤ bytes.length,
        Payload.decoder bytes = .ok (p, bytes.drop n) ∧
        (∀ more, decode (bytes ++ more) = .ok p ∧ decode (bytes.take n ++ more) = .ok p) ∧
        ∀ m < n, ∃ fault, decode (bytes.take m) = .error (.malformedPayload fault) ∧
          (fault = .endOfBytes ∨ fault = .endOfString)) ∧
      ∀ e, decode bytes = .error e → e ≠ .malformedPayload .endOfBytes →
        e ≠ .malformedPayload .endOfString → ∀ more, decode (bytes ++ more) = .error e := by
  cases hdecoder : Payload.decoder bytes with
  | ok result =>
    obtain ⟨q, rest⟩ := result
    rw [decode_of_ok hdecoder]
    refine ⟨?_, fun e he => nomatch he⟩
    intro p hp
    obtain rfl := Except.ok.inj hp
    obtain ⟨used, rfl, hneeds⟩ := sequential_payload.of_ok hdecoder
    have hdecodes : ∀ more, decode (used ++ more) = .ok q := fun more =>
      decode_of_ok (hneeds.decodes more)
    refine ⟨used.length, by simp, by simp, fun more => ⟨?_, ?_⟩, fun m hm => ?_⟩
    · rw [List.append_assoc]
      exact hdecodes (rest ++ more)
    · rw [List.take_left]
      exact hdecodes more
    · rw [List.take_append_of_le_length (Nat.le_of_lt hm)]
      exact hneeds.decode_take hm
  | error fault =>
    rw [decode_of_error hdecoder]
    refine ⟨fun p hp => (nomatch hp), fun e he hbytes hstring more => ?_⟩
    obtain rfl := Except.error.inj he
    have htrunc : fault.isTruncation = false := by
      rw [Bool.eq_false_iff, Ne, isTruncation_iff]
      rintro (rfl | rfl)
      · exact hbytes rfl
      · exact hstring rfl
    exact decode_of_error (sequential_payload.of_error hdecoder htrunc more)

end JobConfig.Submission
