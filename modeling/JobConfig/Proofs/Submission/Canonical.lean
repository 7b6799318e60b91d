import JobConfig.Proofs.Submission.Payload
import JobConfig.Proofs.Submission.Prefix
import JobConfig.Proofs.Utf8.Canonical

/-!
What is decoded to a payload. Every part that a decoder takes is the encoding of
the value it gives: words have one form for each width, flags and levels are
checked, texts have one form. Only the collections leave a choice, and the bytes
they are taken from are those of a list. So the bytes of a payload are its bytes
with its collections listed in some way, and encoding it again puts each
collection in order.
-/

namespace JobConfig.Submission

variable {α β : Type} {bytes rest : List UInt8}

/-! ### Words, flags and levels -/

theorem decodeInt64_sound {n : Int64} (h : decodeInt64 bytes = .ok (n, rest)) :
    bytes = encodeInt64 n ++ rest := by
  obtain ⟨m, middle, hword, hpure⟩ := bind_sound h
  obtain ⟨rfl, rfl⟩ := pure_sound hpure
  obtain ⟨rfl, hm⟩ := decodeWord_sound hword
  have hvalue : (UInt64.ofNat m).toInt64.toUInt64.toNat = m := by
    rw [UInt64.toUInt64_toInt64]
    exact UInt64.toNat_ofNat_of_lt' hm
  rw [encodeInt64, hvalue]

theorem decodeInt32_sound {n : Int32} (h : decodeInt32 bytes = .ok (n, rest)) :
    bytes = encodeInt32 n ++ rest := by
  obtain ⟨m, middle, hword, hpure⟩ := bind_sound h
  obtain ⟨rfl, rfl⟩ := pure_sound hpure
  obtain ⟨rfl, hm⟩ := decodeWord_sound hword
  have hvalue : (UInt32.ofNat m).toInt32.toUInt32.toNat = m := by
    rw [UInt32.toUInt32_toInt32]
    exact UInt32.toNat_ofNat_of_lt' hm
  rw [encodeInt32, hvalue]

theorem decodeFlag_sound {b : Bool} (h : decodeFlag bytes = .ok (b, rest)) :
    bytes = encodeFlag b ++ rest := by
  obtain ⟨n, middle, hword, hnext⟩ := bind_sound h
  obtain ⟨rfl, -⟩ := decodeWord_sound hword
  split at hnext
  · rename_i hn
    obtain ⟨rfl, rfl⟩ := pure_sound hnext
    rw [hn]
    rfl
  split at hnext
  · rename_i hn
    obtain ⟨rfl, rfl⟩ := pure_sound hnext
    rw [hn]
    rfl
  · cases hnext

theorem decodeLevel_sound {level : CleanerLevel} (h : decodeLevel bytes = .ok (level, rest)) :
    bytes = encodeLevel level ++ rest := by
  obtain ⟨n, middle, hword, hnext⟩ := bind_sound h
  obtain ⟨rfl, -⟩ := decodeWord_sound hword
  cases hfound : CleanerLevel.all[n]? with
  | none =>
    rw [hfound] at hnext
    cases hnext
  | some found =>
    rw [hfound] at hnext
    obtain ⟨rfl, rfl⟩ := pure_sound hnext
    obtain ⟨hn, rfl⟩ := List.getElem?_eq_some_iff.1 hfound
    have hindex : levelIndex CleanerLevel.all[n] = n :=
      List.Nodup.idxOf_getElem (by decide) n hn
    rw [encodeLevel, hindex]

/-! ### Texts and collections -/

theorem decodeText_sound {s : String} (h : decodeText bytes = .ok (s, rest)) :
    bytes = encodeText s ++ rest ∧ TextFits s := by
  obtain ⟨count, middle, hcount, hnext⟩ := bind_sound h
  obtain ⟨body, middle', hbody, htext⟩ := bind_sound hnext
  obtain ⟨rfl, hfits⟩ := decodeWord_sound hcount
  obtain ⟨rfl, rfl⟩ := takeBytes_sound hbody
  cases hs : Utf8.decode body with
  | error fault =>
    rw [hs] at htext
    cases htext
  | ok s' =>
    rw [hs] at htext
    obtain ⟨rfl, rfl⟩ := pure_sound htext
    obtain rfl := Utf8.encode_of_decode hs
    exact ⟨(List.append_assoc ..).symm, hfits⟩

theorem decodeEntry_sound {e : String × String} (h : decodeEntry bytes = .ok (e, rest)) :
    bytes = encodeEntry e ++ rest ∧ EntryFits e := by
  obtain ⟨k, middle, hkey, hnext⟩ := bind_sound h
  obtain ⟨v, middle', hvalue, hpure⟩ := bind_sound hnext
  obtain ⟨rfl, rfl⟩ := pure_sound hpure
  obtain ⟨rfl, hkeyFits⟩ := decodeText_sound hkey
  obtain ⟨rfl, hvalueFits⟩ := decodeText_sound hvalue
  exact ⟨(List.append_assoc ..).symm, hkeyFits, hvalueFits⟩

/-- Items are taken from their own bytes, one by one. -/
theorem decodeMany_sound {item : Decoder α} {encode : α → List UInt8} {fits : α → Prop}
    (hitem : ∀ {x bytes rest}, item bytes = .ok (x, rest) → bytes = encode x ++ rest ∧ fits x)
    {count : Nat} {xs : List α} (h : decodeMany item count bytes = .ok (xs, rest)) :
    bytes = xs.flatMap encode ++ rest ∧ xs.length = count ∧ ∀ x ∈ xs, fits x := by
  induction count generalizing bytes xs with
  | zero =>
    obtain ⟨rfl, rfl⟩ := pure_sound h
    simp
  | succ count ih =>
    obtain ⟨x, middle, hx, hnext⟩ := bind_sound h
    obtain ⟨xs', middle', hxs, hpure⟩ := bind_sound hnext
    obtain ⟨rfl, rfl⟩ := pure_sound hpure
    obtain ⟨rfl, hfits⟩ := hitem hx
    obtain ⟨rfl, hlength, hall⟩ := ih hxs
    refine ⟨by simp, by simp [hlength], ?_⟩
    simpa using ⟨hfits, hall⟩

theorem decodeList_sound {item : Decoder α} {encode : α → List UInt8} {fits : α → Prop}
    (hitem : ∀ {x bytes rest}, item bytes = .ok (x, rest) → bytes = encode x ++ rest ∧ fits x)
    {build : List α → β} {y : β}
    (h : (do
      let count ← decodeWord 8
      let xs ← decodeMany item count
      return build xs : Decoder β) bytes = .ok (y, rest)) :
    ∃ xs, bytes = encodeList encode xs ++ rest ∧ ListFits fits xs ∧ build xs = y := by
  obtain ⟨count, middle, hcount, hnext⟩ := bind_sound h
  obtain ⟨xs, middle', hxs, hpure⟩ := bind_sound hnext
  obtain ⟨rfl, rfl⟩ := pure_sound hpure
  obtain ⟨rfl, hfits⟩ := decodeWord_sound hcount
  obtain ⟨rfl, rfl, hall⟩ := decodeMany_sound hitem hxs
  exact ⟨xs, (List.append_assoc ..).symm, ⟨hfits, hall⟩, rfl⟩

theorem decodeMap_sound {m : StringMap String} (h : decodeMap bytes = .ok (m, rest)) :
    ∃ l, bytes = encodeList encodeEntry l ++ rest ∧ ListFits EntryFits l ∧
      StringMap.ofList l = m :=
  decodeList_sound decodeEntry_sound h

theorem decodeSet_sound {s : StringSet} (h : decodeSet bytes = .ok (s, rest)) :
    ∃ l, bytes = encodeList encodeText l ++ rest ∧ ListFits TextFits l ∧ StringSet.ofList l = s :=
  decodeList_sound decodeText_sound h

/-! ### Payloads -/

theorem decodeSerializers_sound {s : Serializers} (h : decodeSerializers bytes = .ok (s, rest)) :
    ∃ defaults kryoTypes pojoTypes,
      (∀ jobParameters, bytes =
        encodeListedSerializers s ⟨defaults, kryoTypes, pojoTypes, jobParameters⟩ ++ rest) ∧
      (ListFits EntryFits defaults ∧ StringMap.ofList defaults = s.defaults) ∧
      (ListFits TextFits kryoTypes ∧ StringSet.ofList kryoTypes = s.kryoTypes) ∧
      (ListFits TextFits pojoTypes ∧ StringSet.ofList pojoTypes = s.pojoTypes) := by
  obtain ⟨_, _, hforceKryo, h⟩ := bind_sound h
  obtain ⟨_, _, hgenericTypes, h⟩ := bind_sound h
  obtain ⟨_, _, hforceAvro, h⟩ := bind_sound h
  obtain ⟨_, _, hdefaults, h⟩ := bind_sound h
  obtain ⟨_, _, hkryo, h⟩ := bind_sound h
  obtain ⟨_, _, hpojo, h⟩ := bind_sound h
  obtain ⟨rfl, rfl⟩ := pure_sound h
  obtain rfl := decodeFlag_sound hforceKryo
  obtain rfl := decodeFlag_sound hgenericTypes
  obtain rfl := decodeFlag_sound hforceAvro
  obtain ⟨defaults, rfl, hdefaultsOf⟩ := decodeMap_sound hdefaults
  obtain ⟨kryoTypes, rfl, hkryoOf⟩ := decodeSet_sound hkryo
  obtain ⟨pojoTypes, rfl, hpojoOf⟩ := decodeSet_sound hpojo
  refine ⟨defaults, kryoTypes, pojoTypes, fun jobParameters => ?_, hdefaultsOf, hkryoOf, hpojoOf⟩
  simp only [encodeListedSerializers, List.append_assoc]

theorem decodeConfig_sound {c : Config} (h : decodeConfig bytes = .ok (c, rest)) :
    ∃ l : Listing, bytes = encodeListedConfig c l ++ rest ∧ l.Fits ∧ l.Builds c := by
  -- The decoder is walked through first, so that `c` is a record of its parts; then
  -- the bytes of each part take the place of what was left when it was decoded.
  obtain ⟨_, _, hcleanerLevel, h⟩ := bind_sound h
  obtain ⟨_, _, hwatermark, h⟩ := bind_sound h
  obtain ⟨_, _, hlatency, h⟩ := bind_sound h
  obtain ⟨_, _, hparallelism, h⟩ := bind_sound h
  obtain ⟨_, _, hmaxParallelism, h⟩ := bind_sound h
  obtain ⟨_, _, hinterval, h⟩ := bind_sound h
  obtain ⟨_, _, htimeout, h⟩ := bind_sound h
  obtain ⟨_, _, hserializers, h⟩ := bind_sound h
  obtain ⟨_, _, hautoUids, h⟩ := bind_sound h
  obtain ⟨_, _, hobjectReuse, h⟩ := bind_sound h
  obtain ⟨_, _, hparameters, h⟩ := bind_sound h
  obtain ⟨_, _, hcompression, h⟩ := bind_sound h
  obtain ⟨rfl, rfl⟩ := pure_sound h
  obtain rfl := decodeLevel_sound hcleanerLevel
  obtain rfl := decodeInt64_sound hwatermark
  obtain rfl := decodeInt64_sound hlatency
  obtain rfl := decodeInt32_sound hparallelism
  obtain rfl := decodeInt32_sound hmaxParallelism
  obtain rfl := decodeInt64_sound hinterval
  obtain rfl := decodeInt64_sound htimeout
  obtain ⟨defaults, kryoTypes, pojoTypes, hbytes, hdefaults, hkryo, hpojo⟩ :=
    decodeSerializers_sound hserializers
  obtain rfl := decodeFlag_sound hautoUids
  obtain rfl := decodeFlag_sound hobjectReuse
  obtain ⟨jobParameters, rfl, hfits, hof⟩ := decodeMap_sound hparameters
  obtain rfl := decodeFlag_sound hcompression
  refine ⟨⟨defaults, kryoTypes, pojoTypes, jobParameters⟩, ?_,
    ⟨hdefaults.1, hkryo.1, hpojo.1, hfits⟩, ⟨hdefaults.2, hkryo.2, hpojo.2, hof⟩⟩
  rw [hbytes jobParameters]
  simp only [encodeListedConfig, List.append_assoc]

/-- What is decoded to a payload: its bytes, with its collections listed in any way. -/
theorem decoder_eq_ok_iff {p : Payload} :
    Payload.decoder bytes = .ok (p, rest) ↔
      TextFits p.jobName ∧
        ∃ l : Listing, bytes = p.listedBytes l ++ rest ∧ l.Fits ∧ l.Builds p.config := by
  constructor
  · intro h
    obtain ⟨_, _, hname, h⟩ := bind_sound h
    obtain ⟨_, _, hconfig, h⟩ := bind_sound h
    obtain ⟨rfl, rfl⟩ := pure_sound h
    obtain ⟨rfl, hfits⟩ := decodeText_sound hname
    obtain ⟨l, rfl, hl⟩ := decodeConfig_sound hconfig
    exact ⟨hfits, l, (List.append_assoc ..).symm, hl⟩
  · rintro ⟨hname, l, rfl, hfits, hbuilds⟩
    exact Listing.decodes_payload hname hfits hbuilds rest

/-- The bytes used for a payload with a valid config list its collections in one
way, and of the values listed for a key the payload holds the last. Encoded
again, the payload has no more bytes, and the same ones exactly when every
collection was listed in strictly ascending order. -/
theorem canonical_encoding {p : Payload} (hdecode : decode bytes = .ok p)
    (hvalid : p.config.validate.value = .ok ()) :
    ∃ n ≤ bytes.length, Payload.decoder bytes = .ok (p, bytes.drop n) ∧
      ∃ l : Listing, l.IsIn (bytes.take n) p ∧ (∀ l' : Listing, l'.IsIn (bytes.take n) p → l' = l) ∧
        l.HeldBy p.config ∧
        ∃ encoded, (encode p.jobName p.config).value = .ok encoded ∧ encoded.length ≤ n ∧
          (encoded = bytes.take n ↔ l.Ascending) := by
  cases hdecoder : Payload.decoder bytes with
  | error fault =>
    rw [decode_of_error hdecoder] at hdecode
    cases hdecode
  | ok result =>
    obtain ⟨q, rest⟩ := result
    rw [decode_of_ok hdecoder] at hdecode
    obtain rfl := Except.ok.inj hdecode
    obtain ⟨-, l, rfl, hfits, hbuilds⟩ := decoder_eq_ok_iff.1 hdecoder
    have hin : l.IsIn (q.listedBytes l) q := ⟨hfits, rfl⟩
    refine ⟨(q.listedBytes l).length, by simp, by simp, ?_⟩
    rw [List.take_left]
    refine ⟨l, hin, fun l' => hin.unique, hbuilds.heldBy, q.toBytes, value_encode hvalid q.jobName,
      ?_, Listing.toBytes_eq_iff hfits hbuilds⟩
    rw [hbuilds.toBytes_eq]
    exact Listing.length_sorted_le q l

/-- The collections of `countedWords` out of order, one key twice. -/
def shuffledWords : Listing where
  defaults := [("a.Größe", "a.Serializer")]
  kryoTypes := ["org.example.イベント", "org.example.Event"]
  pojoTypes := []
  jobParameters := [("😀", ""), ("env", "\"testing\""), ("env", "\"staging\"")]

theorem canonical_encoding_shuffledWords :
    let p : Payload := ⟨"compte de mots é", countedWords⟩
    let bytes := p.listedBytes shuffledWords ++ [0, 255]
    decode bytes = .ok p ∧ p.config.validate.value = .ok () ∧
      ∃ n ≤ bytes.length, Payload.decoder bytes = .ok (p, bytes.drop n) ∧
        ∃ l : Listing, l.IsIn (bytes.take n) p ∧
          (∀ l' : Listing, l'.IsIn (bytes.take n) p → l' = l) ∧ l.HeldBy p.config ∧
          ∃ encoded, (encode p.jobName p.config).value = .ok encoded ∧ encoded.length ≤ n ∧
            (encoded = bytes.take n ↔ l.Ascending) := by
  intro p bytes
  have hname : TextFits p.jobName := by decide
  have hfits : shuffledWords.Fits := by decide
  have hbuilds : shuffledWords.Builds p.config := by
    refine ⟨?_, ?_, ?_, ?_⟩
    all_goals decide
  have hdecode : decode bytes = .ok p :=
    decode_of_ok (Listing.decodes_payload hname hfits hbuilds [0, 255])
  have hvalid : p.config.validate.value = .ok () := rfl
  exact ⟨hdecode, hvalid, canonical_encoding hdecode hvalid⟩

end JobConfig.Submission
