import JobConfig.Proofs.Submission.Listing

/-!
The submission payload is decoded from its own bytes, whatever follows them, as
long as every count fits its word.
-/

namespace JobConfig.Submission

structure ConfigFits (c : Config) : Prop where
  defaults : MapFits c.serializers.defaults
  kryoTypes : SetFits c.serializers.kryoTypes
  pojoTypes : SetFits c.serializers.pojoTypes
  jobParameters : MapFits c.jobParameters

instance (c : Config) : Decidable (ConfigFits c) :=
  decidable_of_iff (MapFits c.serializers.defaults ∧ SetFits c.serializers.kryoTypes ∧
      SetFits c.serializers.pojoTypes ∧ MapFits c.jobParameters)
    ⟨fun ⟨h₁, h₂, h₃, h₄⟩ => ⟨h₁, h₂, h₃, h₄⟩, fun ⟨h₁, h₂, h₃, h₄⟩ => ⟨h₁, h₂, h₃, h₄⟩⟩

theorem ConfigFits.listing {c : Config} (h : ConfigFits c) : (Listing.ofConfig c).Fits where
  defaults := h.defaults.entries
  kryoTypes := h.kryoTypes.toList
  pojoTypes := h.pojoTypes.toList
  jobParameters := h.jobParameters.entries

theorem decodes_payload {p : Payload} (hname : TextFits p.jobName) (hconfig : ConfigFits p.config) :
    Decodes Payload.decoder p.toBytes p := by
  rw [Listing.toBytes_eq]
  exact Listing.decodes_payload hname hconfig.listing (Listing.builds_ofConfig p.config)

theorem value_encode {c : Config} (h : c.validate.value = .ok ()) (jobName : String) :
    (encode jobName c).value = .ok (Payload.mk jobName c).toBytes := by
  simp only [encode, Traced.andThenOk, Traced.value_andThen, h]

/-- A valid config is encoded together with the name of its job, and decoding
the bytes gives both back and passes over whatever follows. -/
theorem payload_round_trip {jobName : String} {c : Config} (hvalid : c.validate.value = .ok ())
    (hname : TextFits jobName) (hconfig : ConfigFits c) :
    ∃ bytes, (encode jobName c).value = .ok bytes ∧
      ∀ rest, decode (bytes ++ rest) = .ok ⟨jobName, c⟩ := by
  refine ⟨_, value_encode hvalid jobName, ?_⟩
  intro rest
  have hpayload := decodes_payload (p := ⟨jobName, c⟩) hname hconfig rest
  rw [decode, hpayload]

def countedWords : Config where
  cleanerLevel := .topLevel
  latencyInterval := -5
  parallelism := -2
  maxParallelism := 32768
  serializers :=
    { genericTypesDisabled := true
      defaults := StringMap.ofList [("a.Größe", "a.Serializer")]
      kryoTypes := StringSet.ofList ["org.example.Event", "org.example.イベント"] }
  objectReuse := true
  jobParameters := StringMap.ofList [("env", "\"staging\""), ("😀", "")]

theorem payload_round_trip_countedWords :
    countedWords.validate.value = .ok () ∧ TextFits "compte de mots é" ∧
      ConfigFits countedWords ∧
      ∃ bytes, (encode "compte de mots é" countedWords).value = .ok bytes ∧
        ∀ rest, decode (bytes ++ rest) = .ok ⟨"compte de mots é", countedWords⟩ := by
  have hvalid : countedWords.validate.value = .ok () := rfl
  have hname : TextFits "compte de mots é" := by decide
  have hconfig : ConfigFits countedWords := by decide
  exact ⟨hvalid, hname, hconfig, payload_round_trip hvalid hname hconfig⟩

end JobConfig.Submission
