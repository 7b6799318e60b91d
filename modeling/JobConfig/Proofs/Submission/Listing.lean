import JobConfig.Submission.Payload
import JobConfig.Proofs.Submission.Wire
import JobConfig.Proofs.Utf8.Order

/-!
The bytes of a payload with its collections listed in any way. A collection goes
over the wire as a list; the config holds the map or the set built from it, which
forgets the order of the list and all but the last of the entries with one key.
The bytes that a payload itself is encoded to list each collection in the order
of its keys.
-/

namespace JobConfig.Submission

/-- The collections of a config as lists. -/
structure Listing where
  defaults : List (String × String)
  kryoTypes : List String
  pojoTypes : List String
  jobParameters : List (String × String)
deriving DecidableEq

/-! ### Bytes -/

def encodeListedSerializers (s : Serializers) (l : Listing) : List UInt8 :=
  encodeFlag s.forceKryo ++ encodeFlag s.genericTypesDisabled ++ encodeFlag s.forceAvro ++
    encodeList encodeEntry l.defaults ++ encodeList encodeText l.kryoTypes ++
    encodeList encodeText l.pojoTypes

def encodeListedConfig (c : Config) (l : Listing) : List UInt8 :=
  encodeLevel c.cleanerLevel ++ encodeInt64 c.watermarkInterval ++ encodeInt64 c.latencyInterval ++
    encodeInt32 c.parallelism ++ encodeInt32 c.maxParallelism ++
    encodeInt64 c.cancellationInterval ++ encodeInt64 c.cancellationTimeout ++
    encodeListedSerializers c.serializers l ++ encodeFlag c.autoUids ++ encodeFlag c.objectReuse ++
    encodeList encodeEntry l.jobParameters ++ encodeFlag c.snapshotCompression

def Payload.listedBytes (p : Payload) (l : Listing) : List UInt8 :=
  encodeText p.jobName ++ encodeListedConfig p.config l

namespace Listing

def ofConfig (c : Config) : Listing where
  defaults := c.serializers.defaults.entries
  kryoTypes := c.serializers.kryoTypes.toList
  pojoTypes := c.serializers.pojoTypes.toList
  jobParameters := c.jobParameters.entries

theorem toBytes_eq (p : Payload) : p.toBytes = p.listedBytes (ofConfig p.config) := by
  simp only [Payload.toBytes, Payload.listedBytes, encodeConfig, encodeListedConfig,
    encodeSerializers, encodeListedSerializers, ofConfig, encodeMap_eq, encodeSet_eq]

structure Fits (l : Listing) : Prop where
  defaults : ListFits EntryFits l.defaults
  kryoTypes : ListFits TextFits l.kryoTypes
  pojoTypes : ListFits TextFits l.pojoTypes
  jobParameters : ListFits EntryFits l.jobParameters

instance (l : Listing) : Decidable l.Fits :=
  decidable_of_iff (ListFits EntryFits l.defaults ∧ ListFits TextFits l.kryoTypes ∧
      ListFits TextFits l.pojoTypes ∧ ListFits EntryFits l.jobParameters)
    ⟨fun ⟨h₁, h₂, h₃, h₄⟩ => ⟨h₁, h₂, h₃, h₄⟩, fun ⟨h₁, h₂, h₃, h₄⟩ => ⟨h₁, h₂, h₃, h₄⟩⟩

/-- Whether the collections of a config are those built from the lists. -/
structure Builds (l : Listing) (c : Config) : Prop where
  defaults : StringMap.ofList l.defaults = c.serializers.defaults
  kryoTypes : StringSet.ofList l.kryoTypes = c.serializers.kryoTypes
  pojoTypes : StringSet.ofList l.pojoTypes = c.serializers.pojoTypes
  jobParameters : StringMap.ofList l.jobParameters = c.jobParameters

theorem builds_ofConfig (c : Config) : (ofConfig c).Builds c where
  defaults := StringMap.ofList_entries _
  kryoTypes := StringSet.ofList_toList _
  pojoTypes := StringSet.ofList_toList _
  jobParameters := StringMap.ofList_entries _

variable {l l' : Listing} {c : Config} {p : Payload}

/-! ### Decoding -/

theorem decodes_serializers (hfits : l.Fits) (hbuilds : l.Builds c) :
    Decodes decodeSerializers (encodeListedSerializers c.serializers l) c.serializers := by
  have hdefaults := decodes_entries hfits.defaults
  have hkryo := decodes_members hfits.kryoTypes
  have hpojo := decodes_members hfits.pojoTypes
  rw [hbuilds.defaults] at hdefaults
  rw [hbuilds.kryoTypes] at hkryo
  rw [hbuilds.pojoTypes] at hpojo
  unfold encodeListedSerializers
  simp only [List.append_assoc]
  refine (decodes_flag c.serializers.forceKryo).bind ?_
  refine (decodes_flag c.serializers.genericTypesDisabled).bind ?_
  refine (decodes_flag c.serializers.forceAvro).bind ?_
  exact hdefaults.bind (hkryo.bind (hpojo.bind_pure _))

theorem decodes_config (hfits : l.Fits) (hbuilds : l.Builds c) :
    Decodes decodeConfig (encodeListedConfig c l) c := by
  have hparameters := decodes_entries hfits.jobParameters
  rw [hbuilds.jobParameters] at hparameters
  unfold encodeListedConfig
  simp only [List.append_assoc]
  refine (decodes_level c.cleanerLevel).bind ?_
  refine (decodes_int64 c.watermarkInterval).bind ?_
  refine (decodes_int64 c.latencyInterval).bind ?_
  refine (decodes_int32 c.parallelism).bind ?_
  refine (decodes_int32 c.maxParallelism).bind ?_
  refine (decodes_int64 c.cancellationInterval).bind ?_
  refine (decodes_int64 c.cancellationTimeout).bind ?_
  refine (decodes_serializers hfits hbuilds).bind ?_
  refine (decodes_flag c.autoUids).bind ?_
  refine (decodes_flag c.objectReuse).bind ?_
  exact hparameters.bind ((decodes_flag c.snapshotCompression).bind_pure _)

/-- Whatever the order of the listing and however often it has a key, its bytes
are decoded to the payload with the collections that are built from it. -/
theorem decodes_payload (hname : TextFits p.jobName) (hfits : l.Fits) (hbuilds : l.Builds p.config) :
    Decodes Payload.decoder (p.listedBytes l) p :=
  (decodes_text hname).bind ((decodes_config hfits hbuilds).bind_pure _)

/-! ### One listing -/

/-- Whether bytes are those of a payload with its collections listed as `l` says. -/
structure IsIn (l : Listing) (bytes : List UInt8) (p : Payload) : Prop where
  fits : l.Fits
  eq : bytes = p.listedBytes l

theorem listedBytes_inj (h : l.Fits) (h' : l'.Fits) (heq : p.listedBytes l = p.listedBytes l') :
    l = l' := by
  simp only [Payload.listedBytes, encodeListedConfig, encodeListedSerializers, List.append_assoc,
    List.append_cancel_left_eq] at heq
  obtain ⟨hdefaults, heq⟩ := encodeList_inj decodes_entry h.defaults h'.defaults heq
  obtain ⟨hkryo, heq⟩ := encodeList_inj (fun _ => decodes_text) h.kryoTypes h'.kryoTypes heq
  obtain ⟨hpojo, heq⟩ := encodeList_inj (fun _ => decodes_text) h.pojoTypes h'.pojoTypes heq
  simp only [List.append_cancel_left_eq] at heq
  obtain ⟨hparameters, -⟩ := encodeList_inj decodes_entry h.jobParameters h'.jobParameters heq
  cases l
  cases l'
  simp only [mk.injEq]
  exact ⟨hdefaults, hkryo, hpojo, hparameters⟩

theorem IsIn.unique {bytes : List UInt8} (h : l.IsIn bytes p) (h' : l'.IsIn bytes p) : l' = l :=
  listedBytes_inj h'.fits h.fits (h'.eq.symm.trans h.eq)

/-! ### The listing in order -/

/-- What is left of a listing in the collections built from it: each in order, and
of the entries with one key the last. -/
def sorted (l : Listing) : Listing where
  defaults := (StringMap.ofList l.defaults).entries
  kryoTypes := (StringSet.ofList l.kryoTypes).toList
  pojoTypes := (StringSet.ofList l.pojoTypes).toList
  jobParameters := (StringMap.ofList l.jobParameters).entries

theorem Builds.ofConfig_eq (h : l.Builds c) : ofConfig c = l.sorted := by
  rw [ofConfig, sorted, h.defaults, h.kryoTypes, h.pojoTypes, h.jobParameters]

theorem Builds.toBytes_eq (h : l.Builds p.config) : p.toBytes = p.listedBytes l.sorted := by
  rw [Listing.toBytes_eq, h.ofConfig_eq]

theorem Fits.sorted (h : l.Fits) : l.sorted.Fits where
  defaults := h.defaults.of_subset (StringMap.length_entries_ofList_le _)
    fun _ => StringMap.mem_of_mem_entries_ofList
  kryoTypes := h.kryoTypes.of_subset (StringSet.length_toList_ofList_le _)
    fun x => (StringSet.mem_toList_ofList_iff _ x).1
  pojoTypes := h.pojoTypes.of_subset (StringSet.length_toList_ofList_le _)
    fun x => (StringSet.mem_toList_ofList_iff _ x).1
  jobParameters := h.jobParameters.of_subset (StringMap.length_entries_ofList_le _)
    fun _ => StringMap.mem_of_mem_entries_ofList

theorem length_sorted_le (p : Payload) (l : Listing) :
    (p.listedBytes l.sorted).length ≤ (p.listedBytes l).length := by
  have hdefaults := StringMap.length_flatMap_ofList_le encodeEntry l.defaults
  have hkryo := StringSet.length_flatMap_ofList_le encodeText l.kryoTypes
  have hpojo := StringSet.length_flatMap_ofList_le encodeText l.pojoTypes
  have hparameters := StringMap.length_flatMap_ofList_le encodeEntry l.jobParameters
  simp only [Payload.listedBytes, encodeListedConfig, encodeListedSerializers, List.length_append,
    length_encodeList, sorted]
  omega

def Ascend (xs : List String) : Prop :=
  xs.Pairwise fun x y => Utf8.encode x < Utf8.encode y

structure Ascending (l : Listing) : Prop where
  defaults : Ascend (l.defaults.map Prod.fst)
  kryoTypes : Ascend l.kryoTypes
  pojoTypes : Ascend l.pojoTypes
  jobParameters : Ascend (l.jobParameters.map Prod.fst)

theorem ascend_iff {xs : List String} : Ascend xs ↔ xs.Pairwise (· < ·) := by
  simp only [Ascend, Utf8.encode_lt_iff]

theorem ascend_keys_iff {xs : List (String × String)} :
    Ascend (xs.map Prod.fst) ↔ (StringMap.ofList xs).entries = xs := by
  rw [ascend_iff, List.pairwise_map, StringMap.entries_ofList_eq_iff]

theorem ascend_members_iff {xs : List String} :
    Ascend xs ↔ (StringSet.ofList xs).toList = xs := by
  rw [ascend_iff, StringSet.toList_ofList_eq_iff]

theorem ascending_iff : l.Ascending ↔ l.sorted = l := by
  constructor
  · intro h
    rw [sorted, ascend_keys_iff.1 h.defaults, ascend_members_iff.1 h.kryoTypes,
      ascend_members_iff.1 h.pojoTypes, ascend_keys_iff.1 h.jobParameters]
  · intro h
    exact ⟨ascend_keys_iff.2 (congrArg defaults h), ascend_members_iff.2 (congrArg kryoTypes h),
      ascend_members_iff.2 (congrArg pojoTypes h), ascend_keys_iff.2 (congrArg jobParameters h)⟩

/-- Whether `v` is the value of the last entry with the key `k`. -/
def LastOf (entries : List (String × String)) (k v : String) : Prop :=
  ∃ before after, entries = before ++ (k, v) :: after ∧ ∀ e ∈ after, e.1 ≠ k

/-- Whether a config holds what is listed, of a repeated key the last value. -/
structure HeldBy (l : Listing) (c : Config) : Prop where
  defaults : ∀ k v, c.serializers.defaults.get? k = some v ↔ LastOf l.defaults k v
  kryoTypes : ∀ x, x ∈ c.serializers.kryoTypes.toList ↔ x ∈ l.kryoTypes
  pojoTypes : ∀ x, x ∈ c.serializers.pojoTypes.toList ↔ x ∈ l.pojoTypes
  jobParameters : ∀ k v, c.jobParameters.get? k = some v ↔ LastOf l.jobParameters k v

theorem Builds.heldBy (h : l.Builds c) : l.HeldBy c where
  defaults k v := by
    rw [← h.defaults]
    exact StringMap.get?_ofList_eq_some_iff_last l.defaults k v
  kryoTypes x := by
    rw [← h.kryoTypes]
    exact StringSet.mem_toList_ofList_iff l.kryoTypes x
  pojoTypes x := by
    rw [← h.pojoTypes]
    exact StringSet.mem_toList_ofList_iff l.pojoTypes x
  jobParameters k v := by
    rw [← h.jobParameters]
    exact StringMap.get?_ofList_eq_some_iff_last l.jobParameters k v

/-- A payload is encoded to the bytes of a listing exactly when the listing is in order. -/
theorem toBytes_eq_iff (hfits : l.Fits) (hbuilds : l.Builds p.config) :
    p.toBytes = p.listedBytes l ↔ l.Ascending := by
  rw [ascending_iff, hbuilds.toBytes_eq]
  constructor
  · exact listedBytes_inj hfits.sorted hfits
  · intro heq
    rw [heq]

end Listing

end JobConfig.Submission
