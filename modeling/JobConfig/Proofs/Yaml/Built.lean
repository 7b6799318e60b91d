import JobConfig.Yaml.Value.Builder

/-!
What holds of every value that is read from a document: it nests no deeper than
the reader goes, and a mapping has each of its keys once.

The reader threads a count through its steps and may stop anywhere, so the
invariant is about what a step gives if it gives something (`Build.Ensures`).
-/

namespace JobConfig.Yaml

/-! ### Steps that may be refused -/

namespace Build

variable {α β : Type}

/-- Unless it is refused, the computation gives something with the property. -/
def Ensures (x : Build α) (P : α → Prop) : Prop :=
  ∀ n r, x n = some r → P r.1

variable {P : α → Prop} {Q : β → Prop}

theorem ensures_pure {a : α} (h : P a) : Ensures (pure a) P := by
  rintro n r hr
  obtain rfl := Option.some.inj hr
  exact h

theorem ensures_refuse : Ensures refuse P := by
  rintro n r hr
  cases hr

theorem ensures_need {x : Option α} (h : ∀ a, x = some a → P a) : Ensures (need x) P := by
  rintro n r hr
  obtain ⟨a, ha, rfl⟩ := Option.map_eq_some_iff.1 hr
  exact h a ha

theorem Ensures.bind {x : Build α} {f : α → Build β} (hx : x.Ensures P)
    (hf : ∀ a, P a → (f a).Ensures Q) : (x >>= f).Ensures Q := by
  rintro n r hr
  obtain ⟨⟨a, n'⟩, ha, hr⟩ := Option.bind_eq_some_iff.1 hr
  exact hf a (hx n _ ha) n' r hr

theorem Ensures.trivial (x : Build α) : x.Ensures fun _ => True :=
  fun _ _ _ => True.intro

end Build

/-! ### Values -/

/-- A value that nests at most so many levels of collections, each mapping in it
with every key once. -/
inductive Value.Built : Nat → Value → Prop
  | null {depth : Nat} : Built depth .null
  | bool {depth : Nat} (b : Bool) : Built depth (.bool b)
  | integer {depth : Nat} (n : WideInt) : Built depth (.integer n)
  | float {depth : Nat} (x : Extended64) : Built depth (.float x)
  | string {depth : Nat} (s : String) : Built depth (.string s)
  | sequence {depth : Nat} {items : List Value} (hitems : ∀ x ∈ items, Built depth x) :
      Built (depth + 1) (.sequence items)
  | mapping {depth : Nat} {entries : List (Value × Value)}
      (hdistinct : entries.Pairwise fun a b => a.1.same b.1 = false)
      (hkeys : ∀ e ∈ entries, Built depth e.1) (hvalues : ∀ e ∈ entries, Built depth e.2) :
      Built (depth + 1) (.mapping entries)
  | tagged {depth : Nat} (tag : String) {value : Value} (hvalue : Built depth value) :
      Built depth (.tagged tag value)

/-- What the reader of nodes gives nests at most so many levels. -/
def Sound (read : NodeReader) (depth : Nat) : Prop :=
  ∀ tagRead node, (read tagRead node).Ensures (Value.Built depth)

/-- The reader of what stands in a collection, if there is one, leaves a level
for the collection itself. -/
def NestedSound (nested : Option NodeReader) (depth : Nat) : Prop :=
  ∀ read, nested = some read → ∃ inner, depth = inner + 1 ∧ Sound read inner

open Build (ensures_pure ensures_refuse ensures_need)

theorem built_of_plainValue? {text : String} {v : Value} (h : plainValue? text = some v)
    (depth : Nat) : v.Built depth := by
  rw [plainValue?] at h
  split at h
  · cases h; exact .null
  split at h
  · cases h; exact .bool _
  split at h
  · cases h; exact .integer _
  · cases h
  split at h <;> cases h
  · exact .float _
  · exact .string _

theorem built_of_scalarValue? {tag : Option (List UInt8)} {text : String} {plain : Bool} {v : Value}
    (h : scalarValue? tag text plain = some v) (depth : Nat) : v.Built depth := by
  delta scalarValue? at h
  split at h
  · split at h
    · exact built_of_plainValue? h depth
    · cases h; exact .string _
  split at h
  · obtain ⟨b, -, rfl⟩ := Option.map_eq_some_iff.1 h
    exact .bool b
  split at h
  · split at h <;> cases h
    exact .integer _
  split at h
  · obtain ⟨x, -, rfl⟩ := Option.map_eq_some_iff.1 h
    exact .float x
  split at h
  · split at h <;> cases h
    exact .null
  split at h
  · exact built_of_plainValue? h depth
  · cases h; exact .string _

/-! ### Collections -/

variable {read : NodeReader} {depth : Nat}

theorem ensures_buildItems (hread : Sound read depth)
    (items : List (Node Nat)) :
    (buildItems read items).Ensures fun vs => ∀ v ∈ vs, v.Built depth := by
  induction items with
  | nil => exact ensures_pure (by simp)
  | cons x rest ih =>
    refine (hread false x).bind fun v hv => ih.bind fun vs hvs => ensures_pure ?_
    exact List.forall_mem_cons.2 ⟨hv, hvs⟩

/-- One more entry behind others, if its key is none of theirs. -/
theorem Value.Built.mapping_concat {entries : List (Value × Value)} {k v : Value}
    (h : (Value.mapping entries).Built (depth + 1)) (hfresh : ∀ e ∈ entries, e.1.same k = false)
    (hk : k.Built depth) (hv : v.Built depth) :
    (Value.mapping (entries ++ [(k, v)])).Built (depth + 1) := by
  cases h with
  | mapping hdistinct hkeys hvalues =>
    refine .mapping ?_ ?_ ?_
    · rw [List.pairwise_append]
      exact ⟨hdistinct, List.pairwise_singleton _ _, by simpa using hfresh⟩
    · exact List.forall_mem_append.2 ⟨hkeys, by simpa using hk⟩
    · exact List.forall_mem_append.2 ⟨hvalues, by simpa using hv⟩

theorem ensures_buildEntries (hread : Sound read depth)
    (tagRead : Bool) {before : List (Value × Value)}
    (hbefore : (Value.mapping before.reverse).Built (depth + 1))
    (entries : List (Node Nat × Node Nat)) :
    (buildEntries read tagRead before entries).Ensures
      fun es => (Value.mapping es).Built (depth + 1) := by
  induction entries generalizing before with
  | nil => exact ensures_pure hbefore
  | cons e rest ih =>
    refine (hread tagRead e.1).bind fun k hk => ?_
    split
    · exact ensures_refuse
    · rename_i hfresh
      refine (hread false e.2).bind fun v hv => ih ?_
      rw [List.reverse_cons]
      refine hbefore.mapping_concat ?_ hk hv
      simpa using hfresh

/-! ### Nodes -/

theorem ensures_buildPlain {nested : Option NodeReader}
    (hnested : NestedSound nested depth) (tagRead : Bool) (node : Node Nat) :
    (buildPlain nested tagRead node).Ensures (Value.Built depth) := by
  delta buildPlain
  extract_lets wrap
  have hwrap : ∀ p body, (∀ t, (body t).Ensures (Value.Built depth)) →
      (wrap p body).Ensures (Value.Built depth) := by
    intro p body hbody
    simp only [wrap]
    split
    · exact hbody _
    · exact (hbody true).bind fun v hv => ensures_pure (.tagged _ hv)
  cases node with
  | reference number => exact ensures_refuse
  | scalar p text plain =>
    dsimp only
    apply hwrap
    exact fun t => ensures_need fun v hv => built_of_scalarValue? hv depth
  | sequence p items =>
    cases nested with
    | none => exact ensures_refuse
    | some read =>
      obtain ⟨inner, rfl, hread⟩ := hnested read rfl
      exact hwrap p _ fun t =>
        (ensures_buildItems hread items).bind fun vs hvs => ensures_pure (.sequence hvs)
  | mapping p entries =>
    cases nested with
    | none => exact ensures_refuse
    | some read =>
      obtain ⟨inner, rfl, hread⟩ := hnested read rfl
      have hempty : (Value.mapping [].reverse).Built (inner + 1) :=
        .mapping .nil (by simp) (by simp)
      exact hwrap p _ fun t =>
        (ensures_buildEntries hread t hempty entries).bind fun es hes => ensures_pure hes

theorem sound_buildNode (g : Graph) {nested : Option NodeReader}
    (hnested : NestedSound nested depth) : Sound (buildNode g nested) depth := by
  intro tagRead node
  cases node with
  | reference number =>
    exact (Build.Ensures.trivial _).bind fun node _ => ensures_buildPlain hnested false node
  | scalar p text plain => exact ensures_buildPlain hnested tagRead (.scalar p text plain)
  | sequence p items => exact ensures_buildPlain hnested tagRead (.sequence p items)
  | mapping p entries => exact ensures_buildPlain hnested tagRead (.mapping p entries)

theorem sound_build (g : Graph) (depth : Nat) : Sound (build g depth) depth := by
  induction depth with
  | zero => exact sound_buildNode g (by simp [NestedSound])
  | succ depth ih =>
    refine sound_buildNode g ?_
    rintro read hread
    obtain rfl := Option.some.inj hread
    exact ⟨depth, rfl, ih⟩

/-! ### Documents -/

theorem ensures_buildDocument (g : Graph) {before : StringMap Value}
    (hbefore : ∀ e ∈ before.entries, e.2.Built (maxDepth - 1))
    (entries : List (Node Nat × Node Nat)) :
    (buildDocument g before entries).Ensures
      fun m => ∀ e ∈ m.entries, e.2.Built (maxDepth - 1) := by
  induction entries generalizing before with
  | nil => exact ensures_pure hbefore
  | cons e rest ih =>
    refine (Build.Ensures.trivial _).bind fun k _ =>
      (sound_build g _ false e.2).bind fun v hv => ih ?_
    intro e he
    rcases StringMap.mem_insertEntry he with rfl | he
    · exact hv
    · exact hbefore e he

/-- Within the mapping of a document every value nests at most 127 levels, and
holds no key twice. -/
theorem built_of_parse? {bytes : List UInt8} {values : StringMap Value}
    (h : parse? bytes = some values) : ∀ e ∈ values.entries, e.2.Built 127 := by
  simp only [parse?, Option.bind_eq_bind, Option.bind_eq_some_iff] at h
  obtain ⟨cs, -, tokens, -, node, -, g, -, h⟩ := h
  split at h
  · split at h <;> cases h
    simp [StringMap.empty]
  · obtain ⟨r, hr, rfl⟩ := Option.map_eq_some_iff.1 h
    exact ensures_buildDocument g (by simp [StringMap.empty]) _ 0 r hr
  · cases h

end JobConfig.Yaml
