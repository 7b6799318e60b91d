import JobConfig.StringMap

/-!
Laws of finite maps: what a map built from a list holds, and that a map is
rebuilt from its own entries.
-/

namespace JobConfig

namespace StringMap

variable {β γ : Type}

/-! ### Look-ups -/

theorem lookup_eq_some_iff_mem {l : List (String × β)}
    (hl : l.Pairwise (fun a b => a.1 ≠ b.1)) (k : String) (v : β) :
    l.lookup k = some v ↔ (k, v) ∈ l := by
  induction l with
  | nil => simp
  | cons a rest ih =>
    obtain ⟨k', v'⟩ := a
    obtain ⟨hhead, htail⟩ := List.pairwise_cons.1 hl
    rw [lookup_cons_eq_ite]
    split
    · rename_i hk
      subst hk
      have hfresh : (k, v) ∉ rest := fun hm => hhead _ hm rfl
      simp [hfresh, eq_comm]
    · rename_i hk
      rw [ih htail]
      simp [hk]

theorem entries_ne (m : StringMap β) : m.entries.Pairwise (fun a b => a.1 ≠ b.1) := by
  refine m.ascending.imp ?_
  intro a b hlt heq
  rw [heq] at hlt
  exact String.lt_irrefl _ hlt

/-- The entries of a map are its look-ups that find something. -/
theorem mem_entries_iff (m : StringMap β) (k : String) (v : β) :
    (k, v) ∈ m.entries ↔ m.get? k = some v :=
  (lookup_eq_some_iff_mem m.entries_ne k v).symm

theorem mem_keys_iff (m : StringMap β) (k : String) : k ∈ m.keys ↔ ∃ v, m.get? k = some v := by
  simp [keys, ← mem_entries_iff]

theorem insert_of_get? {m : StringMap β} {k : String} {v : β} (h : m.get? k = some v) :
    m.insert k v = m := by
  refine ext_get? fun x => ?_
  rw [get?_insert]
  split
  · rename_i hx
    rw [hx, h]
  · rfl

theorem get?_insertAll (m : StringMap β) (l : List (String × β)) (k : String) :
    (m.insertAll l).get? k = (l.reverse.lookup k).or (m.get? k) := by
  induction l generalizing m with
  | nil => simp [insertAll]
  | cons e rest ih =>
    have hstep : m.insertAll (e :: rest) = (m.insert e.1 e.2).insertAll rest := rfl
    rw [hstep, ih, get?_insert, List.reverse_cons, List.lookup_append, Option.or_assoc]
    congr 1
    rw [lookup_cons_eq_ite]
    split <;> simp

/-- Of several entries with one key the last decides. -/
theorem get?_ofList (l : List (String × β)) (k : String) :
    (ofList l).get? k = l.reverse.lookup k := by
  simp [ofList, get?_insertAll]

theorem get?_ofList_eq_some_iff {l : List (String × β)}
    (hl : l.Pairwise (fun a b => a.1 ≠ b.1)) (k : String) (v : β) :
    (ofList l).get? k = some v ↔ (k, v) ∈ l := by
  have hreverse : l.reverse.Pairwise (fun a b => a.1 ≠ b.1) :=
    List.pairwise_reverse.2 (hl.imp Ne.symm)
  rw [get?_ofList, lookup_eq_some_iff_mem hreverse, List.mem_reverse]

theorem get?_ofList_of_ne {l : List (String × β)} (hl : l.Pairwise (fun a b => a.1 ≠ b.1))
    (k : String) : (ofList l).get? k = l.lookup k := by
  refine Option.ext fun v => ?_
  rw [get?_ofList_eq_some_iff hl, lookup_eq_some_iff_mem hl]

/-! ### Keys below a bound -/

/-- The entries in front of an entry are those with a lesser key. -/
theorem filter_lt_eq {m : StringMap β} {before after : List (String × β)} {key : String} {value : β}
    (h : m.entries = before ++ (key, value) :: after) :
    m.entries.filter (fun e => e.1 < key) = before := by
  have hascending := m.ascending
  rw [h, List.pairwise_append, List.pairwise_cons] at hascending
  obtain ⟨-, ⟨hafter, -⟩, hbefore⟩ := hascending
  have hkeep : before.filter (fun e => e.1 < key) = before := by
    rw [List.filter_eq_self]
    intro e he
    simpa using hbefore e he (key, value) List.mem_cons_self
  have hdrop : after.filter (fun e => e.1 < key) = [] := by
    rw [List.filter_eq_nil_iff]
    intro e he
    have hnot : ¬ e.1 < key := fun hlt =>
      String.lt_irrefl _ (String.lt_trans hlt (hafter e he))
    simpa using hnot
  have hself : ((key, value) :: after).filter (fun e => e.1 < key) = [] := by
    rw [List.filter_cons_of_neg, hdrop]
    exact fun hlt => String.lt_irrefl key (of_decide_eq_true hlt)
  rw [h, List.filter_append, hkeep, hself, List.append_nil]

theorem lookup_filter_lt (l : List (String × β)) (key k : String) :
    (l.filter fun e => e.1 < key).lookup k = if k < key then l.lookup k else none := by
  induction l with
  | nil => simp
  | cons e rest ih =>
    obtain ⟨k', v⟩ := e
    by_cases hlt : k' < key
    · rw [List.filter_cons_of_pos (by simpa using hlt), lookup_cons_eq_ite, lookup_cons_eq_ite, ih]
      split
      · rename_i heq
        rw [heq, if_pos hlt]
      · rfl
    · rw [List.filter_cons_of_neg (by simpa using hlt), lookup_cons_eq_ite, ih]
      split
      · rename_i hk
        have hne : k ≠ k' := fun heq => hlt (heq ▸ hk)
        rw [if_neg hne]
      · rfl

/-! ### Maps from their own entries -/

/-- Building a map from the entries of a map gives that map back. -/
@[simp] theorem ofList_entries (m : StringMap β) : ofList m.entries = m := by
  refine ext_get? fun k => Option.ext fun v => ?_
  rw [get?_ofList_eq_some_iff m.entries_ne, mem_entries_iff]

/-- A list is the entries of the map built from it exactly when its keys ascend. -/
theorem entries_ofList_eq_iff {l : List (String × β)} :
    (ofList l).entries = l ↔ l.Pairwise (fun a b => a.1 < b.1) := by
  constructor
  · intro h
    rw [← h]
    exact (ofList l).ascending
  · intro h
    exact congrArg entries (ofList_entries ⟨l, h⟩)

/-! ### Maps from any entries -/

/-- The value at a key is that of the last entry with this key. -/
theorem get?_ofList_eq_some_iff_last (l : List (String × β)) (k : String) (v : β) :
    (ofList l).get? k = some v ↔
      ∃ before after, l = before ++ (k, v) :: after ∧ ∀ e ∈ after, e.1 ≠ k := by
  rw [get?_ofList, List.lookup_eq_some_iff]
  constructor
  · rintro ⟨later, earlier, hl, hlater⟩
    refine ⟨earlier.reverse, later.reverse, ?_, fun e he heq => ?_⟩
    · rw [← List.reverse_reverse l, hl]
      simp
    · have hne := hlater e (List.mem_reverse.1 he)
      simp [heq] at hne
  · rintro ⟨before, after, rfl, hafter⟩
    refine ⟨after.reverse, before.reverse, by simp, fun e he => ?_⟩
    have hne := hafter e (List.mem_reverse.1 he)
    simpa using hne.symm

theorem mem_of_mem_entries_ofList {l : List (String × β)} {e : String × β}
    (h : e ∈ (ofList l).entries) : e ∈ l := by
  rw [mem_entries_iff, get?_ofList_eq_some_iff_last] at h
  obtain ⟨before, after, rfl, -⟩ := h
  simp

theorem length_flatMap_insertEntry_le (f : String × β → List γ) (k : String) (v : β)
    (l : List (String × β)) :
    ((insertEntry k v l).flatMap f).length ≤ (f (k, v)).length + (l.flatMap f).length := by
  induction l with
  | nil => simp [insertEntry]
  | cons e rest ih =>
    obtain ⟨k', v'⟩ := e
    rw [insertEntry]
    split
    · simp
    split
    · simp
    · simp only [List.flatMap_cons, List.length_append]
      omega

theorem length_flatMap_insertAll_le (f : String × β → List γ) (m : StringMap β)
    (l : List (String × β)) :
    ((m.insertAll l).entries.flatMap f).length ≤
      (m.entries.flatMap f).length + (l.flatMap f).length := by
  induction l generalizing m with
  | nil => simp [insertAll]
  | cons e rest ih =>
    have hstep : m.insertAll (e :: rest) = (m.insert e.1 e.2).insertAll rest := rfl
    have hinsert : ((m.insert e.1 e.2).entries.flatMap f).length ≤
        (f e).length + (m.entries.flatMap f).length :=
      length_flatMap_insertEntry_le f e.1 e.2 m.entries
    have hrest := ih (m.insert e.1 e.2)
    rw [hstep, List.flatMap_cons, List.length_append]
    omega

/-- However entries are written out, those of a map take no more than the ones it
was built from. -/
theorem length_flatMap_ofList_le (f : String × β → List γ) (l : List (String × β)) :
    ((ofList l).entries.flatMap f).length ≤ (l.flatMap f).length := by
  have hlength := length_flatMap_insertAll_le f empty l
  rwa [empty, List.flatMap_nil, List.length_nil, Nat.zero_add] at hlength

theorem length_entries_ofList_le (l : List (String × β)) :
    (ofList l).entries.length ≤ l.length := by
  simpa using length_flatMap_ofList_le (fun e => [e]) l

/-- The keys of a map are those it was built from. -/
theorem mem_keys_ofList_iff (l : List (String × β)) (k : String) :
    k ∈ (ofList l).keys ↔ k ∈ l.map Prod.fst := by
  rw [keys, List.mem_map, List.mem_map]
  constructor
  · rintro ⟨e, he, rfl⟩
    exact ⟨e, mem_of_mem_entries_ofList he, rfl⟩
  · rintro ⟨e, he, rfl⟩
    have hfound : (l.reverse.lookup e.1).isSome := by
      rw [List.lookup_isSome_iff]
      exact ⟨e, List.mem_reverse.2 he, beq_self_eq_true _⟩
    obtain ⟨v, hv⟩ := Option.isSome_iff_exists.1 hfound
    refine ⟨(e.1, v), ?_, rfl⟩
    rw [mem_entries_iff, get?_ofList, hv]

@[simp] theorem ofList_concat (l : List (String × β)) (e : String × β) :
    ofList (l ++ [e]) = (ofList l).insert e.1 e.2 := by
  simp [ofList, insertAll]

/-! ### Maps with other values -/

theorem lookup_map_values (f : β → γ) (l : List (String × β)) (k : String) :
    (l.map fun e => (e.1, f e.2)).lookup k = (l.lookup k).map f := by
  induction l with
  | nil => rfl
  | cons e rest ih =>
    rw [List.map_cons, lookup_cons_eq_ite, lookup_cons_eq_ite, ih]
    split <;> rfl

@[simp] theorem get?_mapValues (f : β → γ) (m : StringMap β) (k : String) :
    (m.mapValues f).get? k = (m.get? k).map f :=
  lookup_map_values f m.entries k

/-- Values may be replaced before a map is built or after. -/
theorem ofList_map_values (f : β → γ) (l : List (String × β)) :
    ofList (l.map fun e => (e.1, f e.2)) = (ofList l).mapValues f := by
  refine ext_get? fun k => ?_
  rw [get?_mapValues, get?_ofList, get?_ofList, ← List.map_reverse, lookup_map_values]

end StringMap

namespace StringSet

theorem length_toList (s : StringSet) : s.toList.length = s.size := by
  simp [toList, StringMap.keys, StringMap.size]

theorem mem_toList_add_iff (s : StringSet) (x y : String) :
    x ∈ (s.add y).toList ↔ x = y ∨ x ∈ s.toList := by
  simp only [toList, StringMap.mem_keys_iff, add, StringMap.get?_insert]
  split <;> simp_all

theorem ofList_eq (l : List String) : ofList l = StringMap.ofList (l.map fun x => (x, ())) := by
  simp only [ofList, StringMap.ofList, StringMap.insertAll, List.foldl_map]
  rfl

/-- Building a set from the members of a set gives that set back. -/
@[simp] theorem ofList_toList (s : StringSet) : ofList s.toList = s := by
  have hentries : s.toList.map (fun x => (x, ())) = s.entries := by
    simp [toList, StringMap.keys, Function.comp_def]
  rw [ofList_eq, hentries, StringMap.ofList_entries]

/-- A list is the members of the set built from it exactly when it ascends. -/
theorem toList_ofList_eq_iff {l : List String} :
    (ofList l).toList = l ↔ l.Pairwise (· < ·) := by
  have hmap : (l.map fun x => (x, ())).map Prod.fst = l := by simp [Function.comp_def]
  rw [ofList_eq, toList, StringMap.keys]
  constructor
  · intro h
    rw [← h, List.pairwise_map]
    exact StringMap.ascending _
  · intro h
    have hentries : (l.map fun x => (x, ())).Pairwise (fun a b => a.1 < b.1) := by
      rw [List.pairwise_map]
      exact h
    rw [StringMap.entries_ofList_eq_iff.2 hentries, hmap]

theorem mem_toList_ofList_iff (l : List String) (x : String) : x ∈ (ofList l).toList ↔ x ∈ l := by
  rw [ofList_eq, toList, StringMap.mem_keys_ofList_iff]
  simp

/-- A set depends on the members of the list alone. -/
theorem ofList_congr {xs ys : List String} (h : ∀ x, x ∈ xs ↔ x ∈ ys) :
    ofList xs = ofList ys := by
  have hmem : ∀ x, x ∈ (ofList xs).toList ↔ x ∈ (ofList ys).toList := fun x => by
    rw [mem_toList_ofList_iff, mem_toList_ofList_iff, h x]
  simp only [toList, StringMap.mem_keys_iff] at hmem
  refine StringMap.ext_get? fun k => Option.ext fun u => ⟨fun hk => ?_, fun hk => ?_⟩
  · obtain ⟨_, hk'⟩ := (hmem k).1 ⟨u, hk⟩
    exact hk'
  · obtain ⟨_, hk'⟩ := (hmem k).2 ⟨u, hk⟩
    exact hk'

theorem length_flatMap_ofList_le {γ : Type} (f : String → List γ) (l : List String) :
    ((ofList l).toList.flatMap f).length ≤ (l.flatMap f).length := by
  have hlength := StringMap.length_flatMap_ofList_le (fun e => f e.1) (l.map fun x => (x, ()))
  rw [ofList_eq, toList, StringMap.keys, List.flatMap_map]
  rwa [List.flatMap_map] at hlength

theorem length_toList_ofList_le (l : List String) : (ofList l).toList.length ≤ l.length := by
  simpa using length_flatMap_ofList_le (fun x => [x]) l

end StringSet

end JobConfig
