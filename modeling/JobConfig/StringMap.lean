/-!
Finite maps and sets of strings, kept in ascending order of their keys.

Strings are ordered by code point, which is also the order of their UTF-8 bytes. A map has exactly
one representation: two maps with the same content are equal (`StringMap.ext_get?`), so equality of
everything built from them is equality of content.
-/
namespace JobConfig

/-- A finite map from strings, its entries strictly ascending by key. -/
structure StringMap (β : Type) where
  entries : List (String × β)
  ascending : entries.Pairwise (fun a b => a.1 < b.1)
deriving DecidableEq

namespace StringMap

variable {β γ : Type}

/-- Puts `v` at `k` in an ascending list, in place of the value that was there. -/
def insertEntry (k : String) (v : β) : List (String × β) → List (String × β)
  | [] => [(k, v)]
  | (k', v') :: rest =>
    if k < k' then (k, v) :: (k', v') :: rest
    else if k = k' then (k, v) :: rest
    else (k', v') :: insertEntry k v rest

theorem mem_insertEntry {k : String} {v : β} {l : List (String × β)} {e : String × β}
    (h : e ∈ insertEntry k v l) : e = (k, v) ∨ e ∈ l := by
  induction l with
  | nil => simpa [insertEntry] using h
  | cons a rest ih =>
    obtain ⟨k', v'⟩ := a
    simp only [insertEntry] at h
    split at h
    · simpa using h
    · split at h
      · rcases List.mem_cons.1 h with h | h
        · exact .inl h
        · exact .inr (List.mem_cons_of_mem _ h)
      · rcases List.mem_cons.1 h with h | h
        · exact .inr (by simp [h])
        · rcases ih h with h | h
          · exact .inl h
          · exact .inr (List.mem_cons_of_mem _ h)

theorem ascending_insertEntry {k : String} {v : β} {l : List (String × β)}
    (h : l.Pairwise (fun a b => a.1 < b.1)) :
    (insertEntry k v l).Pairwise (fun a b => a.1 < b.1) := by
  induction l with
  | nil => simp [insertEntry]
  | cons a rest ih =>
    obtain ⟨k', v'⟩ := a
    obtain ⟨hhead, htail⟩ := List.pairwise_cons.1 h
    simp only [insertEntry]
    split
    · rename_i hlt
      refine List.pairwise_cons.2 ⟨fun e he => ?_, h⟩
      rcases List.mem_cons.1 he with he | he
      · simpa [he] using hlt
      · exact String.lt_trans hlt (hhead e he)
    · split
      · rename_i heq
        exact List.pairwise_cons.2 ⟨fun e he => by simpa [heq] using hhead e he, htail⟩
      · rename_i hnlt hne
        refine List.pairwise_cons.2 ⟨fun e he => ?_, ih htail⟩
        rcases mem_insertEntry he with he | he
        · subst he
          rcases String.le_total k' k with hle | hle
          · exact Decidable.byContradiction fun hn =>
              hne (String.le_antisymm (String.not_lt.1 hn) hle)
          · exact Decidable.byContradiction fun hn =>
              hne (String.le_antisymm hle (String.not_lt.1 hnlt))
        · exact hhead e he

def empty : StringMap β := ⟨[], .nil⟩

instance : EmptyCollection (StringMap β) := ⟨empty⟩

instance : Inhabited (StringMap β) := ⟨empty⟩

instance [Hashable β] : Hashable (StringMap β) := ⟨fun m => hash m.entries⟩

def insert (m : StringMap β) (k : String) (v : β) : StringMap β :=
  ⟨insertEntry k v m.entries, ascending_insertEntry m.ascending⟩

def get? (m : StringMap β) (k : String) : Option β :=
  m.entries.lookup k

def contains (m : StringMap β) (k : String) : Bool :=
  (m.get? k).isSome

def keys (m : StringMap β) : List String :=
  m.entries.map Prod.fst

def size (m : StringMap β) : Nat :=
  m.entries.length

def isEmpty (m : StringMap β) : Bool :=
  m.entries.isEmpty

/-- Adds the given entries in order; of several with one key the last decides. -/
def insertAll (m : StringMap β) (l : List (String × β)) : StringMap β :=
  l.foldl (fun m e => m.insert e.1 e.2) m

def ofList (l : List (String × β)) : StringMap β :=
  empty.insertAll l

def mapValues (f : β → γ) (m : StringMap β) : StringMap γ :=
  ⟨m.entries.map (fun e => (e.1, f e.2)), by
    rw [List.pairwise_map]
    exact m.ascending⟩

theorem lookup_cons_eq_ite (k : String) (v : β) (l : List (String × β)) (x : String) :
    ((k, v) :: l).lookup x = if x = k then some v else l.lookup x := by
  rw [List.lookup_cons]
  by_cases h : x = k
  · simp [h]
  · simp [h, beq_eq_false_iff_ne.2 h]

theorem lookup_insertEntry (k : String) (v : β) (l : List (String × β)) (x : String) :
    (insertEntry k v l).lookup x = if x = k then some v else l.lookup x := by
  induction l with
  | nil => rw [insertEntry, lookup_cons_eq_ite]
  | cons a rest ih =>
    obtain ⟨k', v'⟩ := a
    simp only [insertEntry]
    split
    · rw [lookup_cons_eq_ite]
    · split
      · rename_i _ heq
        subst heq
        rw [lookup_cons_eq_ite, lookup_cons_eq_ite]
        split <;> rfl
      · rename_i _ hne
        rw [lookup_cons_eq_ite, lookup_cons_eq_ite, ih]
        by_cases h : x = k
        · have hk : ¬ x = k' := fun h' => hne (h ▸ h')
          rw [if_neg hk]
          simp [h]
        · simp [h]

theorem lookup_eq_none_of_lt {k : String} {l : List (String × β)} (h : ∀ e ∈ l, k < e.1) :
    l.lookup k = none := by
  induction l with
  | nil => rfl
  | cons a rest ih =>
    obtain ⟨k', v'⟩ := a
    have hlt : k < k' := h (k', v') List.mem_cons_self
    have hne : ¬ k = k' := fun he => String.lt_irrefl k' (he ▸ hlt)
    rw [lookup_cons_eq_ite, if_neg hne]
    exact ih fun e he => h e (List.mem_cons_of_mem _ he)

theorem eq_of_lookup_eq {l₁ l₂ : List (String × β)}
    (h₁ : l₁.Pairwise (fun a b => a.1 < b.1)) (h₂ : l₂.Pairwise (fun a b => a.1 < b.1))
    (h : ∀ x, l₁.lookup x = l₂.lookup x) : l₁ = l₂ := by
  induction l₁ generalizing l₂ with
  | nil =>
    cases l₂ with
    | nil => rfl
    | cons b rest =>
      obtain ⟨k, v⟩ := b
      have := h k
      rw [lookup_cons_eq_ite, if_pos rfl] at this
      cases this
  | cons a r₁ ih =>
    obtain ⟨k, v⟩ := a
    obtain ⟨hk, hr₁⟩ := List.pairwise_cons.1 h₁
    cases l₂ with
    | nil =>
      have := h k
      rw [lookup_cons_eq_ite, if_pos rfl] at this
      cases this
    | cons b r₂ =>
      obtain ⟨k', v'⟩ := b
      obtain ⟨hk', hr₂⟩ := List.pairwise_cons.1 h₂
      have hle : ¬ k < k' := fun hlt => by
        have hx := h k
        rw [lookup_cons_eq_ite, if_pos rfl, lookup_eq_none_of_lt] at hx
        · cases hx
        · intro e he
          rcases List.mem_cons.1 he with he | he
          · simpa [he] using hlt
          · exact String.lt_trans hlt (hk' e he)
      have hge : ¬ k' < k := fun hlt => by
        have hx := h k'
        rw [lookup_cons_eq_ite k', if_pos rfl, lookup_eq_none_of_lt] at hx
        · cases hx
        · intro e he
          rcases List.mem_cons.1 he with he | he
          · simpa [he] using hlt
          · exact String.lt_trans hlt (hk e he)
      have hkk : k = k' := String.le_antisymm (String.not_lt.1 hge) (String.not_lt.1 hle)
      subst hkk
      have hv := h k
      rw [lookup_cons_eq_ite, lookup_cons_eq_ite, if_pos rfl, if_pos rfl] at hv
      cases hv
      congr 1
      refine ih hr₁ hr₂ fun x => ?_
      by_cases hx : x = k
      · subst hx
        rw [lookup_eq_none_of_lt hk, lookup_eq_none_of_lt hk']
      · have := h x
        rwa [lookup_cons_eq_ite, lookup_cons_eq_ite, if_neg hx, if_neg hx] at this

/-- A map is determined by its look-ups. -/
theorem ext_get? {m₁ m₂ : StringMap β} (h : ∀ k, m₁.get? k = m₂.get? k) : m₁ = m₂ := by
  obtain ⟨l₁, h₁⟩ := m₁
  obtain ⟨l₂, h₂⟩ := m₂
  have : l₁ = l₂ := eq_of_lookup_eq h₁ h₂ h
  subst this
  rfl

@[simp] theorem get?_empty (k : String) : (empty : StringMap β).get? k = none := rfl

@[simp] theorem get?_insert (m : StringMap β) (k : String) (v : β) (x : String) :
    (m.insert k v).get? x = if x = k then some v else m.get? x :=
  lookup_insertEntry k v m.entries x

@[simp] theorem ofList_nil : ofList ([] : List (String × β)) = empty := rfl

end StringMap

abbrev StringSet := StringMap Unit

namespace StringSet

def add (s : StringSet) (x : String) : StringSet :=
  s.insert x ()

def ofList (l : List String) : StringSet :=
  l.foldl add (StringMap.empty : StringSet)

def toList (s : StringSet) : List String :=
  s.keys

end StringSet

end JobConfig
