import JobConfig.Submission.Wire
import JobConfig.Proofs.StringMap
import JobConfig.Proofs.Utf8

/-!
Each part of the binary payload is decoded from its own bytes, whatever follows
them. This is the form in which parts compose: a decoder that binds another one
reads the bytes of the one and then the bytes of the other. For words and the
bodies of texts also the converse is here: what they take is their own bytes.
-/

namespace JobConfig.Submission

variable {α β : Type}

/-! ### Going on where another decoder stopped -/

theorem bind_of_ok {decoder : Decoder α} {next : α → Decoder β} {bytes rest : List UInt8} {x : α}
    (h : decoder bytes = .ok (x, rest)) : (decoder >>= next) bytes = next x rest := by
  show (do let p ← decoder bytes; next p.1 p.2) = _
  rw [h]
  rfl

theorem bind_of_error {decoder : Decoder α} {next : α → Decoder β} {bytes : List UInt8}
    {fault : Fault} (h : decoder bytes = .error fault) :
    (decoder >>= next) bytes = .error fault := by
  show (do let p ← decoder bytes; next p.1 p.2) = _
  rw [h]
  rfl

theorem bind_sound {decoder : Decoder α} {next : α → Decoder β} {bytes rest : List UInt8} {y : β}
    (h : (decoder >>= next) bytes = .ok (y, rest)) :
    ∃ x middle, decoder bytes = .ok (x, middle) ∧ next x middle = .ok (y, rest) := by
  cases hx : decoder bytes with
  | error fault =>
    rw [bind_of_error hx] at h
    cases h
  | ok p =>
    obtain ⟨x, middle⟩ := p
    rw [bind_of_ok hx] at h
    exact ⟨x, middle, rfl, h⟩

theorem pure_sound {x y : α} {bytes rest : List UInt8}
    (h : (Pure.pure x : Decoder α) bytes = .ok (y, rest)) : y = x ∧ bytes = rest := by
  obtain ⟨rfl, rfl⟩ := Prod.mk.inj (Except.ok.inj h)
  exact ⟨rfl, rfl⟩

/-! ### Decoding what was encoded -/

/-- `decoder` takes exactly `bytes` for `x` and leaves what follows them. -/
def Decodes (decoder : Decoder α) (bytes : List UInt8) (x : α) : Prop :=
  ∀ rest, decoder (bytes ++ rest) = .ok (x, rest)

namespace Decodes

theorem bind {decoder : Decoder α} {next : α → Decoder β} {bytes bytes' : List UInt8} {x : α}
    {y : β} (h : Decodes decoder bytes x) (h' : Decodes (next x) bytes' y) :
    Decodes (decoder >>= next) (bytes ++ bytes') y := by
  intro rest
  rw [List.append_assoc, bind_of_ok (h (bytes' ++ rest))]
  exact h' rest

theorem pure (x : α) : Decodes (Pure.pure x) [] x :=
  fun _ => rfl

/-- Bytes in front of the rest are those of one value only. -/
theorem inj {decoder : Decoder α} {bytes bytes' rest rest' : List UInt8} {x x' : α}
    (h : Decodes decoder bytes x) (h' : Decodes decoder bytes' x')
    (heq : bytes ++ rest = bytes' ++ rest') : x = x' ∧ rest = rest' := by
  have hx := h rest
  rw [heq, h' rest'] at hx
  obtain ⟨rfl, rfl⟩ := Prod.mk.inj (Except.ok.inj hx)
  exact ⟨rfl, rfl⟩

theorem of_append_nil {decoder : Decoder α} {bytes : List UInt8} {x : α}
    (h : Decodes decoder (bytes ++ []) x) : Decodes decoder bytes x := by
  rwa [List.append_nil] at h

theorem bind_pure {decoder : Decoder α} {bytes : List UInt8} {x : α}
    (h : Decodes decoder bytes x) (f : α → β) :
    Decodes (decoder >>= fun y => Pure.pure (f y)) bytes (f x) :=
  of_append_nil (h.bind (pure (f x)))

end Decodes

/-! ### Words, flags and levels -/

@[simp] theorem length_encodeWord (width n : Nat) : (encodeWord width n).length = width := by
  induction width generalizing n with
  | zero => rfl
  | succ width ih => simp [encodeWord, ih]

theorem decodes_word {width n : Nat} (h : n < Nat.pow 256 width) :
    Decodes (decodeWord width) (encodeWord width n) n := by
  induction width generalizing n with
  | zero =>
    intro rest
    have hn : n = 0 := by
      have hone : Nat.pow 256 0 = 1 := rfl
      omega
    subst hn
    rfl
  | succ width ih =>
    -- The lowest byte comes first; the others are the word of the quotient.
    intro rest
    have hpow : Nat.pow 256 (width + 1) = Nat.pow 256 width * 256 := rfl
    have hrest := ih (n := n / 256) (by omega) rest
    have hbyte : (UInt8.ofNat n).toNat = n % 256 := UInt8.toNat_ofNat'
    have hsum : n % 256 + 256 * (n / 256) = n := Nat.mod_add_div n 256
    rw [encodeWord, List.cons_append, decodeWord, hrest]
    simp only [hbyte, hsum]

theorem decodeWord_sound {width n : Nat} {bytes rest : List UInt8}
    (h : decodeWord width bytes = .ok (n, rest)) :
    bytes = encodeWord width n ++ rest ∧ n < Nat.pow 256 width := by
  induction width generalizing bytes n with
  | zero =>
    obtain ⟨rfl, rfl⟩ := Prod.mk.inj (Except.ok.inj h)
    exact ⟨rfl, Nat.one_pos⟩
  | succ width ih =>
    cases bytes with
    | nil => cases h
    | cons b bytes =>
      rw [decodeWord] at h
      cases hrest : decodeWord width bytes with
      | error fault =>
        rw [hrest] at h
        cases h
      | ok p =>
        obtain ⟨m, rest'⟩ := p
        rw [hrest] at h
        obtain ⟨rfl, rfl⟩ := Prod.mk.inj (Except.ok.inj h)
        obtain ⟨rfl, hm⟩ := ih hrest
        have hb : b.toNat < 256 := b.toNat_lt
        have hpow : Nat.pow 256 (width + 1) = Nat.pow 256 width * 256 := rfl
        have hlow : UInt8.ofNat (b.toNat + 256 * m) = b := by
          rw [← UInt8.toNat_inj, UInt8.toNat_ofNat']
          omega
        have hhigh : (b.toNat + 256 * m) / 256 = m := by omega
        rw [encodeWord, hlow, hhigh]
        exact ⟨rfl, by omega⟩

theorem decodes_int64 (n : Int64) : Decodes decodeInt64 (encodeInt64 n) n := by
  have hword : Decodes (decodeWord 8) (encodeInt64 n) n.toUInt64.toNat :=
    decodes_word n.toUInt64.toNat_lt
  have hn : (UInt64.ofNat n.toUInt64.toNat).toInt64 = n := by
    rw [UInt64.ofNat_toNat]
    simp
  have hdecode := hword.bind_pure fun m => (UInt64.ofNat m).toInt64
  rwa [hn] at hdecode

theorem decodes_int32 (n : Int32) : Decodes decodeInt32 (encodeInt32 n) n := by
  have hword : Decodes (decodeWord 4) (encodeInt32 n) n.toUInt32.toNat :=
    decodes_word n.toUInt32.toNat_lt
  have hn : (UInt32.ofNat n.toUInt32.toNat).toInt32 = n := by
    rw [UInt32.ofNat_toNat]
    simp
  have hdecode := hword.bind_pure fun m => (UInt32.ofNat m).toInt32
  rwa [hn] at hdecode

theorem decodes_flag (b : Bool) : Decodes decodeFlag (encodeFlag b) b := by
  intro rest
  cases b <;> rfl

theorem decodes_level (level : CleanerLevel) : Decodes decodeLevel (encodeLevel level) level := by
  intro rest
  cases level <;> rfl

/-! ### Texts -/

def TextFits (s : String) : Prop :=
  (Utf8.encode s).length < 0x10000000000000000

instance (s : String) : Decidable (TextFits s) :=
  inferInstanceAs (Decidable (_ < _))

theorem decodes_takeBytes (bytes : List UInt8) : Decodes (takeBytes bytes.length) bytes bytes := by
  intro rest
  simp [takeBytes]

theorem takeBytes_sound {count : Nat} {bytes body rest : List UInt8}
    (h : takeBytes count bytes = .ok (body, rest)) : bytes = body ++ rest ∧ body.length = count := by
  rw [takeBytes] at h
  split at h
  · cases h
  · rename_i hcount
    obtain ⟨rfl, rfl⟩ := Prod.mk.inj (Except.ok.inj h)
    refine ⟨(List.take_append_drop count bytes).symm, ?_⟩
    rw [List.length_take]
    omega

theorem decodes_text {s : String} (h : TextFits s) : Decodes decodeText (encodeText s) s := by
  have hcount : Decodes (decodeWord 8) (encodeWord 8 (Utf8.encode s).length)
      (Utf8.encode s).length := decodes_word h
  refine hcount.bind (Decodes.of_append_nil ((decodes_takeBytes (Utf8.encode s)).bind ?_))
  rw [Utf8.decode_encode]
  exact Decodes.pure s

/-! ### Collections -/

/-- A list is decoded item by item. -/
theorem decodes_many {item : Decoder α} {encode : α → List UInt8} (xs : List α)
    (h : ∀ x ∈ xs, Decodes item (encode x) x) :
    Decodes (decodeMany item xs.length) (xs.flatMap encode) xs := by
  induction xs with
  | nil => exact Decodes.pure []
  | cons x xs ih =>
    have hx := h x List.mem_cons_self
    have hxs := ih fun y hy => h y (List.mem_cons_of_mem _ hy)
    exact hx.bind (hxs.bind_pure fun rest => x :: rest)

def encodeList (encode : α → List UInt8) (xs : List α) : List UInt8 :=
  encodeWord 8 xs.length ++ xs.flatMap encode

def encodeEntry (e : String × String) : List UInt8 :=
  encodeText e.1 ++ encodeText e.2

def EntryFits (e : String × String) : Prop :=
  TextFits e.1 ∧ TextFits e.2

instance (e : String × String) : Decidable (EntryFits e) :=
  inferInstanceAs (Decidable (_ ∧ _))

def ListFits (fits : α → Prop) (xs : List α) : Prop :=
  xs.length < 0x10000000000000000 ∧ ∀ x ∈ xs, fits x

instance (fits : α → Prop) [DecidablePred fits] (xs : List α) : Decidable (ListFits fits xs) :=
  inferInstanceAs (Decidable (_ ∧ _))

theorem ListFits.of_subset {fits : α → Prop} {xs ys : List α} (h : ListFits fits xs)
    (hlength : ys.length ≤ xs.length) (hmem : ∀ y ∈ ys, y ∈ xs) : ListFits fits ys :=
  ⟨Nat.lt_of_le_of_lt hlength h.1, fun y hy => h.2 y (hmem y hy)⟩

theorem length_encodeList (encode : α → List UInt8) (xs : List α) :
    (encodeList encode xs).length = 8 + (xs.flatMap encode).length := by
  rw [encodeList, List.length_append, length_encodeWord]

theorem encodeMap_eq (m : StringMap String) : encodeMap m = encodeList encodeEntry m.entries :=
  rfl

theorem encodeSet_eq (s : StringSet) : encodeSet s = encodeList encodeText s.toList := by
  rw [encodeSet, encodeList, StringSet.length_toList]

def MapFits (m : StringMap String) : Prop :=
  m.size < 0x10000000000000000 ∧ ∀ e ∈ m.entries, TextFits e.1 ∧ TextFits e.2

instance (m : StringMap String) : Decidable (MapFits m) :=
  inferInstanceAs (Decidable (_ ∧ _))

def SetFits (s : StringSet) : Prop :=
  s.size < 0x10000000000000000 ∧ ∀ x ∈ s.toList, TextFits x

instance (s : StringSet) : Decidable (SetFits s) :=
  inferInstanceAs (Decidable (_ ∧ _))

theorem MapFits.entries {m : StringMap String} (h : MapFits m) : ListFits EntryFits m.entries :=
  h

theorem SetFits.toList {s : StringSet} (h : SetFits s) : ListFits TextFits s.toList := by
  rw [ListFits, StringSet.length_toList]
  exact h

theorem decodes_count {xs : List α} {fits : α → Prop} (h : ListFits fits xs) :
    Decodes (decodeWord 8) (encodeWord 8 xs.length) xs.length :=
  decodes_word h.1

/-- The list in front of the rest is one list only. -/
theorem encodeList_inj {item : Decoder α} {encode : α → List UInt8} {fits : α → Prop}
    {xs xs' : List α} {rest rest' : List UInt8} (hitem : ∀ x, fits x → Decodes item (encode x) x)
    (h : ListFits fits xs) (h' : ListFits fits xs')
    (heq : encodeList encode xs ++ rest = encodeList encode xs' ++ rest') :
    xs = xs' ∧ rest = rest' := by
  rw [encodeList, encodeList, List.append_assoc, List.append_assoc] at heq
  obtain ⟨hcount, hitems⟩ := (decodes_count h).inj (decodes_count h') heq
  have hxs := decodes_many xs fun x hx => hitem x (h.2 x hx)
  rw [hcount] at hxs
  exact hxs.inj (decodes_many xs' fun x hx => hitem x (h'.2 x hx)) hitems

theorem decodes_entry (e : String × String) (h : EntryFits e) :
    Decodes decodeEntry (encodeEntry e) e := by
  obtain ⟨hkey, hvalue⟩ := h
  exact (decodes_text hkey).bind ((decodes_text hvalue).bind_pure fun v => (e.1, v))

/-- A map is decoded from any entries, whatever their order and however often a key comes. -/
theorem decodes_entries {l : List (String × String)} (h : ListFits EntryFits l) :
    Decodes decodeMap (encodeList encodeEntry l) (StringMap.ofList l) :=
  (decodes_count h).bind
    ((decodes_many l fun e he => decodes_entry e (h.2 e he)).bind_pure StringMap.ofList)

/-- A set is decoded from any members, whatever their order and however often one comes. -/
theorem decodes_members {l : List String} (h : ListFits TextFits l) :
    Decodes decodeSet (encodeList encodeText l) (StringSet.ofList l) :=
  (decodes_count h).bind
    ((decodes_many l fun x hx => decodes_text (h.2 x hx)).bind_pure StringSet.ofList)

end JobConfig.Submission
