/-!
UTF-8: characters as bytes and back.

Reading refuses overlong forms, surrogates and code points beyond the last one, and names the place
of the first fault: how many bytes are well formed before it, and how many belong to the bad
sequence.
-/
namespace JobConfig.Utf8

inductive Fault where
  /-- The `length` bytes from `index` on cannot be continued to a character. -/
  | invalid (length index : Nat)
  /-- The bytes end within the character that begins at `index`. -/
  | incomplete (index : Nat)
deriving DecidableEq, Repr

def Fault.message : Fault → String
  | .invalid length index =>
    "invalid utf-8 sequence of " ++ toString length ++ " bytes from index " ++ toString index
  | .incomplete index => "incomplete utf-8 byte sequence from index " ++ toString index

def encodeChar (c : Char) : List UInt8 :=
  let n := c.toNat
  if n < 0x80 then [n.toUInt8]
  else if n < 0x800 then [(0xC0 + n / 64).toUInt8, (0x80 + n % 64).toUInt8]
  else if n < 0x10000 then
    [(0xE0 + n / 4096).toUInt8, (0x80 + n / 64 % 64).toUInt8, (0x80 + n % 64).toUInt8]
  else
    [(0xF0 + n / 262144).toUInt8, (0x80 + n / 4096 % 64).toUInt8, (0x80 + n / 64 % 64).toUInt8,
      (0x80 + n % 64).toUInt8]

def encodeChars (cs : List Char) : List UInt8 :=
  cs.flatMap encodeChar

def encode (s : String) : List UInt8 :=
  encodeChars s.toList

/-- What a first byte beyond ASCII announces: the length of its sequence and the range of the
second byte, which excludes overlong forms, surrogates and code points beyond the last one. -/
structure Lead where
  width : Nat
  low : Nat
  high : Nat

def lead? (b : Nat) : Option Lead :=
  if 0xC2 ≤ b ∧ b ≤ 0xDF then some ⟨2, 0x80, 0xBF⟩
  else if b = 0xE0 then some ⟨3, 0xA0, 0xBF⟩
  else if b = 0xED then some ⟨3, 0x80, 0x9F⟩
  else if 0xE1 ≤ b ∧ b ≤ 0xEF then some ⟨3, 0x80, 0xBF⟩
  else if b = 0xF0 then some ⟨4, 0x90, 0xBF⟩
  else if 0xF1 ≤ b ∧ b ≤ 0xF3 then some ⟨4, 0x80, 0xBF⟩
  else if b = 0xF4 then some ⟨4, 0x80, 0x8F⟩
  else none

def isTrail (b : Nat) : Bool :=
  0x80 ≤ b && b ≤ 0xBF

/-- Reads bytes that begin at position `index` of the whole. -/
def decodeFrom (index : Nat) : List UInt8 → Except Fault (List Char)
  | [] => .ok []
  | b₀ :: rest₀ =>
    let n₀ := b₀.toNat
    if n₀ < 0x80 then (decodeFrom (index + 1) rest₀).map (Char.ofNat n₀ :: ·)
    else match lead? n₀ with
      | none => .error (.invalid 1 index)
      | some lead => match rest₀ with
        | [] => .error (.incomplete index)
        | b₁ :: rest₁ =>
          let n₁ := b₁.toNat
          if n₁ < lead.low ∨ lead.high < n₁ then .error (.invalid 1 index)
          else if lead.width = 2 then
            (decodeFrom (index + 2) rest₁).map (Char.ofNat (n₀ % 32 * 64 + n₁ % 64) :: ·)
          else match rest₁ with
            | [] => .error (.incomplete index)
            | b₂ :: rest₂ =>
              let n₂ := b₂.toNat
              if !isTrail n₂ then .error (.invalid 2 index)
              else if lead.width = 3 then
                (decodeFrom (index + 3) rest₂).map
                  (Char.ofNat (n₀ % 16 * 4096 + n₁ % 64 * 64 + n₂ % 64) :: ·)
              else match rest₂ with
                | [] => .error (.incomplete index)
                | b₃ :: rest₃ =>
                  let n₃ := b₃.toNat
                  if !isTrail n₃ then .error (.invalid 3 index)
                  else (decodeFrom (index + 4) rest₃).map
                    (Char.ofNat (n₀ % 8 * 262144 + n₁ % 64 * 4096 + n₂ % 64 * 64 + n₃ % 64) :: ·)

def decodeChars (bytes : List UInt8) : Except Fault (List Char) :=
  decodeFrom 0 bytes

def decode (bytes : List UInt8) : Except Fault String :=
  (decodeChars bytes).map String.ofList

end JobConfig.Utf8
