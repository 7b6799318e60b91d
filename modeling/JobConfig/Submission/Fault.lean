import JobConfig.Text.Utf8

/-!
Why bytes are no submission payload.
-/
namespace JobConfig.Submission

inductive Fault where
  /-- The bytes end within a number, a flag or a count. -/
  | endOfBytes
  /-- The bytes end within the body of a string. -/
  | endOfString
  | badFlag (byte : Nat)
  | badVariant (index count : Nat)
  | badText (fault : Utf8.Fault)
deriving DecidableEq, Repr

def Fault.message : Fault → String
  | .endOfBytes => "io error: unexpected end of file"
  | .endOfString => "io error: "
  | .badFlag byte =>
    "invalid u8 while decoding bool, expected 0 or 1, found " ++ toString byte
  | .badVariant index count =>
    "invalid value: integer `" ++ toString index ++ "`, expected variant index 0 <= i < " ++
      toString count
  | .badText fault => "string is not valid utf8: " ++ fault.message

def Fault.isTruncation : Fault → Bool
  | .endOfBytes | .endOfString => true
  | _ => false

end JobConfig.Submission
