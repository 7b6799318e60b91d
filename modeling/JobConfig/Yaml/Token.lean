/-!
The tokens of a YAML stream.
-/
namespace JobConfig.Yaml

/-- Where a tag is written: the handle, which a directive may define, and what follows it. Escapes
can form bytes that are no text, so the latter is bytes. -/
structure TagName where
  handle : String
  suffix : List UInt8
deriving DecidableEq, Repr

inductive Token where
  | version (major minor : Nat)
  | tagDirective (name : TagName)
  | documentStart
  | documentEnd
  | blockSequenceStart
  | blockMappingStart
  | blockEnd
  | flowSequenceStart
  | flowSequenceEnd
  | flowMappingStart
  | flowMappingEnd
  | blockEntry
  | flowEntry
  | key
  | value
  | reference (name : String)
  | anchor (name : String)
  | tag (name : TagName)
  | scalar (text : String) (plain : Bool)
deriving DecidableEq, Repr

end JobConfig.Yaml
