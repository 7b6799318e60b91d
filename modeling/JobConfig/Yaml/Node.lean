import JobConfig.Yaml.Token

/-!
The nodes of a YAML document.

A document is a tree whose leaves are scalars and references. What a reference points to is left
open: at first it is the name of an anchor, later the number of a target (`Graph`).
-/
namespace JobConfig.Yaml

/-- What can be attached to a node. -/
structure Properties where
  anchor : Option String := none
  tag : Option (List UInt8) := none
deriving DecidableEq

/-- A node, with references of type `ρ`. -/
inductive Node (ρ : Type) where
  | reference (target : ρ)
  | scalar (properties : Properties) (text : String) (plain : Bool)
  | sequence (properties : Properties) (items : List (Node ρ))
  | mapping (properties : Properties) (entries : List (Node ρ × Node ρ))

namespace Node

variable {ρ : Type}

/-- The node of a place where nothing stands. -/
def empty : Node ρ := scalar {} "" true

mutual

/-- The size of a node: a leaf counts once, a collection twice besides its parts. -/
def size : Node ρ → Nat
  | reference _ => 1
  | scalar _ _ _ => 1
  | sequence _ items => 2 + itemsSize items
  | mapping _ entries => 2 + entriesSize entries

def itemsSize : List (Node ρ) → Nat
  | [] => 0
  | x :: rest => x.size + itemsSize rest

def entriesSize : List (Node ρ × Node ρ) → Nat
  | [] => 0
  | (k, v) :: rest => k.size + v.size + entriesSize rest

end

end Node

end JobConfig.Yaml
