import JobConfig.Yaml.Node

/-!
Documents with their references resolved.

The name of an anchor gets a number, which is the count of names known when it is defined. A name
that is defined again takes a new number but no new place in that count, so the next new name shares
the number with it. A reference keeps the number that its name has at that point, and a number
stands for the last node that it was given to, which may come behind the reference.
-/
namespace JobConfig.Yaml

/-- The names and the targets of a document that is being numbered. -/
structure Numbering where
  /-- The numbers of the names, each name once. -/
  names : List (String × Nat) := []
  /-- The order in which nodes were given a number, the last one first. -/
  owners : List (Nat × Nat) := []
  /-- The nodes by the order in which they were given a number. -/
  nodes : List (Nat × Node Nat) := []

namespace Numbering

/-- Gives the name of an anchor a number; also gives the place in the order. -/
def define (n : Numbering) (name : String) : Nat × Numbering :=
  let number := n.names.length
  let place := n.owners.length
  let names := (name, number) :: n.names.filter (·.1 ≠ name)
  (place, { n with names, owners := (number, place) :: n.owners })

def enter (n : Numbering) (p : Properties) : Option Nat × Numbering :=
  match p.anchor with
  | none => (none, n)
  | some name =>
    let (place, n) := n.define name
    (some place, n)

def leave (n : Numbering) (place : Option Nat) (node : Node Nat) : Numbering :=
  match place with
  | none => n
  | some place => { n with nodes := (place, node) :: n.nodes }

end Numbering

namespace Node

mutual

/-- Puts numbers for names in a node; a name must be defined in front of a reference to it. -/
def number? : Node String → Numbering → Option (Node Nat × Numbering)
  | .reference name, n => (n.names.lookup name).map fun number => (.reference number, n)
  | .scalar p text plain, n =>
    let (place, n) := n.enter p
    let node := .scalar p text plain
    some (node, n.leave place node)
  | .sequence p items, n => do
    let (place, n) := n.enter p
    let (items, n) ← numberItems? items n
    let node := .sequence p items
    return (node, n.leave place node)
  | .mapping p entries, n => do
    let (place, n) := n.enter p
    let (entries, n) ← numberEntries? entries n
    let node := .mapping p entries
    return (node, n.leave place node)

def numberItems? : List (Node String) → Numbering → Option (List (Node Nat) × Numbering)
  | [], n => some ([], n)
  | x :: rest, n => do
    let (x, n) ← x.number? n
    let (rest, n) ← numberItems? rest n
    return (x :: rest, n)

def numberEntries? :
    List (Node String × Node String) → Numbering → Option (List (Node Nat × Node Nat) × Numbering)
  | [], n => some ([], n)
  | (k, v) :: rest, n => do
    let (k, n) ← k.number? n
    let (v, n) ← v.number? n
    let (rest, n) ← numberEntries? rest n
    return ((k, v) :: rest, n)

end

end Node

structure Graph where
  root : Node Nat
  owners : List (Nat × Nat)
  nodes : List (Nat × Node Nat)

namespace Graph

def target? (g : Graph) (number : Nat) : Option (Node Nat) := do
  g.nodes.lookup (← g.owners.lookup number)

/-- How many references may be followed in all. -/
def jumpLimit (g : Graph) : Nat := 100 * g.root.size

def ofNode? (node : Node String) : Option Graph := do
  let (root, n) ← node.number? {}
  return ⟨root, n.owners, n.nodes⟩

end Graph

end JobConfig.Yaml
