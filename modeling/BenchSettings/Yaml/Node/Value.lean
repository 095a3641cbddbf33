/-
BenchSettings.Yaml.Node.Value — what a node denotes.

The value of a node is JSON with loose texts. An alias has the value of the node
whose anchor of that name comes last before it. Inside of that node the value is
not known yet, so an alias there has an empty value of the right kind, of which
nothing but the kind is read.

Aliases of aliases make large values out of short texts. An anchor therefore
counts how often it is used, and how much is behind it in turn; the product of
both has a limit (`maxAliases`).
-/
import BenchSettings.Json.Basic
import BenchSettings.Yaml.Node.Spelling

namespace BenchSettings.Yaml

open Text (Loose)

inductive AliasError where
  /-- No anchor of that name comes before it. -/
  | unresolved (name : String)
  /-- The anchor is used too often. -/
  | excessive
  deriving DecidableEq, Repr

/-- How many uses of an anchor there can be, times the uses behind it. -/
def maxAliases : Nat := 100

structure Passed where
  place : Nat
  /-- The value of its node, as far as it is known. -/
  value : JsonOf Loose
  /-- How often the value is used, here included. -/
  uses : Nat
  /-- The most uses behind it, once that is known. -/
  weight : Nat
  deriving Inhabited

namespace Node

/-! ## 1. Anchors -/

def anchorOf (n : Node) : List (Anchor × Node) := n.margin.anchor.toList.map fun a => (a, n)

mutual

/-- The anchors in a node in their order. -/
def anchors : Node → List (Anchor × Node)
  | .list m items => anchorOf (.list m items) ++ itemAnchors items
  | .map m entries => anchorOf (.map m entries) ++ entryAnchors entries
  | n => anchorOf n
termination_by structural n => n

def itemAnchors : List Node → List (Anchor × Node)
  | [] => []
  | item :: rest => anchors item ++ itemAnchors rest
termination_by structural items => items

def entryAnchors : List (Node × Option Node) → List (Anchor × Node)
  | [] => []
  | (key, none) :: rest => anchors key ++ entryAnchors rest
  | (key, some value) :: rest => anchors key ++ anchors value ++ entryAnchors rest
termination_by structural entries => entries

end

/-- The last anchor with a name before a place. -/
def target? (all : List (Anchor × Node)) (name : List Char) (place : Nat) :
    Option (Anchor × Node) :=
  (all.filter fun a => a.1.name == name && decide (a.1.place < place)).getLast?

/-! ## 2. Uses -/

/-- How much an alias for an anchor weighs. -/
def useOf (passed : List Passed) (a : Anchor × Node) : Nat :=
  match passed.find? fun p => p.place == a.1.place with
  | some p => p.uses * p.weight
  | none => 0

mutual

/-- The most uses behind a node. A text counts as one. -/
def weight (all : List (Anchor × Node)) (passed : List Passed) : Node → Nat
  | .text .. => 1
  | .reference _ name place => ((target? all name place).map (useOf passed)).getD 0
  | .list _ items => itemsWeight all passed items
  | .map _ entries => entriesWeight all passed entries
termination_by structural n => n

def itemsWeight (all : List (Anchor × Node)) (passed : List Passed) : List Node → Nat
  | [] => 0
  | item :: rest => max (weight all passed item) (itemsWeight all passed rest)
termination_by structural items => items

def entriesWeight (all : List (Anchor × Node)) (passed : List Passed) :
    List (Node × Option Node) → Nat
  | [] => 0
  | (key, none) :: rest => max (max (weight all passed key) 1) (entriesWeight all passed rest)
  | (key, some value) :: rest =>
    max (max (weight all passed key) (weight all passed value)) (entriesWeight all passed rest)
termination_by structural entries => entries

end

def use (all : List (Anchor × Node)) (passed : List Passed) (name : List Char) (place : Nat) :
    Except AliasError (JsonOf Loose × List Passed) :=
  match target? all name place with
  | none => .error (.unresolved (String.ofList name))
  | some (anchor, node) =>
    match passed.find? fun p => p.place == anchor.place with
    | none => .error (.unresolved (String.ofList name))
    | some p =>
      let weight := if p.weight = 0 then node.weight all passed else p.weight
      let used := { p with uses := p.uses + 1, weight := weight }
      if maxAliases < used.uses * used.weight then .error .excessive
      else .ok (p.value, passed.map fun q => if q.place = p.place then used else q)

/-! ## 3. Values -/

/-- Passes the anchor around a node, if there is one. -/
def pass (m : Margin) (value : JsonOf Loose) (passed : List Passed) : List Passed :=
  match m.anchor with
  | none => passed
  | some anchor => ⟨anchor.place, value, 1, 0⟩ :: passed

/-- Notes the value of the node with an anchor, if there is one. -/
def complete (m : Margin) (value : JsonOf Loose) (passed : List Passed) : List Passed :=
  match m.anchor with
  | none => passed
  | some anchor =>
    passed.map fun p => if p.place = anchor.place then { p with value := value } else p

/-- The name under which an entry is listed, from its key and the value of that. -/
def keyName (key : Node) : JsonOf Loose → Loose
  | .string content => content
  | .null => ""
  | _ => key.name

mutual

/-- The value of a node, and the anchors passed after it. -/
def value (all : List (Anchor × Node)) (passed : List Passed) :
    Node → Except AliasError (JsonOf Loose × List Passed)
  | .text m _ content => .ok (.string content, pass m (.string content) passed)
  | .reference _ name place => use all passed name place
  | .list m items => do
    let (items, passed) ← itemValues all (pass m (.array []) passed) items
    return (.array items, complete m (.array items) passed)
  | .map m entries => do
    let (members, passed) ← entryValues all (pass m (.object []) passed) entries
    let value := Json.ofWritten members
    return (value, complete m value passed)
termination_by structural n => n

def itemValues (all : List (Anchor × Node)) (passed : List Passed) :
    List Node → Except AliasError (List (JsonOf Loose) × List Passed)
  | [] => .ok ([], passed)
  | item :: rest => do
    let (first, passed) ← value all passed item
    let (others, passed) ← itemValues all passed rest
    return (first :: others, passed)
termination_by structural items => items

/-- The members that entries make. A key without a colon has no value. -/
def entryValues (all : List (Anchor × Node)) (passed : List Passed) :
    List (Node × Option Node) → Except AliasError (List (Loose × JsonOf Loose) × List Passed)
  | [] => .ok ([], passed)
  | (key, none) :: rest => do
    let (ofKey, passed) ← value all passed key
    let (others, passed) ← entryValues all passed rest
    return ((keyName key ofKey, .null) :: others, passed)
  | (key, some node) :: rest => do
    let (ofKey, passed) ← value all passed key
    let (first, passed) ← value all passed node
    let (others, passed) ← entryValues all passed rest
    return ((keyName key ofKey, first) :: others, passed)
termination_by structural entries => entries

end

/-- The value of the node of a document. -/
def toJson (n : Node) : Except AliasError (JsonOf Loose) := do
  let (value, _) ← n.value n.anchors []
  return value

end Node

end BenchSettings.Yaml
