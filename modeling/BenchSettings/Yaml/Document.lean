/-
BenchSettings.Yaml.Document — a whole text in this notation.

A text holds one document. It may be preceded by comments and a line of three
dashes, which has to be there after directives, and followed by a line of three
dots; another document after it is an error. A text without any document is no
value at all, which is something else than an empty document: that one is the
empty text.

Of tags only the characters are read. A text with tags means what it means
without them, so it is accepted where a tag has a handle that no directive
declares (`!a!b`), or no suffix (`!a!`), or names nothing (`!<!>`), and a value
stays the text or the collection that it is written as where its tag makes
something else of it, as `!!binary`, `!!timestamp`, `!!set`, `!!omap` and
`!!pairs` do.
-/
import BenchSettings.Yaml.Node.OfOutline
import BenchSettings.Yaml.Node.Value
import BenchSettings.Yaml.Outline.Build
import BenchSettings.Yaml.Token.Scan

namespace BenchSettings.Yaml

open Text (Loose)

inductive YamlError where
  /-- The text breaks the rules of the notation. -/
  | malformed
  /-- An alias has no value. -/
  | reference (error : AliasError)
  deriving DecidableEq, Repr

/-! ## 1. Directives -/

def directiveWords (source : List Char) : List (List Char) :=
  let trimmed := Text.trimBoth Text.isBlank source
  ((trimmed.map fun c => if isGap c then ' ' else c).splitOn ' ').filter fun w => !w.isEmpty

/-- Whether a version has a number, a point and a number. -/
def isVersion (cs : List Char) : Bool :=
  match cs.splitOn '.' with
  | [major, minor] =>
    !major.isEmpty && !minor.isEmpty && major.all Char.isDigit && minor.all Char.isDigit
  | _ => false

/-- Whether a directive has the words it needs. Unknown ones are ignored. -/
def isGoodDirective (source : List Char) : Bool :=
  match directiveWords source with
  | name :: rest =>
    if name = "%YAML".toList then
      match rest with
      | [version] => isVersion version
      | _ => false
    else if name = "%TAG".toList then rest.length == 2
    else true
  | [] => true

/-! ## 2. Documents -/

/-- What is known of a text after some of its sections. -/
structure Reading where
  document : Option Node
  /-- Whether directives came last, which dashes have to follow. -/
  directed : Bool

def Reading.take? (r : Reading) : Section → Option Reading
  | .directive source => if isGoodDirective source then some { r with directed := true } else none
  | .document outline => do
    let (node, dashed) ← documentNode? outline
    if r.document.isSome || (r.directed && !dashed) then none else some ⟨some node, false⟩
  | .dots after =>
    if r.document.isSome then (remarksOf? true 0 after).map fun _ => r else none
  | .wrong => none

/-- The node of a text, or none if it holds no document. -/
def nodeOfText? (text : List Char) : Option (Option Node) := do
  let r ← (sectionsOf (lexemesOf text)).foldlM Reading.take? ⟨none, false⟩
  if r.document.isNone && r.directed then none else some r.document

/-- The value of a text, or none if it holds no document. -/
def parse (text : List Char) : Except YamlError (Option (JsonOf Loose)) :=
  match nodeOfText? text with
  | none => .error .malformed
  | some none => .ok none
  | some (some node) =>
    match node.toJson with
    | .ok value => .ok (some value)
    | .error e => .error (.reference e)

end BenchSettings.Yaml
