/-
BenchSettings.Report.Document — the configuration as a JSON document.

The document has every switch and every quantity under its field, and of the
fill pattern whether one was given, its bytes in hex and how many they are. Its
text (`Document.text`) is canonical: equal documents have equal texts.
-/
import BenchSettings.Configuration
import BenchSettings.Json.Printer

namespace BenchSettings.Report

def documentVersion : String := "1.0"

/-- A configuration as it is reported. -/
structure Document where
  switch : Switch → Bool
  quantity : Quantity → Int
  /-- Whether a fill pattern was given. -/
  specified : Bool
  /-- The bytes of the fill pattern in hex. -/
  hex : String
  /-- How many bytes the fill pattern has. -/
  byteLength : Nat

namespace Document

def ofConfiguration (c : Configuration) : Document where
  switch := c.switch
  quantity := c.quantity
  specified := c.patternText.isSome
  hex := FillPattern.hex c.pattern
  byteLength := c.pattern.length

def toJson (d : Document) : Json :=
  .object <|
    [("version", .string documentVersion),
     ("flags", .object (Switch.all.map fun s => (s.field, .bool (d.switch s))))] ++
    Quantity.all.map (fun q => (q.field, .number (.integer (d.quantity q)))) ++
    [("fillPattern", .object
        [("specified", .bool d.specified),
         ("hex", .string d.hex),
         ("byteLength", .number (.integer d.byteLength))])]

/-- The canonical text of the document. -/
def text (d : Document) : String := d.toJson.serialize

end Document

end BenchSettings.Report
