import ModemLink.Radio.Hex
import ModemLink.Radio.Signal
import ModemLink.Text.Segments

/-!
# Cell locations

The identifiers that locate a cell: country and network code, cell identity and tracking area. They
come from the fields of a cell record, or from the one text that the location service reports for
the serving cell, `country,network,location area,cell,tracking area`.

* `Plmn.split`: the country and network code of a network identifier.
* `AreaReport.parse?`: the fields of the location service's text.
* `Location.decode`, `Location.ofReport`: the record from either source.
-/

namespace ModemLink

/-- The country code, which is the first three characters of a network identifier, and the network
code, which is the rest. The digits are not checked. -/
def Plmn.split (plmn : String) : String × String :=
  (String.ofList (plmn.toList.take 3), String.ofList (plmn.toList.drop 3))

/-- The cell identifiers in the location service's text. -/
structure AreaReport where
  mcc : String
  mnc : String
  ci : UInt32
  tac : UInt32
deriving DecidableEq, Repr

namespace AreaReport

/-- Whether a text is one to three decimal digits. -/
def isShortCode (s : List Char) : Bool :=
  1 ≤ s.length && s.length ≤ 3 && s.all Text.isDecimal

/-- The cell identifiers in the text `country,network,location area,cell,tracking area`. The last
three are hexadecimal; the location area is not kept, and nothing after the fifth field counts. -/
def parse? (data : String) : Option AreaReport :=
  match Text.segments ',' (Text.trim data.toList) with
  | mcc :: mnc :: lac :: ci :: tac :: _ =>
    if isShortCode mcc && isShortCode mnc then do
      let _ ← Hex.parse? lac
      let ci ← Hex.parse? ci
      let tac ← Hex.parse? tac
      return ⟨String.ofList mcc, String.ofList mnc, ci, tac⟩
    else none
  | _ => none

end AreaReport

/-- The identifiers that locate a cell. -/
structure CellLocation where
  values : Bag
deriving DecidableEq

namespace CellLocation

/-- The identifiers among the fields of a cell record. -/
def decode (raw : Bag) : Except Error CellLocation := do
  let values ←
    match ← raw.getOptional? .string "operator-id" with
    | none => pure ∅
    | some plmn =>
      let (mcc, mnc) := Plmn.split plmn
      pure (((∅ : Bag).insertAs .string "mcc" mcc).insertAs .string "mnc" mnc)
  let values ← values.copyHex raw "ci" "ci"
  let values ← values.copyHex raw "tac" "tac"
  return ⟨values⟩

/-- The identifiers of a report of the location service. -/
def ofReport (r : AreaReport) : CellLocation :=
  ⟨((((∅ : Bag).insertAs .string "mcc" r.mcc).insertAs .string "mnc" r.mnc).insertAs
    .uint32 "ci" r.ci).insertAs .uint32 "tac" r.tac⟩

/-- Mobile country code. -/
def mcc (c : CellLocation) : Except Error String := c.values.get .string "mcc"

/-- Mobile network code. -/
def mnc (c : CellLocation) : Except Error String := c.values.get .string "mnc"

/-- Cell identity. -/
def ci (c : CellLocation) : Except Error UInt32 := c.values.get .uint32 "ci"

/-- Tracking area code. -/
def tac (c : CellLocation) : Except Error UInt32 := c.values.get .uint32 "tac"

end CellLocation

/-- The location of the serving cell. -/
structure Location where
  generation : Generation
  cell : CellLocation
deriving DecidableEq

namespace Location

/-- The location in the fields of a cell record. -/
def decode (raw : Bag) (t : Technology) : Except Error Location := do
  let g ← t.generation
  return ⟨g, ← CellLocation.decode raw⟩

/-- The location in the location service's text, or nothing if the text is malformed. -/
def ofReport (data : String) (t : Technology) : Except Error (Option Location) := do
  let g ← t.generation
  return (AreaReport.parse? data).map fun r => ⟨g, .ofReport r⟩

def technology (l : Location) : Technology := l.generation.technology

def text (l : Location) : String := l.technology.text ++ " location " ++ l.cell.values.text

end Location

end ModemLink
