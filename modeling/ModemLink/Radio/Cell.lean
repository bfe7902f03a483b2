import ModemLink.Radio.Location

/-!
# Cell records

What a modem reports of one serving or neighbouring cell: how it is reached, how well it is heard
and where it is.

* `CellInfo.decode`: the record in a dictionary, or nothing for a cell of another technology.
* `CellInfo.decodeAll`: the records of a list, up to the first that is malformed.
-/

namespace ModemLink

/-- One serving or neighbouring cell. -/
structure CellInfo where
  generation : Generation
  /-- Whether the cell is the serving one, its identity, its channel and its physical identity. -/
  values : Bag
  signalValues : Bag
  location : CellLocation
deriving DecidableEq

namespace CellInfo

/-- The generation of the cells with a numeric type. -/
def generationOf? (cellType : UInt32) : Option Generation :=
  if cellType = 5 then some .lte else if cellType = 6 then some .nr5g else none

/-- The key of a cell's radio channel number. -/
def channelKey : Generation → String
  | .lte => "earfcn"
  | .nr5g => "nrarfcn"

/-- The record of a cell of a known generation. -/
def decodeAs (g : Generation) (raw : Bag) : Except Error CellInfo := do
  let values ← (∅ : Bag).copy raw .bool "serving"
  let values ← values.copyHex raw "ci" "ci"
  let values ← values.copy raw .uint32 (channelKey g)
  let values ← values.copyHex16 raw "physical-ci" "pci"
  return ⟨g, values, ← Signal.decodeValues g raw, ← CellLocation.decode raw⟩

/-- The record in a dictionary, told by its type, or nothing for a type that is not decoded. -/
def decode (raw : Bag) : Except Error (Option CellInfo) := do
  match generationOf? (← raw.get .uint32 "cell-type") with
  | some g => return some (← decodeAs g raw)
  | none => return none

/-- The decoded cells of a list in their order, up to the first record that is malformed. -/
def decodeAll (records : List Bag) : Except Error (List CellInfo) := do
  return (← records.mapM decode).filterMap id

def technology (c : CellInfo) : Technology := c.generation.technology

/-- Whether this is the serving cell; a cell that does not say is not. -/
def serving (c : CellInfo) : Bool := c.values.getD .bool "serving" false

/-- Cell identity, seldom reported for neighbours. -/
def ci (c : CellInfo) : Except Error UInt32 := c.values.get .uint32 "ci"

/-- Physical cell identity. -/
def pci (c : CellInfo) : Except Error UInt16 := c.values.get .uint16 "pci"

/-- Radio channel number. -/
def channel (c : CellInfo) : Except Error UInt32 := c.values.get .uint32 (channelKey c.generation)

/-- Signal quality of the cell. -/
def signal (c : CellInfo) : Signal := ⟨c.generation, c.signalValues⟩

def text (c : CellInfo) : String :=
  c.technology.text ++ " cell " ++ c.values.text ++ " signal " ++ c.signalValues.text ++
    " location " ++ c.location.values.text

end CellInfo

end ModemLink
