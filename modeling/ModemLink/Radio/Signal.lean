import ModemLink.Property.Bag

/-!
# Signal quality

The signal values of a cell, by radio generation. Only the fourth and the fifth generation have
records of their own.

* `Technology.generation`: the generation of a technology that is exactly one of the two.
* `Signal.decode`: the record in a dictionary of reported values.
-/

namespace ModemLink

/-- The radio generations whose records are decoded. -/
inductive Generation
  | lte
  | nr5g
deriving DecidableEq, Repr

def Generation.technology : Generation → Technology
  | lte => .lte
  | nr5g => .nr5g

/-- The generation of a technology that is exactly LTE or exactly NR. -/
def Technology.generation (t : Technology) : Except Error Generation :=
  if t = .lte then .ok .lte
  else if t = .nr5g then .ok .nr5g
  else .error (.unsupportedTechnology t)

/-- The signal quality of a cell. -/
structure Signal where
  generation : Generation
  /-- The reported values. -/
  values : Bag
deriving DecidableEq

namespace Signal

/-- The keys under which signal values are reported for a generation, with the keys under which they
are kept. -/
def fields : Generation → List (String × String)
  | .lte => [("rsrp", "rsrp"), ("rsrq", "rsrq"), ("rssi", "rssi"), ("snr", "sinr")]
  | .nr5g => [("rsrp", "rsrp"), ("rsrq", "rsrq"), ("snr", "sinr")]

/-- The signal values of a generation among reported values. -/
def decodeValues (g : Generation) (raw : Bag) : Except Error Bag :=
  (fields g).foldlM (fun values field => do
    return (← values.copyAs raw .float field.1 field.2).1) ∅

/-- The record of a technology in a dictionary of reported values. -/
def decode (raw : Bag) (t : Technology) : Except Error Signal := do
  let g ← t.generation
  return ⟨g, ← decodeValues g raw⟩

def technology (s : Signal) : Technology := s.generation.technology

/-- Reference signal received power, in dBm. -/
def rsrp (s : Signal) : Except Error Double := s.values.get .float "rsrp"

/-- Reference signal received quality, in dB. -/
def rsrq (s : Signal) : Except Error Double := s.values.get .float "rsrq"

/-- Received signal strength, in dBm; reported for LTE only. -/
def rssi (s : Signal) : Except Error Double := s.values.get .float "rssi"

/-- Ratio of signal to interference and noise, in dB. -/
def sinr (s : Signal) : Except Error Double := s.values.get .float "sinr"

def text (s : Signal) : String := s.technology.text ++ " signal " ++ s.values.text

end Signal

end ModemLink
