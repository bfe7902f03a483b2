/-!
# Radio technologies

Sets of radio generations, kept as bits so that combinations can be expressed, and the mapping from
the bits of access technologies that a modem reports.

* `Technology.ofAccess`: the generations that a set of access technologies belongs to.
* `Technology.text`: the known generations of a set, joined by plus signs.
-/

namespace ModemLink

/-- A set of radio generations: bit 0 for the second, bit 1 for the third, bit 2 for the fourth
(LTE), bit 3 for the fifth (NR). Further bits are kept and mean nothing. -/
structure Technology where
  bits : UInt32
deriving DecidableEq, Repr

namespace Technology

def none : Technology := ⟨0⟩
def gsm : Technology := ⟨1⟩
def umts : Technology := ⟨2⟩
def lte : Technology := ⟨4⟩
def nr5g : Technology := ⟨8⟩

/-- The union of two sets. -/
def union (a b : Technology) : Technology := ⟨a.bits ||| b.bits⟩

/-- Whether all generations of `part` are in the set. -/
def includes (t part : Technology) : Bool := t.bits &&& part.bits == part.bits

/-- The known generations with their names, from the oldest to the newest. -/
def known : List (Technology × String) :=
  [(gsm, "GSM"), (umts, "UMTS"), (lte, "LTE"), (nr5g, "NR5G")]

/-- The bits of all known generations. -/
def knownBits : UInt32 := 15

/-- Whether the set has only bits of known generations. -/
def isKnown (t : Technology) : Bool := t.bits &&& knownBits == t.bits

/-- The set without bits of no known generation. -/
def truncated (t : Technology) : Technology := ⟨t.bits &&& knownBits⟩

/-- How many bits of a number are set. -/
def bitCount (n : Nat) : Nat := ((List.range 32).filter n.testBit).length

/-- Whether exactly one bit is set. -/
def isSingle (t : Technology) : Bool := bitCount t.bits.toNat == 1

/-- The access technologies of each generation: GSM, compact GSM, GPRS and EDGE; UMTS and the
HSPA family; LTE; NR. -/
def accessBits : List (UInt32 × Technology) :=
  [(0x1e, gsm), (0x3e0, umts), (0x4000, lte), (0x8000, nr5g)]

/-- The generations of the access technologies in `access`. -/
def ofAccess (access : UInt32) : Technology :=
  accessBits.foldl (fun t g => if access &&& g.1 == 0 then t else t.union g.2) none

def text (t : Technology) : String :=
  if t.bits == 0 then "UNKNOWN"
  else "+".intercalate ((known.filter fun g => t.includes g.1).map Prod.snd)

end Technology

end ModemLink
