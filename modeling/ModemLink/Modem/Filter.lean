/-!
# Modem filters

Which modem an await request is for.
-/

namespace ModemLink

/-- What a request waits for. -/
inductive ModemFilter
  /-- The next modem, whatever its identity. -/
  | any
  /-- The modem with this identity. -/
  | imei (identity : String)
deriving DecidableEq, Repr

namespace ModemFilter

/-- Whether a modem with the given identity is waited for. A modem without an identity, which is the
empty text, only matches a request for any modem. -/
def accepts : ModemFilter → String → Bool
  | any, _ => true
  | imei wanted, identity => !identity.isEmpty && wanted == identity

theorem accepts_iff {filter : ModemFilter} {identity : String} :
    filter.accepts identity = true ↔ filter = any ∨ filter = imei identity ∧ identity ≠ "" := by
  cases filter with
  | any => simp [accepts]
  | imei wanted => simp [accepts, and_comm]

def text : ModemFilter → String
  | any => "any modem"
  | imei identity => "IMEI " ++ identity

end ModemFilter

end ModemLink
