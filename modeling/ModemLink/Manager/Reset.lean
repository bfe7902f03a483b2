import ModemLink.Manager.Tracker
import ModemLink.Registry.Wait

/-!
# Resetting a modem

A modem that is reset goes away and comes back at another path. It is recognised by its identity:
the one that the registry has, or else the IMEI that the modem tells. The request for a modem with
this identity is made before the modem is told to reset, so that its return is not missed. If the
modem cannot be told, nobody waits for the request any more.

* `Reset.begin`: the beginning, which takes the identity from the registry.
* `Reset.step`: goes on as far as possible without asking.
* `Reset.expire`: the end when the time is over.
-/

namespace ModemLink

/-- How far the reset of a modem has come. -/
inductive Reset
  /-- Finds out the identity of the modem. -/
  | identifying (identity : Request String)
  /-- Tells the modem to reset, while a request for its return is made. -/
  | resetting (request : Registry.RequestId) (order : Request Unit)
  /-- Waits for the return of the modem. -/
  | waiting (request : Registry.RequestId)
  | ended (result : Except Error (Tracked Nat))

namespace Reset

/-- The reset of the modem at a path. -/
def begin (modems : Modems) (path : String) : Reset :=
  match modems.identityOf? path with
  | some identity => identifying (return identity)
  | none => identifying (Modem.imei path)

/-- Goes on when the identity of the modem is known. -/
def onIdentity (path : String) (modems : Modems) (identity : String) : Modems × Reset :=
  if identity.isEmpty then (modems, ended (.error (.unidentifiedModem path)))
  else
    let (modems, request) := modems.await (.imei identity)
    (modems, resetting request (Modem.reset path))

/-- Takes the outcome of the request, if it has one. -/
def onReturn (modems : Modems) (request : Registry.RequestId) : Modems × Reset :=
  match Registry.Wait.poll modems request false .outcome with
  | some result => (modems.abandon request, ended result)
  | none => (modems, waiting request)

/-- Goes on from one stage as far as possible without asking, if it is possible at all. -/
def step (path : String) (linked : Bool) (modems : Modems) : Reset → Modems × Reset
  | identifying identity =>
    match identity.proceed linked with
    | .done identity => onIdentity path modems identity
    | .fail e => (modems, ended (.error e))
    | blocked => (modems, identifying blocked)
  | resetting request order =>
    match order.proceed linked with
    | .done () => (modems, waiting request)
    | .fail e => (modems.abandon request, ended (.error e))
    | blocked => (modems, resetting request blocked)
  | waiting request => onReturn modems request
  | ended result => (modems, ended result)

/-- The question whose reply the reset waits for. -/
def question? : Reset → Option Bus.Query
  | identifying (.ask q _) => some q
  | resetting _ (.ask q _) => some q
  | _ => none

/-- The reset with the reply that it waits for. -/
def reply (r : Bus.Reply) : Reset → Reset
  | identifying (.ask _ next) => identifying (next r)
  | resetting request (.ask _ next) => resetting request (next r)
  | reset => reset

/-- The request that the reset has made and whose outcome it has not taken. -/
def request? : Reset → Option Registry.RequestId
  | resetting request _ => some request
  | waiting request => some request
  | _ => none

def hasEnded : Reset → Bool
  | ended _ => true
  | _ => false

/-- Whether the reset can only wait. -/
def isBlocked (modems : Modems) : Reset → Bool
  | waiting request => (modems.outcome? request).isNone
  | ended _ => true
  | _ => false

/-- Gives the reset up. -/
def giveUp (modems : Modems) (r : Reset) : Modems :=
  match r.request? with
  | some request => modems.abandon request
  | none => modems

/-- The end of a reset that waits when the time is over. If the modem has come back by then, it may
go by either. -/
def expire (choice : Registry.Wait.Choice) (modems : Modems) : Reset → Modems × Reset
  | waiting request =>
    match Registry.Wait.poll modems request true choice with
    | some result => (modems.abandon request, ended result)
    | none => (modems, waiting request)
  | reset => (modems, reset)

end Reset

end ModemLink
