import ModemLink.Bus.Declared
import ModemLink.Bus.Fault
import ModemLink.Bus.Names
import ModemLink.Bus.Query
import ModemLink.Bus.Value
import ModemLink.Bus.World
import ModemLink.Decimal.Positional
import ModemLink.Decimal.Shortest
import ModemLink.Error
import ModemLink.Handle.Board
import ModemLink.Handle.Call
import ModemLink.Manager.Announcement
import ModemLink.Manager.Reset
import ModemLink.Manager.Start
import ModemLink.Manager.Tracker
import ModemLink.Modem.Codes
import ModemLink.Modem.Config
import ModemLink.Modem.Credential
import ModemLink.Modem.Filter
import ModemLink.Modem.State
import ModemLink.Network.Calendar
import ModemLink.Network.IpConfig
import ModemLink.Network.Time
import ModemLink.Observer.Shutdown
import ModemLink.Observer.Slot
import ModemLink.Observer.Work
import ModemLink.Program.Basic
import ModemLink.Property.Bag
import ModemLink.Property.Basic
import ModemLink.Property.Double
import ModemLink.Property.Entries
import ModemLink.Property.Shelf
import ModemLink.Property.Type
import ModemLink.Radio.Cell
import ModemLink.Radio.Hex
import ModemLink.Radio.Location
import ModemLink.Radio.Signal
import ModemLink.Radio.Technology
import ModemLink.Record.Basic
import ModemLink.Registry.Basic
import ModemLink.Registry.Named
import ModemLink.Registry.Wait
import ModemLink.Remote.Bearer
import ModemLink.Remote.Modem
import ModemLink.Remote.Network
import ModemLink.Remote.Sim
import ModemLink.Remote.Watch
import ModemLink.Session.Client
import ModemLink.Session.Run
import ModemLink.Session.Scene
import ModemLink.Session.Step
import ModemLink.Text.Beginning
import ModemLink.Text.Blank
import ModemLink.Text.Digits
import ModemLink.Text.Segments
import ModemLink.Traffic.Observation
import ModemLink.Traffic.Scripted
import ModemLink.Proofs.Registry.Events
import ModemLink.Proofs.Registry.Requests
import ModemLink.Proofs.Registry.Listing
import ModemLink.Proofs.Manager.Changes
import ModemLink.Proofs.Manager.Order
import ModemLink.Proofs.Bus.Tree
import ModemLink.Proofs.Manager.Return
import ModemLink.Proofs.Manager.Startup
import ModemLink.Proofs.Session.Guard
import ModemLink.Proofs.Observer.Single
import ModemLink.Proofs.Manager.Identity
import ModemLink.Proofs.Program.Links
import ModemLink.Proofs.Registry.Ownership
import ModemLink.Proofs.Observer.Ledger
import ModemLink.Proofs.Observer.Attempts
import ModemLink.Proofs.Session.Moves
import ModemLink.Proofs.Session.Lifetime
import ModemLink.Proofs.Session.Cancellation
import ModemLink.Proofs.Session.Registrations
import ModemLink.Proofs.Session.Failures
import ModemLink.Proofs.Manager.Enumeration
import ModemLink.Proofs.Session.Watchers
import ModemLink.Proofs.Remote.Reports
import ModemLink.Proofs.Traffic.Registrations
import ModemLink.Proofs.Property.Fields
import ModemLink.Proofs.Radio.Records
import ModemLink.Proofs.Radio.Cells
import ModemLink.Proofs.Registry.Waiting
import ModemLink.Proofs.Text.Parts
import ModemLink.Proofs.Radio.Numerals
import ModemLink.Proofs.Radio.AreaReports
import ModemLink.Proofs.Radio.Transfers
import ModemLink.Proofs.Property.Reading
import ModemLink.Proofs.Property.Writes
import ModemLink.Proofs.Property.Conversion
import ModemLink.Proofs.Remote.Sources
import ModemLink.Proofs.Network.Days
import ModemLink.Proofs.Network.Stamps
import ModemLink.Proofs.Remote.Connections
import ModemLink.Proofs.Remote.Rates
import ModemLink.Proofs.Session.Habits
import ModemLink.Proofs.Session.Reporting
