import Modem.Binary64
import Modem.Bus.Dictionary
import Modem.Bus.ErrorReply
import Modem.Bus.Name
import Modem.Bus.ObjectPath
import Modem.Bus.Order
import Modem.Bus.Signature
import Modem.Bus.Value
import Modem.Bus.Wire.Layout
import Modem.Bus.Wire.Marshal
import Modem.Bus.Wire.Unmarshal
import Modem.Daemon.Arguments
import Modem.Daemon.Launch
import Modem.Daemon.Lock
import Modem.Daemon.Simulated
import Modem.Fault
import Modem.Firmware.Method
import Modem.Firmware.Payload
import Modem.Firmware.Settings
import Modem.Firmware.Wire
import Modem.Main
import Modem.Proofs.Bus.Legible
import Modem.Proofs.Bus.Offsets
import Modem.Proofs.Bus.Reading
import Modem.Proofs.Bus.Texts
import Modem.Proofs.Bus.Types
import Modem.Proofs.Bus.Words
import Modem.Proofs.Daemon.Locks
import Modem.Proofs.Firmware.Codec
import Modem.Proofs.Firmware.Grammar
import Modem.Proofs.Firmware.Values
import Modem.Proofs.Firmware.Wire
import Modem.Proofs.Published.Changes
import Modem.Proofs.Published.Client
import Modem.Proofs.Published.Reads
import Modem.Proofs.Published.Served
import Modem.Proofs.Published.Setups
import Modem.Proofs.Session.Absorption
import Modem.Proofs.Session.Account
import Modem.Proofs.Session.Answers
import Modem.Proofs.Session.Apart
import Modem.Proofs.Session.Availability
import Modem.Proofs.Session.Awaited
import Modem.Proofs.Session.Beginnings
import Modem.Proofs.Session.Brisk
import Modem.Proofs.Session.Burden
import Modem.Proofs.Session.Cadence
import Modem.Proofs.Session.Callers
import Modem.Proofs.Session.Concord
import Modem.Proofs.Session.Conservation
import Modem.Proofs.Session.Creation
import Modem.Proofs.Session.Deed
import Modem.Proofs.Session.Deletion
import Modem.Proofs.Session.Devices
import Modem.Proofs.Session.Ended
import Modem.Proofs.Session.Exports
import Modem.Proofs.Session.Finality
import Modem.Proofs.Session.Findings
import Modem.Proofs.Session.Handles
import Modem.Proofs.Session.Handling
import Modem.Proofs.Session.Heard
import Modem.Proofs.Session.Identity
import Modem.Proofs.Session.Instants
import Modem.Proofs.Session.Journal
import Modem.Proofs.Session.Mirror
import Modem.Proofs.Session.Moves
import Modem.Proofs.Session.Near
import Modem.Proofs.Session.Numbers
import Modem.Proofs.Session.Passages
import Modem.Proofs.Session.Past
import Modem.Proofs.Session.Period
import Modem.Proofs.Session.Queries
import Modem.Proofs.Session.Rates
import Modem.Proofs.Session.Ready
import Modem.Proofs.Session.Record
import Modem.Proofs.Session.Refusals
import Modem.Proofs.Session.Requests
import Modem.Proofs.Session.Rests
import Modem.Proofs.Session.Rulings
import Modem.Proofs.Session.Schedules
import Modem.Proofs.Session.Scripts
import Modem.Proofs.Session.Settling
import Modem.Proofs.Session.Spacing
import Modem.Proofs.Session.Tally
import Modem.Proofs.Session.Timely
import Modem.Proofs.Session.Timers
import Modem.Proofs.Session.Unasked
import Modem.Proofs.Session.Undisturbed
import Modem.Proofs.Signal.Agreement
import Modem.Proofs.Signal.Beside
import Modem.Proofs.Signal.Brevity
import Modem.Proofs.Signal.Change
import Modem.Proofs.Signal.Creation
import Modem.Proofs.Signal.Difference
import Modem.Proofs.Signal.Effect
import Modem.Proofs.Signal.Export
import Modem.Proofs.Signal.Lifecycle
import Modem.Proofs.Signal.Object
import Modem.Proofs.Signal.Outcome
import Modem.Proofs.Signal.Passage
import Modem.Proofs.Signal.Queries
import Modem.Proofs.Signal.Settling
import Modem.Proofs.Signal.Starts
import Modem.Proofs.Signal.Timing
import Modem.Proofs.Signal.Turns
import Modem.Proofs.Signal.Written
import Modem.Published.Client
import Modem.Published.Property
import Modem.Published.Served
import Modem.Published.StandIn
import Modem.Published.Station
import Modem.SearchTree
import Modem.Session.Clock
import Modem.Session.Parties
import Modem.Session.Script
import Modem.Session.Service
import Modem.Session.World
import Modem.Signal.Assembly
import Modem.Signal.Config
import Modem.Signal.Difference
import Modem.Signal.Exchange
import Modem.Signal.Interface
import Modem.Signal.Reporting
import Modem.Signal.Requester
import Modem.Signal.Snapshot
import Modem.Signal.Technology
import Modem.Signal.Timer
import Modem.State
