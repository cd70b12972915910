import DoorBridge.Message
import DoorBridge.Frame.Reader
import DoorBridge.Record.Reader
import DoorBridge.Line.Edges
import DoorBridge.Line.Pin
import DoorBridge.Line.Transmitter
import DoorBridge.Storage.Memory
import DoorBridge.Storage.Chip
import DoorBridge.Settings.Load
import DoorBridge.Obstruction
import DoorBridge.Arbiter.Script
import DoorBridge.Engine.Service
import DoorBridge.Settings.Build
import DoorBridge.Firmware.Run
import DoorBridge.Proofs.Reuse
import DoorBridge.Proofs.Fresh
import DoorBridge.Proofs.Engine.Inbound
import DoorBridge.Proofs.Engine.Operations
import DoorBridge.Proofs.Engine.Offers
import DoorBridge.Proofs.Engine.Transmit
import DoorBridge.Proofs.Session
import DoorBridge.Proofs.Session.Order
import DoorBridge.Proofs.Session.Codes
import DoorBridge.Proofs.Session.Strokes
import DoorBridge.Proofs.Engine.Delay
import DoorBridge.Proofs.Session.Delay
import DoorBridge.Proofs.Line.Signal
import DoorBridge.Proofs.Line.Flush
import DoorBridge.Proofs.Frame.Reader
import DoorBridge.Proofs.Frame.Stream
import DoorBridge.Proofs.Frame.Flip
import DoorBridge.Proofs.Record.Reader
import DoorBridge.Proofs.Restore
import DoorBridge.Proofs.Log
import DoorBridge.Proofs.Logbook
import DoorBridge.Proofs.Chronicle
import DoorBridge.Proofs.Setback
import DoorBridge.Proofs.Life
import DoorBridge.Proofs.Session.Hearing
import DoorBridge.Proofs.Session.Replay
import DoorBridge.Proofs.Session.Cancel
import DoorBridge.Proofs.Engine.Agenda
import DoorBridge.Proofs.Engine.Tries
import DoorBridge.Proofs.Engine.Rest
import DoorBridge.Proofs.Session.Orders
import DoorBridge.Proofs.Session.Restart
import DoorBridge.Proofs.Session.Spacing
import DoorBridge.Proofs.Session.Wake
import DoorBridge.Proofs.Session.Refusal
import DoorBridge.Proofs.Session.Reset
import DoorBridge.Proofs.Session.Retry
import DoorBridge.Proofs.Session.Levels
import DoorBridge.Proofs.Engine.Senses
import DoorBridge.Proofs.Session.Carriage
import DoorBridge.Proofs.Session.Consistency
import DoorBridge.Proofs.Sensor
import DoorBridge.Proofs.Firmware.Turns
import DoorBridge.Proofs.Firmware.Warning
import DoorBridge.Proofs.Firmware.DoorOutput
import DoorBridge.Proofs.Settings.Accepted
import DoorBridge.Proofs.Toml.Entries
import DoorBridge.Proofs.Toml.Words
import DoorBridge.Proofs.Toml.Statements
import DoorBridge.Proofs.Settings.Values
import DoorBridge.Proofs.Settings.Agreement
import DoorBridge.Proofs.Arbiter
import DoorBridge.Proofs.Recovery
import DoorBridge.Proofs.Session.LastBeat
import DoorBridge.Proofs.Session.Motion
import DoorBridge.Proofs.Firmware.Receiving
import DoorBridge.Proofs.Obstruction
import DoorBridge.Proofs.Settings.Binary
import DoorBridge.Proofs.Settings.Triggers
import DoorBridge.Proofs.Session.Discovery
import DoorBridge.Proofs.Settings.Spellings
import DoorBridge.Proofs.Settings.Fold
import DoorBridge.Proofs.Settings.Box
import DoorBridge.Proofs.Storage.Items
import DoorBridge.Proofs.Queue.Sweep
