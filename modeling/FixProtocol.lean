import FixProtocol.Engine.Engine
import FixProtocol.Json.Form
import FixProtocol.Proofs.Session.Moves
import FixProtocol.Proofs.Session.Rules
import FixProtocol.Proofs.Wire.Fields
import FixProtocol.Session.Link
import FixProtocol.Store.Memory
import FixProtocol.Proofs.Session.Calls
import FixProtocol.Proofs.Session.Delivery
import FixProtocol.Proofs.Session.Frames
import FixProtocol.Proofs.Network.Sender
import FixProtocol.Proofs.Network.Delivery
import FixProtocol.Proofs.Clock.Timestamp
import FixProtocol.Proofs.Session.Writing
import FixProtocol.Proofs.Session.Resending
import FixProtocol.Proofs.Session.Exchange
import FixProtocol.Proofs.Link.Resync
import FixProtocol.Proofs.Wire.Contents
import FixProtocol.Proofs.Session.Tiling
import FixProtocol.Proofs.Session.Numbering
import FixProtocol.Proofs.Session.Counters
import FixProtocol.Proofs.Session.Succession
import FixProtocol.Proofs.Session.Calm
import FixProtocol.Proofs.Session.Turns
import FixProtocol.Proofs.Link.Perfect
import FixProtocol.Proofs.Wire.Grammar
import FixProtocol.Proofs.Wire.Chunks
import FixProtocol.Proofs.Wire.Stream
import FixProtocol.Proofs.Engine.Changes
import FixProtocol.Proofs.Engine.Closing
import FixProtocol.Proofs.Session.Idle
import FixProtocol.Proofs.Session.States
import FixProtocol.Proofs.Session.Gaps
import FixProtocol.Proofs.Session.Arrivals
import FixProtocol.Proofs.Session.Readable
import FixProtocol.Proofs.Wire.Spelling
import FixProtocol.Proofs.Wire.Corruption
import FixProtocol.Proofs.Session.Finality
import FixProtocol.Proofs.Session.Telling
import FixProtocol.Proofs.Engine.Order
import FixProtocol.Proofs.Engine.Output
import FixProtocol.Proofs.Session.Tally
import FixProtocol.Proofs.Session.Atomicity
import FixProtocol.Proofs.Session.Applications
import FixProtocol.Proofs.Session.Draining
import FixProtocol.Proofs.Link.Repair
import FixProtocol.Proofs.Session.Failures
import FixProtocol.Proofs.Session.Erasure
import FixProtocol.Proofs.Session.Taken
import FixProtocol.Proofs.Session.Deadlines
import FixProtocol.Proofs.Session.Clocked
import FixProtocol.Proofs.Session.Punctuality
import FixProtocol.Proofs.Session.Answered
import FixProtocol.Proofs.Session.Spending
import FixProtocol.Proofs.Session.Expecting
import FixProtocol.Proofs.Session.Checked
import FixProtocol.Proofs.Session.Passing
import FixProtocol.Proofs.Engine.Handing
import FixProtocol.Proofs.Store.History
import FixProtocol.Proofs.Wire.Limit
import FixProtocol.Proofs.Session.Sizes
import FixProtocol.Proofs.Engine.Limit
import FixProtocol.Proofs.Session.Leaving
import FixProtocol.Proofs.Engine.Leaving
import FixProtocol.Proofs.Wire.Reading
import FixProtocol.Proofs.Session.Settings
import FixProtocol.Proofs.Json.Strings
import FixProtocol.Proofs.Session.Names
import FixProtocol.Proofs.Clock.Calendar
import FixProtocol.Proofs.Clock.Written
import FixProtocol.Proofs.Session.Parking
