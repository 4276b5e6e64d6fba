import NodeGrid.Arena
import NodeGrid.Assembly.Compile
import NodeGrid.Fabric.Basic
import NodeGrid.Fabric.Tick
import NodeGrid.Fabric.Topology
import NodeGrid.Grid.Basic
import NodeGrid.Grid.Command
import NodeGrid.Instruction
import NodeGrid.Proofs.Arena
import NodeGrid.Proofs.Arena.History
import NodeGrid.Proofs.Arithmetic
import NodeGrid.Proofs.Assembly.Blame
import NodeGrid.Proofs.Assembly.Compile
import NodeGrid.Proofs.Assembly.Cover
import NodeGrid.Proofs.Assembly.Cursor
import NodeGrid.Proofs.Assembly.Fault
import NodeGrid.Proofs.Assembly.Labels
import NodeGrid.Proofs.Assembly.Line
import NodeGrid.Proofs.Assembly.Listing
import NodeGrid.Proofs.Assembly.Location
import NodeGrid.Proofs.Assembly.Naming
import NodeGrid.Proofs.Assembly.Operands
import NodeGrid.Proofs.Assembly.Overlong
import NodeGrid.Proofs.Assembly.Place
import NodeGrid.Proofs.Assembly.Relayout
import NodeGrid.Proofs.Assembly.Respacing
import NodeGrid.Proofs.Assembly.Statement
import NodeGrid.Proofs.Assembly.Storage
import NodeGrid.Proofs.Assembly.Verdict
import NodeGrid.Proofs.Assembly.Wording
import NodeGrid.Proofs.Fabric.Action
import NodeGrid.Proofs.Fabric.Addition
import NodeGrid.Proofs.Fabric.Attachment
import NodeGrid.Proofs.Fabric.Census
import NodeGrid.Proofs.Fabric.Coherence
import NodeGrid.Proofs.Fabric.Conveyance
import NodeGrid.Proofs.Fabric.Isolation
import NodeGrid.Proofs.Fabric.Motion
import NodeGrid.Proofs.Fabric.Order
import NodeGrid.Proofs.Fabric.Pairs
import NodeGrid.Proofs.Fabric.Passing
import NodeGrid.Proofs.Fabric.Phase
import NodeGrid.Proofs.Fabric.Relay
import NodeGrid.Proofs.Fabric.Removal
import NodeGrid.Proofs.Fabric.Siblings
import NodeGrid.Proofs.Fabric.Topology
import NodeGrid.Proofs.Fabric.Trace
import NodeGrid.Proofs.Fabric.Wiring
import NodeGrid.Proofs.Grid.Age
import NodeGrid.Proofs.Grid.Closure
import NodeGrid.Proofs.Grid.Consistency
import NodeGrid.Proofs.Grid.Conveyance
import NodeGrid.Proofs.Grid.Delivery
import NodeGrid.Proofs.Grid.Edits
import NodeGrid.Proofs.Grid.Effect
import NodeGrid.Proofs.Grid.HandOver
import NodeGrid.Proofs.Grid.Isolation
import NodeGrid.Proofs.Grid.Order
import NodeGrid.Proofs.Grid.Pairs
import NodeGrid.Proofs.Grid.Range
import NodeGrid.Proofs.Grid.Reachable
import NodeGrid.Proofs.Grid.Recycling
import NodeGrid.Proofs.Grid.Refusal
import NodeGrid.Proofs.Grid.Relinking
import NodeGrid.Proofs.Grid.Rest
import NodeGrid.Proofs.Grid.Restarting
import NodeGrid.Proofs.Grid.Siblings
import NodeGrid.Proofs.Grid.Stalling
import NodeGrid.Proofs.Grid.Visibility
import NodeGrid.Proofs.Grid.Wiring
import NodeGrid.Proofs.Grid.Writes
import NodeGrid.Proofs.Node.Claims
import NodeGrid.Proofs.Node.Consistency
import NodeGrid.Proofs.Node.Ideal
import NodeGrid.Proofs.Node.Kept
import NodeGrid.Proofs.Node.Overheard
import NodeGrid.Proofs.Node.Range
import NodeGrid.Proofs.Node.Recompile
import NodeGrid.Proofs.Node.Record
import NodeGrid.Proofs.Node.Transition
import NodeGrid.Proofs.Node.Twins
import NodeGrid.Proofs.Operand
import NodeGrid.Proofs.Pipe.Numbers
import NodeGrid.Proofs.Pipe.Protocol
import NodeGrid.Proofs.Pipe.Table
import NodeGrid.Proofs.Pipe.Twins
import NodeGrid.Proofs.Text.Decimal
import NodeGrid.Proofs.Text.Idempotence
import NodeGrid.Proofs.Text.Offsets
import NodeGrid.Proofs.Text.Uppercase
import NodeGrid.Proofs.Text.Words
import NodeGrid.Proofs.Wire.Codec
import NodeGrid.Proofs.Wire.Report
import NodeGrid.Settings.Document
import NodeGrid.Wire.Codec
import NodeGrid.Wire.Report
