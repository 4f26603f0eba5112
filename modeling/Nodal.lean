import Nodal.LinearSystem.Meaning
import Nodal.Main
import Nodal.Netlist.Printer
import Nodal.Proofs.LinearSystem.Tiling
import Nodal.Proofs.Node.Numbering
import Nodal.Proofs.Circuit.Run
import Nodal.Proofs.Netlist.Steps
import Nodal.Proofs.Netlist.Records
import Nodal.Proofs.Element.Stamp
import Nodal.Proofs.Expr.Meaning
import Nodal.Proofs.LinearSystem.Matrix
import Nodal.Proofs.LinearSystem.Assembly
import Nodal.Proofs.Circuit.Connected
import Nodal.Proofs.Circuit.Assembly
import Nodal.Proofs.Circuit.Flattening
import Nodal.Proofs.Element.Equations
import Nodal.Proofs.LinearSystem.Equations
import Nodal.Proofs.Decimal.Double
import Nodal.Proofs.Expr.Exact
import Nodal.Proofs.LinearSystem.Exact
import Nodal.Proofs.Circuit.Equations
import Nodal.Proofs.Netlist.Miscounted
import Nodal.Proofs.Circuit.Copies
import Nodal.Proofs.Circuit.OwnNets
import Nodal.Proofs.Circuit.SharedNets
import Nodal.Proofs.Source.Lines
import Nodal.Proofs.Source.Words
import Nodal.Proofs.Dialect.NetList
import Nodal.Proofs.Netlist.Writing
import Nodal.Proofs.Netlist.Rendering
import Nodal.Proofs.Netlist.RoundTrip
import Nodal.Proofs.Node.Discovery
import Nodal.Proofs.Source.Cuts
import Nodal.Proofs.Netlist.Stops
import Nodal.Proofs.Netlist.Appending
import Nodal.Proofs.Netlist.Faults
import Nodal.Proofs.Circuit.Refusals
import Nodal.Proofs.LinearSystem.Labels
import Nodal.Proofs.Netlist.Names
import Nodal.Proofs.Circuit.Names
import Nodal.Proofs.Circuit.Impedance
import Nodal.Proofs.LinearSystem.Renumbering
import Nodal.Proofs.LinearSystem.Reordering
import Nodal.Proofs.Node.Renaming
import Nodal.Proofs.LinearSystem.Renaming
import Nodal.Proofs.LinearSystem.Conservation
import Nodal.Proofs.Circuit.Conservation
import Nodal.Proofs.Circuit.Nodes
import Nodal.Proofs.Netlist.Relabelling
import Nodal.Proofs.Source.Spacing
import Nodal.Proofs.Netlist.Spacing
import Nodal.Proofs.Circuit.Spacing
import Nodal.Proofs.Netlist.Accounting
import Nodal.Proofs.Netlist.Shapes
import Nodal.Proofs.Circuit.Warnings
import Nodal.Proofs.Decimal.Rounding
import Nodal.Proofs.Decimal.Nearest
import Nodal.Proofs.Decimal.Shortest
import Nodal.Proofs.Decimal.Positional
import Nodal.Proofs.Circuit.Reprinting
import Nodal.Proofs.Expr.Product
import Nodal.Proofs.Expr.Operators
import Nodal.Proofs.Decimal.Equality
import Nodal.Proofs.Expr.NormalForm
import Nodal.Proofs.Expr.Opposites
import Nodal.Proofs.LinearSystem.Cells
import Nodal.Proofs.LinearSystem.Cancelling
import Nodal.Proofs.LinearSystem.Writes
import Nodal.Proofs.LinearSystem.SymbolCounts
import Nodal.Proofs.Expr.Grammar
import Nodal.Proofs.Expr.Reading
import Nodal.Proofs.Expr.Symbols
import Nodal.Proofs.Expr.Spelling
import Nodal.Proofs.Expr.Rendering
import Nodal.Proofs.Source.Partition
import Nodal.Proofs.Decimal.Grammar
import Nodal.Proofs.Decimal.One
import Nodal.Proofs.Decimal.Numerals
import Nodal.Proofs.Circuit.Unknowns
import Nodal.Proofs.Circuit.Currents
import Nodal.Proofs.Element.History
import Nodal.Proofs.Circuit.Notes
import Nodal.Proofs.Netlist.Notes
import Nodal.Proofs.Source.Runs
import Nodal.Proofs.Netlist.Switches
