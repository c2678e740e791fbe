import FlowSketch.Main
import FlowSketch.Proofs.Graph.Composition
import FlowSketch.Proofs.Graph.Growing
import FlowSketch.Proofs.Graph.Representation
import FlowSketch.Proofs.Compile.Cycles
import FlowSketch.Proofs.Compile.Lookups
import FlowSketch.Proofs.Compile.Memo
import FlowSketch.Proofs.Compile.Operands
import FlowSketch.Proofs.Compile.Ordering
import FlowSketch.Proofs.Compile.Redrawing
import FlowSketch.Proofs.Compile.Texts
import FlowSketch.Proofs.Compile.Unconnected
import FlowSketch.Proofs.Execution.Depth
import FlowSketch.Proofs.Execution.Faults
import FlowSketch.Proofs.Execution.Simulation
import FlowSketch.Proofs.Journal.Reading
import FlowSketch.Proofs.Program.Concatenation
import FlowSketch.Proofs.Program.Failures
import FlowSketch.Proofs.Program.Identifiers
import FlowSketch.Proofs.Raster.Outlines
import FlowSketch.Proofs.Sketch.Boxes
import FlowSketch.Proofs.Session.Saving
import FlowSketch.Proofs.Session.Overflow
import FlowSketch.Proofs.Session.Resuming
import FlowSketch.Proofs.Session.Typing
