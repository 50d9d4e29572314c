import IntcodeMachine.CommandLine.Directory
import IntcodeMachine.Main
import IntcodeMachine.Snapshot.Breakout
import IntcodeMachine.Viewer.Frame
import IntcodeMachine.Workbench
import IntcodeMachine.Proofs.Machine.OpcodeTable
import IntcodeMachine.Proofs.Machine.Representation
import IntcodeMachine.Proofs.Breakout.Replay
import IntcodeMachine.Proofs.Viewer.Ticking
import IntcodeMachine.Proofs.Disassembly.Execution
import IntcodeMachine.Proofs.Machine.Driving
import IntcodeMachine.Proofs.Machine.Failing
import IntcodeMachine.Proofs.Snapshot.Lossless
import IntcodeMachine.Proofs.Memory.TotalMap
import IntcodeMachine.Proofs.Listing.Grammar
import IntcodeMachine.Proofs.Listing.Rendering
import IntcodeMachine.Proofs.Machine.LifeCycle
import IntcodeMachine.Proofs.Disassembly.Tiling
import IntcodeMachine.Proofs.Breakout.Rendering
import IntcodeMachine.Proofs.Machine.InputRegister
import IntcodeMachine.Proofs.CommandLine.Conducting
import IntcodeMachine.Proofs.Breakout.Bookkeeping
import IntcodeMachine.Proofs.Breakout.Calls
import IntcodeMachine.Proofs.Breakout.Steering
import IntcodeMachine.Proofs.Viewer.Watching
import IntcodeMachine.Proofs.Workbench.Wrapping
import IntcodeMachine.Proofs.Machine.Surfacing
import IntcodeMachine.Proofs.Memory.Layout
import IntcodeMachine.Proofs.Viewer.Panels
import IntcodeMachine.Proofs.Breakout.ReadingBack
import IntcodeMachine.Proofs.Instruction.Digits
import IntcodeMachine.Proofs.Disassembly.Unambiguous
import IntcodeMachine.Proofs.Breakout.Clearing
