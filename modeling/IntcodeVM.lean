import IntcodeVM.Main
import IntcodeVM.Proofs.Machine.FaultFrame
import IntcodeVM.Proofs.Circuit.Rounds
import IntcodeVM.Proofs.Disassembly.Reassembly
import IntcodeVM.Proofs.Assembly.Names
import IntcodeVM.Proofs.Disassembly.Overrun
import IntcodeVM.Proofs.Assembly.FirstPass
import IntcodeVM.Proofs.Assembly.SecondPass
import IntcodeVM.Proofs.Assembly.Agreement
import IntcodeVM.Proofs.Machine.PortFaults
import IntcodeVM.Proofs.Channel.Traffic
import IntcodeVM.Proofs.Machine.FiniteInput
import IntcodeVM.Proofs.Circuit.Replay
import IntcodeVM.Proofs.Circuit.Passing
import IntcodeVM.Proofs.Circuit.Composition
import IntcodeVM.Proofs.Circuit.ChainAndRing
import IntcodeVM.Proofs.Machine.Scratch
import IntcodeVM.Proofs.Machine.FirstInput
import IntcodeVM.Proofs.Machine.Lifecycle
import IntcodeVM.Proofs.Machine.LimitedRuns
import IntcodeVM.Proofs.Machine.OutputByOutput
import IntcodeVM.Proofs.Machine.UnreadInputs
import IntcodeVM.Proofs.Circuit.Starvation
import IntcodeVM.Proofs.Circuit.RootFault
import IntcodeVM.Proofs.Circuit.Records
import IntcodeVM.Proofs.Channel.History
import IntcodeVM.Proofs.Monitor.Attempts
import IntcodeVM.Proofs.Monitor.Readiness
import IntcodeVM.Proofs.Monitor.Printed
import IntcodeVM.Proofs.Monitor.Stepping
import IntcodeVM.Proofs.Hull.Deeds
import IntcodeVM.Proofs.Hull.ClosedLoop
import IntcodeVM.Proofs.Monitor.Waiting
import IntcodeVM.Proofs.Monitor.Refusals
import IntcodeVM.Proofs.CommandLine.Endings
import IntcodeVM.Proofs.Circuit.Threads
import IntcodeVM.Proofs.Circuit.Cascade
import IntcodeVM.Proofs.Circuit.Orderings
import IntcodeVM.Proofs.Circuit.PhaseSearch
import IntcodeVM.Proofs.CommandLine.StoredFiles
import IntcodeVM.Proofs.ProgramText.Grammar
import IntcodeVM.Proofs.Text.AsciiBytes
import IntcodeVM.Proofs.ProgramText.Rendering
import IntcodeVM.Proofs.Assembly.LongNumbers
import IntcodeVM.Proofs.CommandLine.AssembledFile
import IntcodeVM.Proofs.Disassembly.Decoding
import IntcodeVM.Proofs.Disassembly.InStep
import IntcodeVM.Proofs.Disassembly.DecoderAgreement
import IntcodeVM.Proofs.Instruction.ClearedModes
import IntcodeVM.Proofs.Machine.RelativeAddressing
import IntcodeVM.Proofs.Hull.Journey
import IntcodeVM.Proofs.Hull.Rendering
import IntcodeVM.Proofs.Monitor.Breakpoints
import IntcodeVM.Proofs.Monitor.FreshStart
import IntcodeVM.Proofs.Assembly.Joined
import IntcodeVM.Proofs.Assembly.Rejection
import IntcodeVM.Proofs.Assembly.LayoutEdits
import IntcodeVM.Proofs.Batch.PairSearch
