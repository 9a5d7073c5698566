import ChipEight.Machine.Accounts
import ChipEight.Machine.Summary
import ChipEight.Main
import ChipEight.Memory.Dump
import ChipEight.Operation
import ChipEight.Snapshot.Machine
import ChipEight.Proofs.Drawing
import ChipEight.Proofs.Memory
import ChipEight.Proofs.Instruction.Meaning
import ChipEight.Proofs.Word
import ChipEight.Proofs.Text
import ChipEight.Proofs.SpriteCells
import ChipEight.Proofs.Execution.ParallelDrawing
import ChipEight.Proofs.Execution.SpriteEdges
import ChipEight.Proofs.Loading
import ChipEight.Proofs.Execution.Effect
import ChipEight.Proofs.Execution.Faults
import ChipEight.Proofs.Execution.Frame
import ChipEight.Proofs.Session.Basic
import ChipEight.Proofs.Session.HostCall
import ChipEight.Proofs.Session.KeyWait
import ChipEight.Proofs.Session.CallStack
import ChipEight.Proofs.Session.Bounds
import ChipEight.Proofs.Instruction.Reading
import ChipEight.Proofs.Session.Sprites
import ChipEight.Proofs.Session.BlockTransfer
import ChipEight.Proofs.Execution.Remains
import ChipEight.Proofs.Instruction.WriteSet
import ChipEight.Proofs.Instruction.Arithmetic
import ChipEight.Proofs.Disassembly
import ChipEight.Proofs.Numeral
import ChipEight.Proofs.Instruction.Assembler
import ChipEight.Proofs.Instruction.Coding
import ChipEight.Proofs.Session.Reset
import ChipEight.Proofs.Session.Sizes
import ChipEight.Proofs.Snapshot.Acceptance
import ChipEight.Proofs.Snapshot.Faithful
import ChipEight.Proofs.Snapshot.RoundTrip
import ChipEight.Proofs.Instruction.Adjustment
import ChipEight.Proofs.Session.Adjustment
import ChipEight.Proofs.Session.Debugging
import ChipEight.Proofs.Random
import ChipEight.Proofs.Session.Independence
import ChipEight.Proofs.Session.RandomBytes
import ChipEight.Proofs.Session.EqualImages
import ChipEight.Proofs.Session.DrawnSources
import ChipEight.Proofs.ScreenText
import ChipEight.Proofs.Dump
import ChipEight.Proofs.Listing
import ChipEight.Proofs.Execution.Digits
import ChipEight.Proofs.Session.RegionLoads
import ChipEight.Proofs.Session.KeyEvents
import ChipEight.Proofs.Session.Glyphs
import ChipEight.Proofs.Numeral.Grammar
import ChipEight.Proofs.CommandLine.Address
