import ZMachine.Main
import ZMachine.Host.Recorded
import ZMachine.Proofs.Memory.Touch
import ZMachine.Proofs.Machine.Quiet
import ZMachine.Proofs.Machine.Course
import ZMachine.Proofs.Machine.Play
import ZMachine.Proofs.Machine.Run
import ZMachine.Proofs.Memory.Protection
import ZMachine.Proofs.Memory.Loading
import ZMachine.Proofs.Machine.Isolation
import ZMachine.Proofs.Machine.Resumption
import ZMachine.Proofs.Memory.Addressing
import ZMachine.Proofs.Memory.Tables
import ZMachine.Proofs.Machine.Addressing
import ZMachine.Proofs.Machine.Soundness
import ZMachine.Proofs.Machine.Safety
import ZMachine.Proofs.Object.Links
import ZMachine.Proofs.Object.Forest
import ZMachine.Proofs.Object.Tree
import ZMachine.Proofs.Instruction.Acceptance
import ZMachine.Proofs.Zscii.RoundTrip
import ZMachine.Proofs.Memory.Balance
import ZMachine.Proofs.Machine.Balance
import ZMachine.Proofs.Memory.Region
import ZMachine.Proofs.Machine.LineInput
import ZMachine.Proofs.Dictionary.Search
import ZMachine.Proofs.Machine.Diversion
import ZMachine.Proofs.Machine.Recall
import ZMachine.Proofs.Machine.Tokenising
import ZMachine.Proofs.Machine.Pristine
import ZMachine.Proofs.Machine.History
import ZMachine.Proofs.Object.Refusal
import ZMachine.Proofs.Machine.Tolerance
import ZMachine.Proofs.Zscii.Mapping
import ZMachine.Proofs.Dictionary.Separators
import ZMachine.Proofs.Machine.Unwinding
import ZMachine.Proofs.Machine.Entry
import ZMachine.Proofs.Object.Ancestry
import ZMachine.Proofs.Object.Blocks
import ZMachine.Proofs.Dictionary.Segments
import ZMachine.Proofs.Object.Values
import ZMachine.Proofs.Object.Attributes
import ZMachine.Proofs.Machine.ParseSlots
import ZMachine.Proofs.Abbreviation
import ZMachine.Proofs.Machine.InlineText
import ZMachine.Proofs.Machine.TableCopy
import ZMachine.Proofs.Machine.Arithmetic
import ZMachine.Proofs.Memory.PackedText
import ZMachine.Proofs.Instruction.Locality
import ZMachine.Proofs.Machine.TableScan
import ZMachine.Proofs.Object.SiblingWalk
import ZMachine.Proofs.Memory.Variables
import ZMachine.Proofs.Host.Screen
