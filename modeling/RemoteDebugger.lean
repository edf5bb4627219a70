import RemoteDebugger.Main
import RemoteDebugger.Proofs.Wire.Accounting
import RemoteDebugger.Proofs.Wire.Delivery
import RemoteDebugger.Proofs.Wire.Encoding
import RemoteDebugger.Proofs.Session.Pairing
import RemoteDebugger.Proofs.Session.Pending
import RemoteDebugger.Proofs.Session.Fatal
import RemoteDebugger.Proofs.Wire.Resynchronisation
import RemoteDebugger.Listing.Printed
import RemoteDebugger.Proofs.Listing.Entries
import RemoteDebugger.Proofs.Listing.Reading
import RemoteDebugger.Proofs.Text.Trimming
import RemoteDebugger.Proofs.Listing.Index
import RemoteDebugger.Proofs.Listing.RoundTrip
import RemoteDebugger.Proofs.Listing.Merging
import RemoteDebugger.Proofs.Prompt.Dialogue
import RemoteDebugger.Proofs.Prompt.ProgramCounter
import RemoteDebugger.Proofs.Session.Transcript
import RemoteDebugger.Proofs.Wire.Checksum
import RemoteDebugger.Proofs.Prompt.Spelling
import RemoteDebugger.Proofs.Prompt.Calls
import RemoteDebugger.Proofs.Prompt.Traffic
import RemoteDebugger.Proofs.Session.Foresight
import RemoteDebugger.Proofs.Prompt.Isolation
import RemoteDebugger.Proofs.Wire.Corruption
import RemoteDebugger.Proofs.Wire.Chunks
import RemoteDebugger.Proofs.Number.Denotation
import RemoteDebugger.Proofs.Target.HexReplies
import RemoteDebugger.Proofs.Target.StopReplies
import RemoteDebugger.Proofs.Target.TrapAddress
import RemoteDebugger.Proofs.Number.Numerals
import RemoteDebugger.Proofs.Target.PeripheralLists
import RemoteDebugger.Proofs.Listing.Lines
import RemoteDebugger.Proofs.Listing.Paragraphs
import RemoteDebugger.Proofs.Listing.Grouping
import RemoteDebugger.Proofs.Listing.CodeFields
import RemoteDebugger.Proofs.Results
import RemoteDebugger.Proofs.Number.Printing
import RemoteDebugger.Proofs.Prompt.Numbers
import RemoteDebugger.Proofs.Prompt.Grammar
import RemoteDebugger.Proofs.Listing.LineEnds
import RemoteDebugger.Proofs.Listing.Windows
import RemoteDebugger.Proofs.Prompt.Respelling
import RemoteDebugger.Proofs.Target.MemoryDump
import RemoteDebugger.Proofs.Wire.Termination
