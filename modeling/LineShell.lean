import LineShell.ByteCursor
import LineShell.CommandLine
import LineShell.Host
import LineShell.Main
import LineShell.Proofs.Loop
import LineShell.Proofs.Failures
import LineShell.Proofs.Endings
import LineShell.Proofs.Reports
import LineShell.Proofs.Accounting
import LineShell.Proofs.Calls
import LineShell.Proofs.Layout
import LineShell.Proofs.PlainLines
import LineShell.Proofs.Alike
import LineShell.Proofs.Feeding
import LineShell.Proofs.BlankLines
import LineShell.Proofs.Remembering
import LineShell.Proofs.HistoryLog
import LineShell.Proofs.HistoryRefinement
import LineShell.Proofs.HistoryFile
import LineShell.Proofs.FileTree
import LineShell.Proofs.Unlogged
import LineShell.Proofs.Dialogue
import LineShell.Proofs.Desk
import LineShell.Proofs.Splitting
import LineShell.Proofs.FailedWrites
import LineShell.Proofs.Truncation
import LineShell.Proofs.Requests
import LineShell.Proofs.Sparing
import LineShell.Proofs.Consulting
import LineShell.Proofs.Guarding
import LineShell.Proofs.Attaching
import LineShell.Proofs.Nesting
import LineShell.Proofs.Kits
import LineShell.Proofs.Retrying
import LineShell.Proofs.Starting
import LineShell.Proofs.ExitStatus
import LineShell.Proofs.Registering
import LineShell.Proofs.WordlessLines
import LineShell.Proofs.Recording
import LineShell.Proofs.HistoryHandover
import LineShell.Proofs.FiniteInput
import LineShell.Proofs.Printing
import LineShell.Proofs.Joining
import LineShell.Proofs.Causes
import LineShell.Proofs.Applying
import LineShell.Proofs.Handles
import LineShell.Proofs.PlainWords
import LineShell.Proofs.Numerals
import LineShell.Proofs.ArgumentReading
import LineShell.Proofs.Quoting
import LineShell.Proofs.ExitArguments
import LineShell.Proofs.NegativeNumbers
import LineShell.Proofs.Refusals
import LineShell.Proofs.Echoing
import LineShell.Proofs.LineReading
import LineShell.Proofs.Filling
import LineShell.Proofs.WholeLoads
import LineShell.Proofs.ByteOrder
import LineShell.Proofs.CommandTable
import LineShell.Proofs.Reconfiguring
import LineShell.Proofs.SettingUp
import LineShell.Proofs.Documents
import LineShell.Proofs.Decoding
import LineShell.Proofs.SettingKeys
import LineShell.Proofs.Advancing
