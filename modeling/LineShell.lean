import LineShell.Outer.Main
import LineShell.Proofs.Commands.InTurn
import LineShell.Proofs.Commands.Lines
import LineShell.Proofs.Commands.Move
import LineShell.Proofs.Commands.Occurrences
import LineShell.Proofs.Commands.Overlay
import LineShell.Proofs.Commands.Remove
import LineShell.Proofs.Commands.Search
import LineShell.Proofs.Commands.Visits
import LineShell.Proofs.Completion.Directory
import LineShell.Proofs.Files.Tilde
import LineShell.Proofs.History
import LineShell.Proofs.Line.Seam
import LineShell.Proofs.Line.Trim
import LineShell.Proofs.Program.Capture
import LineShell.Proofs.Session.Colours
import LineShell.Proofs.Session.Directory
import LineShell.Proofs.Session.Effects
import LineShell.Proofs.Session.Interrupt
import LineShell.Proofs.Session.Recoloured
import LineShell.Proofs.Session.Turns
import LineShell.Proofs.Commands.Excerpt
import LineShell.Proofs.Commands.CountOption
import LineShell.Proofs.Files.Holding
import LineShell.Proofs.Listing.Columns
import LineShell.Proofs.Session.Accumulation
import LineShell.Proofs.Completion.Order
import LineShell.Proofs.Completion.Words
import LineShell.Proofs.Session.Prompt
import LineShell.Proofs.Session.Recall
import LineShell.Proofs.Help.Rectangular
import LineShell.Proofs.Help.Table
import LineShell.Proofs.Session.Consulted
import LineShell.Proofs.Session.Attached
import LineShell.Proofs.Program.Status
import LineShell.Proofs.Session.Reserved
import LineShell.Proofs.Text.Greedy
