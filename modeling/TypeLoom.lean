import TypeLoom.Main
import TypeLoom.Template.Record
import TypeLoom.Proofs.Lossless
import TypeLoom.Proofs.Expansion.Faithful
import TypeLoom.Proofs.Halting.Sources
import TypeLoom.Proofs.Token.Partition
import TypeLoom.Proofs.Tree.Linking
import TypeLoom.Proofs.Tree.Splicing
import TypeLoom.Proofs.Template.Stopping
import TypeLoom.Proofs.Expansion.Deepening
import TypeLoom.Proofs.Template.Agreeing
import TypeLoom.Proofs.Expansion.Balance
import TypeLoom.Proofs.Cursor.Comments
import TypeLoom.Proofs.Guard.Grammar
import TypeLoom.Proofs.Guard.Sources
import TypeLoom.Proofs.Scope.Discipline
import TypeLoom.Proofs.Assembling.Shapes
import TypeLoom.Proofs.Expansion.Failing
import TypeLoom.Proofs.Report.Labels
import TypeLoom.Proofs.Outcomes
import TypeLoom.Proofs.Template.Printing
import TypeLoom.Proofs.Template.Flattening
import TypeLoom.Proofs.Template.Delimiting
import TypeLoom.Proofs.Template.Covering
import TypeLoom.Proofs.Command.Grouping
import TypeLoom.Proofs.Command.Running
import TypeLoom.Proofs.Template.Members
import TypeLoom.Proofs.Template.Naming
import TypeLoom.Proofs.Expansion.Mentions
import TypeLoom.Proofs.Expansion.Intact
import TypeLoom.Proofs.Expansion.Marking
import TypeLoom.Proofs.Expansion.Registering
import TypeLoom.Proofs.Expansion.Markers
import TypeLoom.Proofs.Expansion.Expected
import TypeLoom.Proofs.Expansion.Emitting
import TypeLoom.Proofs.Template.Scoping
import TypeLoom.Proofs.Template.Closing
import TypeLoom.Proofs.Template.Locating
import TypeLoom.Proofs.Token.Longest
import TypeLoom.Proofs.Expansion.Remaining
import TypeLoom.Proofs.Params.Distribution
