import RelEngine.Dump.Load
import RelEngine.Dump.Write
import RelEngine.Main
import RelEngine.Plan.Rows
import RelEngine.Plan.Sketch
import RelEngine.Proofs.Dump.Grammar
import RelEngine.Proofs.Dump.Reloaded
import RelEngine.Proofs.Plan.Reading
import RelEngine.Proofs.Query.Collecting
import RelEngine.Proofs.Query.JoinKinds
import RelEngine.Proofs.Query.Products
import RelEngine.Proofs.Statement.SelfReference
import RelEngine.Proofs.Statement.SoundRows
import RelEngine.Proofs.Statement.UniqueColumns
import RelEngine.Query.Relation
import RelEngine.Query.Result
import RelEngine.Statement.Run
import RelEngine.Tree.Value
import RelEngine.Proofs.Tree.Faults
import RelEngine.Proofs.Scan.Finds
import RelEngine.Proofs.Plan.Naming
import RelEngine.Proofs.Query.Readable
import RelEngine.Proofs.Statement.InsertRows
import RelEngine.Proofs.Statement.ExactUpdate
import RelEngine.Proofs.Statement.ReferenceChecks
import RelEngine.Proofs.Statement.WithoutReferences
import RelEngine.Proofs.Scan.Positions
import RelEngine.Proofs.Scan.Bounds
import RelEngine.Proofs.Scan.Interleaving
import RelEngine.Proofs.Plan.Exhaustion
import RelEngine.Proofs.Statement.ExactDelete
import RelEngine.Proofs.Statement.ExactDrop
import RelEngine.Proofs.Statement.ExactInsert
import RelEngine.Proofs.Tree.Meaning
import RelEngine.Proofs.Plan.Writing
import RelEngine.Proofs.Plan.Resolving
import RelEngine.Proofs.Plan.Partition
import RelEngine.Proofs.Query.Resolution
import RelEngine.Proofs.Statement.SelfAssignment
import RelEngine.Proofs.Row.Accepted
import RelEngine.Proofs.Tree.Integers
import RelEngine.Proofs.Statement.RowByRow
import RelEngine.Proofs.Schema.Layout
import RelEngine.Proofs.Value.Comparing
import RelEngine.Proofs.RowStore.History
