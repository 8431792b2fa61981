import SqlTree.Builder.Mutation
import SqlTree.Diagram
import SqlTree.Expr.Arithmetic
import SqlTree.Expr.Predicate
import SqlTree.Proofs.Compound.Flat
import SqlTree.Proofs.Compound.Unlocked
import SqlTree.Proofs.Grammar.RoundTrip
import SqlTree.Proofs.Grammar.Textless
import SqlTree.Proofs.Lexing.Block
import SqlTree.Proofs.Lexing.Statement
import SqlTree.Proofs.Meaning.Complement
import SqlTree.Proofs.Meaning.Order
import SqlTree.Proofs.Mutation.Target
import SqlTree.Proofs.Reading.Agreement
import SqlTree.Proofs.Reading.Independence
import SqlTree.Proofs.Reading.Binding
import SqlTree.Proofs.Reading.Filling
import SqlTree.Proofs.Reading.Portability
import SqlTree.Proofs.Reading.Placeholders
import SqlTree.Proofs.Building.Columns
import SqlTree.Proofs.Building.Insertion
import SqlTree.Proofs.Building.Joining
import SqlTree.Proofs.Building.Lists
import SqlTree.Proofs.Building.Run
import SqlTree.Proofs.Reading.Walk
import SqlTree.Proofs.Diagram.Text
import SqlTree.Proofs.Precedence.Engines
import SqlTree.Proofs.Precedence.Evaluation
import SqlTree.Proofs.Seams.Node
import SqlTree.Proofs.Writing.BareWord
import SqlTree.Proofs.Writing.CommonTable
import SqlTree.Proofs.Writing.ImplicitName
import SqlTree.Proofs.Writing.Site
import SqlTree.Sql.Collector
