import TeachLang.Ty
import TeachLang.Token.Listing
import TeachLang.Tree.Outline
import TeachLang.Grammar.Declaration
import TeachLang.Check.Declaration
import TeachLang.Compile
import TeachLang.Diagnostic.Report
import TeachLang.Command.Output
import TeachLang.Main
import TeachLang.Proofs.Check.Reported
import TeachLang.Proofs.Check.Stores
import TeachLang.Proofs.Command.Run
import TeachLang.Proofs.Diagnostic.MarkedLine
import TeachLang.Proofs.Diagnostic.Window
import TeachLang.Proofs.Extent.Part
import TeachLang.Proofs.Flow.Program
import TeachLang.Proofs.Grammar.DeclarationOrder
import TeachLang.Proofs.Grammar.ExpectedKinds
import TeachLang.Proofs.Grammar.Operation
import TeachLang.Proofs.Grammar.Quotation
import TeachLang.Proofs.Grammar.RoundTrip
import TeachLang.Proofs.Likeness.Isolation
import TeachLang.Proofs.Likeness.Layout
import TeachLang.Proofs.Likeness.Renaming
import TeachLang.Proofs.Nodes.Order
import TeachLang.Proofs.Outline.Program
import TeachLang.Proofs.Recheck.Declaration
import TeachLang.Proofs.Slots.BottomUp.Declaration
import TeachLang.Proofs.Slots.Program
import TeachLang.Proofs.Table.Inserts
import TeachLang.Proofs.Termination.Part
import TeachLang.Proofs.Token.Lines
import TeachLang.Proofs.Token.Munch
