import CqlGlue.Main
import CqlGlue.Proofs.Bindings.CallConvention
import CqlGlue.Proofs.Bindings.ManagedMembers
import CqlGlue.Proofs.Bindings.Outputs
import CqlGlue.Proofs.CSharp.Imports
import CqlGlue.Proofs.CommandLine.Spellings
import CqlGlue.Proofs.CommandLine.StandardInput
import CqlGlue.Proofs.EditorGrammar.FullRules
import CqlGlue.Proofs.EditorGrammar.Identifiers
import CqlGlue.Proofs.EditorGrammar.Inlined
import CqlGlue.Proofs.EditorGrammar.Language
import CqlGlue.Proofs.EditorGrammar.Renames
import CqlGlue.Proofs.Java.NativeMethods
import CqlGlue.Proofs.Java.SymbolParts
import CqlGlue.Proofs.Listing.InlinedAgain
import CqlGlue.Proofs.Listing.Language
import CqlGlue.Proofs.Listing.LeftSides
import CqlGlue.Proofs.Listing.LineByLine
import CqlGlue.Proofs.Listing.ReadBack
import CqlGlue.Proofs.Listing.SameProduction
import CqlGlue.Proofs.Objc.Order
import CqlGlue.Proofs.ReturnRow.Readers
import CqlGlue.Proofs.Schema.Unordered
import CqlGlue.Proofs.Sqlite.Arity
import CqlGlue.Proofs.Sqlite.Ownership
import CqlGlue.Proofs.Sqlite.Verbosity
