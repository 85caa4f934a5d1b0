import ProtocolGen.Main
import ProtocolGen.Proofs.Types.Classification
import ProtocolGen.Wire.Enumeration
import ProtocolGen.Wire.EventFault
import ProtocolGen.Wire.RawPayload
import ProtocolGen.Proofs.Types.AliasChains
import ProtocolGen.Proofs.Types.Extension
import ProtocolGen.Proofs.Package.Staging
import ProtocolGen.Proofs.Package.ModulePaths
import ProtocolGen.Proofs.Naming.Identifiers
import ProtocolGen.Proofs.Package.Extension
import ProtocolGen.Proofs.Documentation.Undocumented
import ProtocolGen.Proofs.Documentation.Classification
import ProtocolGen.Proofs.Documentation.Code
import ProtocolGen.Proofs.Documentation.Inert
import ProtocolGen.Proofs.Emission.Definitions
import ProtocolGen.Proofs.Types.DeclaredNames
import ProtocolGen.Proofs.Emission.TypeNames
import ProtocolGen.Proofs.Package.Layout
import ProtocolGen.Proofs.Source.Lines
import ProtocolGen.Proofs.Source.Scanning
import ProtocolGen.Proofs.Source.Phrases
import ProtocolGen.Proofs.Emission.Facade
import ProtocolGen.Proofs.Emission.Methods
import ProtocolGen.Proofs.Package.Facade
import ProtocolGen.Proofs.FileTree.Entries
import ProtocolGen.Proofs.FileTree.Persist
import ProtocolGen.Proofs.Package.Disk
import ProtocolGen.Proofs.CommandLine.Check
import ProtocolGen.Proofs.Document.Shapes
import ProtocolGen.Proofs.Document.Mirror
import ProtocolGen.Proofs.Document.Decoding
import ProtocolGen.Proofs.Document.References
import ProtocolGen.Proofs.Document.KnownMembers
import ProtocolGen.Proofs.Document.Parsing
import ProtocolGen.Proofs.Document.Merging
import ProtocolGen.Proofs.Emission.DefinitionLines
import ProtocolGen.Proofs.Package.TypesKept
import ProtocolGen.Proofs.Naming.Spelling
import ProtocolGen.Proofs.Emission.TopLevelNames
import ProtocolGen.Proofs.Package.NameClashes
import ProtocolGen.Proofs.Package.FailedWrites
import ProtocolGen.Proofs.Package.FormatFaults
import ProtocolGen.Proofs.CommandLine.BadFiles
import ProtocolGen.Proofs.Package.RecordClashes
import ProtocolGen.Proofs.Types.Indirection
import ProtocolGen.Proofs.Json.Compact
import ProtocolGen.Proofs.Json.RoundTrip
import ProtocolGen.Proofs.Wire.RawPayload
import ProtocolGen.Proofs.Text.Words
import ProtocolGen.Proofs.Source.TripleQuotes
import ProtocolGen.Proofs.Source.Docstrings
import ProtocolGen.Proofs.Naming.Members
import ProtocolGen.Proofs.Source.ImportSections
import ProtocolGen.Proofs.Emission.Annotations
import ProtocolGen.Proofs.Emission.AnyNames
import ProtocolGen.Proofs.Package.AnyImports
import ProtocolGen.Proofs.Emission.Conversions
import ProtocolGen.Proofs.Source.Literals
import ProtocolGen.Proofs.Emission.FieldViews
import ProtocolGen.Proofs.Emission.SelfReferences
import ProtocolGen.Proofs.Emission.ClassCode
import ProtocolGen.Proofs.Emission.ArgumentBuilders
import ProtocolGen.Proofs.Package.ArgumentBuilders
import ProtocolGen.Proofs.Naming.Words
import ProtocolGen.Proofs.Naming.SafeNames
import ProtocolGen.Proofs.Wire.Enumeration
import ProtocolGen.Proofs.Document.FaultPaths
import ProtocolGen.Proofs.Source.NormalForms
import ProtocolGen.Proofs.Package.Flushes
import ProtocolGen.Proofs.Source.ImportOrder
import ProtocolGen.Proofs.Source.FilledLines
import ProtocolGen.Proofs.Emission.WrittenTexts
import ProtocolGen.Proofs.Package.ValidImports
