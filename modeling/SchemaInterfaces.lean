import SchemaInterfaces.Files.Tree
import SchemaInterfaces.Json.Writer
import SchemaInterfaces.Main
import SchemaInterfaces.Proofs.CommandLine.Precedence
import SchemaInterfaces.Proofs.CommandLine.Repetition
import SchemaInterfaces.Proofs.DerivedName
import SchemaInterfaces.Proofs.Interface.CommentText
import SchemaInterfaces.Proofs.Interface.DependencyOrder
import SchemaInterfaces.Proofs.Interface.Identifier
import SchemaInterfaces.Proofs.Interface.LayoutTokens
import SchemaInterfaces.Proofs.Interface.NormalForm
import SchemaInterfaces.Proofs.Interface.References
import SchemaInterfaces.Proofs.Interface.Renaming
import SchemaInterfaces.Proofs.Interface.UniqueReading
import SchemaInterfaces.Proofs.Interface.ValidName
import SchemaInterfaces.Proofs.Pointer
import SchemaInterfaces.Proofs.Banner
import SchemaInterfaces.Proofs.Entrywise
import SchemaInterfaces.Proofs.CommandLine.Preservation
import SchemaInterfaces.Proofs.Json.Number
import SchemaInterfaces.Proofs.Json.Reading
import SchemaInterfaces.Proofs.SchemaFile
import SchemaInterfaces.Proofs.Settings.Variables
import SchemaInterfaces.Proofs.Interface.TypeGrammar
import SchemaInterfaces.Proofs.NameCollision
import SchemaInterfaces.Proofs.UnifiedDiff
