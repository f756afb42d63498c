import ContentSchema.Catalog.Codec
import ContentSchema.Main
import ContentSchema.Proofs.Run.ChildTables
import ContentSchema.Proofs.Run.ContentTypes
import ContentSchema.Proofs.Run.Discriminators
import ContentSchema.Proofs.Run.ParentReferences
import ContentSchema.Value.Merge
import ContentSchema.Proofs.Document.Names
import ContentSchema.Proofs.Run.GeneratedNames
import ContentSchema.Proofs.Run.OverrideColumns
import ContentSchema.Proofs.Run.Display
import ContentSchema.Proofs.Pass.Identifiers
import ContentSchema.Proofs.Run.Synthesis
import ContentSchema.Proofs.Run.Growth
import ContentSchema.Proofs.Run.Independence
import ContentSchema.Proofs.FlexForm.Keys
import ContentSchema.Proofs.Pass.Keys
import ContentSchema.Proofs.FlexForm.Positions
import ContentSchema.Proofs.Pass.Positions
import ContentSchema.Proofs.Run.Positions
import ContentSchema.Proofs.Run.MergedLabels
import ContentSchema.Proofs.Run.Collections
import ContentSchema.Proofs.Run.ReferenceMap
import ContentSchema.Proofs.Run.TableOrder
import ContentSchema.Proofs.FlexForm.Translations
import ContentSchema.Proofs.Run.Translations
import ContentSchema.Proofs.Document.RoundTrip
import ContentSchema.Proofs.Document.SharedSettings
import ContentSchema.Proofs.Run.Grouping
import ContentSchema.Proofs.Run.FirstError
import ContentSchema.Proofs.Run.Sessions
import ContentSchema.Proofs.Run.FormLayouts
import ContentSchema.Proofs.Loading.Documents
import ContentSchema.Proofs.Run.Policies
import ContentSchema.Proofs.Value.Regrouping
import ContentSchema.Proofs.Definition.Reapplication
import ContentSchema.Proofs.Run.SharedForms
import ContentSchema.Proofs.Run.Settings
import ContentSchema.Proofs.Run.DisplayOrder
import ContentSchema.Proofs.Run.Configuration
import ContentSchema.Proofs.Run.SourceTexts
import ContentSchema.Proofs.Document.NameGrammar
import ContentSchema.Proofs.Run.Validation
import ContentSchema.Proofs.Run.LanguageFiles
import ContentSchema.Proofs.Run.WrittenTables
import ContentSchema.Proofs.Loading.ExistingColumns
import ContentSchema.Proofs.Language.Scopes
import ContentSchema.Proofs.Language.Additions
