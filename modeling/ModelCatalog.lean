import ModelCatalog.Main
import ModelCatalog.Proofs.Commit.AllOrNothing
import ModelCatalog.Proofs.Generation.OneByOne
import ModelCatalog.Proofs.Generation.Overwriting
import ModelCatalog.Proofs.Generation.Recording
import ModelCatalog.Proofs.Models.Constructors
import ModelCatalog.Proofs.Models.Loaders
import ModelCatalog.Proofs.Models.TreeLoading
import ModelCatalog.Proofs.Registry.Reading
import ModelCatalog.Proofs.Models.OneEntry
import ModelCatalog.Proofs.Models.Nesting
import ModelCatalog.Proofs.Generation.InPlace
import ModelCatalog.Proofs.Generation.Written
import ModelCatalog.Proofs.Generation.DryRun
import ModelCatalog.Proofs.Names.NormalForms
import ModelCatalog.Proofs.Names.Separators
import ModelCatalog.Proofs.Generation.Regenerating
import ModelCatalog.Proofs.Scaffold.Recovering
import ModelCatalog.Proofs.Generation.Summaries
import ModelCatalog.Proofs.Models.Inserting
import ModelCatalog.Proofs.Names.IdTexts
import ModelCatalog.Proofs.Names.Shapes
import ModelCatalog.Proofs.Commit.Losses
