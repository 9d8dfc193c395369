import RouteCatalog.Main
import RouteCatalog.Proofs.Catalog.Document
import RouteCatalog.Proofs.Extraction.Failure
import RouteCatalog.Proofs.Extraction.Independence
import RouteCatalog.Proofs.Extraction.Numbering
import RouteCatalog.Proofs.Extraction.Pruning
import RouteCatalog.Proofs.Extraction.Repetition
import RouteCatalog.Proofs.Project.Totals
import RouteCatalog.Scope.Program
import RouteCatalog.Proofs.Extraction.Ownership
import RouteCatalog.Proofs.Extraction.Splitting
import RouteCatalog.Proofs.Syntax.Lowering
import RouteCatalog.Proofs.Text.PrefixFree
import RouteCatalog.Proofs.Format.Json
import RouteCatalog.Proofs.Format.Document
import RouteCatalog.Proofs.Literal.Inspection
import RouteCatalog.Proofs.Catalog.Signature
import RouteCatalog.Proofs.Literal.Numerals
import RouteCatalog.Proofs.Literal.RoundTrip
import RouteCatalog.Proofs.Options
import RouteCatalog.Proofs.Registry.Resolution
import RouteCatalog.Proofs.Catalog.Conditions
import RouteCatalog.Proofs.Extraction.Keywords
import RouteCatalog.Proofs.Syntax.Docstring
import RouteCatalog.Proofs.Scope.Restoration
import RouteCatalog.Proofs.Project.Scanning
