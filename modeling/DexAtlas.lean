import DexAtlas.Container.Layout
import DexAtlas.Instruction.Assemble
import DexAtlas.Main
import DexAtlas.Proofs.Builder
import DexAtlas.Proofs.Ranges
import DexAtlas.Proofs.References
import DexAtlas.Proofs.Loading
import DexAtlas.Proofs.Identity
import DexAtlas.Proofs.Building
import DexAtlas.Proofs.Mentions
import DexAtlas.Proofs.Balance
import DexAtlas.Proofs.Completeness
import DexAtlas.Proofs.Indexing
import DexAtlas.Proofs.ErrorKinds
import DexAtlas.Proofs.OwnMethods
import DexAtlas.Proofs.Sweep
import DexAtlas.Proofs.Tiling
import DexAtlas.Proofs.Operands
import DexAtlas.Proofs.Assembly
import DexAtlas.Proofs.Searching
import DexAtlas.Proofs.Skipping
import DexAtlas.Proofs.Declarations
import DexAtlas.Proofs.Externals
import DexAtlas.Proofs.ClassLookup
import DexAtlas.Proofs.Definitions
import DexAtlas.Proofs.Erasure
import DexAtlas.Proofs.Membership
import DexAtlas.Proofs.Quotations
import DexAtlas.Proofs.Reordering
import DexAtlas.Proofs.Chunks
import DexAtlas.Proofs.Trailing
import DexAtlas.Proofs.Refusals
import DexAtlas.Proofs.StringItems
import DexAtlas.Proofs.RoundTrip
import DexAtlas.Proofs.Orphans
import DexAtlas.Proofs.Concatenation
import DexAtlas.Proofs.ArchiveImages
import DexAtlas.Proofs.RegistryRuns
import DexAtlas.Proofs.Versions
import DexAtlas.Proofs.Descriptors
import DexAtlas.Proofs.MemberNames
import DexAtlas.Proofs.CodeItems
import DexAtlas.Proofs.ReadingRoutes
import DexAtlas.Proofs.ClassDataItems
import DexAtlas.Proofs.Handlers
import DexAtlas.Proofs.Frames
import DexAtlas.Proofs.ParameterNames
import DexAtlas.Proofs.DefinitionErrors
import DexAtlas.Proofs.Literals
