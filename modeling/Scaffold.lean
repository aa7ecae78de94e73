import Scaffold.Dialect.Echo
import Scaffold.Document.Reader
import Scaffold.Generator
import Scaffold.Proofs.Checked.Acceptance
import Scaffold.Proofs.Schema.Validity
import Scaffold.Proofs.Schema.Faults
import Scaffold.Proofs.Disambiguation.Collisions
import Scaffold.Proofs.Disambiguation.Renaming
import Scaffold.Proofs.Entity.Construction
import Scaffold.Proofs.Entity.DistinctNames
import Scaffold.Proofs.Entity.Origins
import Scaffold.Proofs.Entity.KeyColumns
import Scaffold.Proofs.Entity.Content
import Scaffold.Proofs.Entity.Targets
import Scaffold.Proofs.Disambiguation.Frame
import Scaffold.Proofs.Disambiguation.ListOrder
import Scaffold.Proofs.Disambiguation.Telling
import Scaffold.Proofs.Disambiguation.NameOrder
import Scaffold.Proofs.Disambiguation.Settled
import Scaffold.Proofs.Entity.Relisting
import Scaffold.Proofs.Entity.Locality
import Scaffold.Proofs.Generator.Outcome
import Scaffold.Proofs.Inflection.Emptiness
import Scaffold.Proofs.Naming.Emptiness
import Scaffold.Proofs.Config.ModulePath
import Scaffold.Proofs.Config.Grammar
import Scaffold.Proofs.Declaration.Contract
import Scaffold.Proofs.Disambiguation.Nameless
import Scaffold.Proofs.Entity.Contract
import Scaffold.Proofs.Dialect.Atoms
import Scaffold.Proofs.Rendering.JoinKeys
import Scaffold.Proofs.Dialect.OptionTexts
import Scaffold.Proofs.Schema.Grammar
import Scaffold.Proofs.Declaration.Grammar
import Scaffold.Proofs.Declaration.Safety
import Scaffold.Proofs.Rendering.Decoding
import Scaffold.Proofs.Dialect.Literals
import Scaffold.Proofs.Rendering.Pieces
import Scaffold.Proofs.Generator.Configuration
import Scaffold.Proofs.Log.Console
import Scaffold.Proofs.Rendering.Fields
import Scaffold.Proofs.Generator.Logging
import Scaffold.Proofs.Generator.Warnings
import Scaffold.Proofs.Inflection.Words
import Scaffold.Proofs.Naming.Words
import Scaffold.Proofs.Disambiguation.SharedNames
import Scaffold.Proofs.Disambiguation.JoinKeys
import Scaffold.Proofs.Disambiguation.Subjects
import Scaffold.Proofs.Entity.Qualification
import Scaffold.Proofs.Entity.JoinTables
import Scaffold.Proofs.Entity.ModulePaths
import Scaffold.Proofs.Disambiguation.Extension
import Scaffold.Proofs.Rendering.Settings
import Scaffold.Proofs.Rendering.Modules
import Scaffold.Proofs.Naming.WholeWords
import Scaffold.Proofs.Log.Lines
