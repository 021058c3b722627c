import StructSketch.CommandLine.World
import StructSketch.Go.Settings
import StructSketch.Main
import StructSketch.Stream.Rehearsal
import StructSketch.Proofs.Outline
import StructSketch.Proofs.GrowingTable
import StructSketch.Proofs.Layout
import StructSketch.Proofs.Inference
import StructSketch.Proofs.HeldLayout
import StructSketch.Proofs.Rendering
import StructSketch.Proofs.WellFormed
import StructSketch.Proofs.Generation
import StructSketch.Proofs.SchemaTree
import StructSketch.Proofs.RecordNames
import StructSketch.Proofs.References
import StructSketch.Proofs.SessionRun
import StructSketch.Proofs.FieldNames
import StructSketch.Proofs.MemberIdentifiers
import StructSketch.Proofs.FieldTags
import StructSketch.Proofs.Reordering
import StructSketch.Proofs.Legibility
import StructSketch.Proofs.Grammar.Documents
import StructSketch.Proofs.Diagnostics
import StructSketch.Proofs.OwnCalls
import StructSketch.Proofs.SessionCourse
import StructSketch.Proofs.CommandLines
import StructSketch.Proofs.FileTrees
import StructSketch.Proofs.ProgramRun
import StructSketch.Proofs.Traversal
import StructSketch.Proofs.DeadReferences
import StructSketch.Proofs.Appending
import StructSketch.Proofs.Likeness
import StructSketch.Proofs.NameLaws
import StructSketch.Proofs.ExportedNames
import StructSketch.Proofs.FixedWidth
import StructSketch.Proofs.NumberTypes
import StructSketch.Proofs.Skimming
import StructSketch.Proofs.SettingObjects
import StructSketch.Proofs.Settings
import StructSketch.Proofs.NameSearch
