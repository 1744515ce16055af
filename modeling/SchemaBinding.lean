import SchemaBinding.Text.CodePoints
import SchemaBinding.Text.Letter
import SchemaBinding.Text.Numeric
import SchemaBinding.Text.Word
import SchemaBinding.Text.Blank
import SchemaBinding.Text.Identifier
import SchemaBinding.Text.Printable
import SchemaBinding.Text.LowerCase
import SchemaBinding.Text.UpperCase
import SchemaBinding.Text.Quoted
import SchemaBinding.Number.Shortest
import SchemaBinding.Number.Numeral
import SchemaBinding.Calendar.Iso
import SchemaBinding.Calendar.Epoch
import SchemaBinding.Value.Equality
import SchemaBinding.Value.Printer
import SchemaBinding.Fault
import SchemaBinding.Contract.Comparison
import SchemaBinding.UserFunction
import SchemaBinding.Contract.Basic
import SchemaBinding.Kind.Conversion
import SchemaBinding.Registry
import SchemaBinding.Binding.Record
import SchemaBinding.Table.Build
import SchemaBinding.Log.Level
import SchemaBinding.Settings.Validation
import SchemaBinding.Session.Step
import SchemaBinding.Log.Line
import SchemaBinding.Toml.Document
import SchemaBinding.Yaml.Document
import SchemaBinding.Settings.Layers
import SchemaBinding.Proofs.PlanCache
import SchemaBinding.Proofs.BindSoundness
import SchemaBinding.Proofs.BindProjection
import SchemaBinding.Proofs.BindClosure
import SchemaBinding.Proofs.NestingDepth
import SchemaBinding.Proofs.DeclaredKeys
import SchemaBinding.Proofs.ContractHistory
import SchemaBinding.Proofs.ErrorOrigin
import SchemaBinding.Proofs.Inheritance
import SchemaBinding.Proofs.ClassCreation
import SchemaBinding.Proofs.GroundedSessions
import SchemaBinding.Proofs.FieldInheritance
import SchemaBinding.Proofs.FailedDeclarations
import SchemaBinding.Proofs.TableSpecs
import SchemaBinding.Proofs.TableContracts
import SchemaBinding.Proofs.TableBuild
import SchemaBinding.Proofs.RedactedEvents
import SchemaBinding.Proofs.PopulatedRecords
import SchemaBinding.Proofs.FilledDefaults
import SchemaBinding.Proofs.RearrangedValues
import SchemaBinding.Proofs.FieldOrder
import SchemaBinding.Proofs.MadeCalls
import SchemaBinding.Proofs.SettingsRules
import SchemaBinding.Proofs.SettingsLayers
import SchemaBinding.Proofs.Termination
import SchemaBinding.Proofs.UnsetFields
import SchemaBinding.Proofs.ShuffledTables
import SchemaBinding.Proofs.RenamedClasses
import SchemaBinding.Proofs.TableOrder
import SchemaBinding.Proofs.FieldPositions
import SchemaBinding.Proofs.LooseNumbers
import SchemaBinding.Proofs.BearerTokens
import SchemaBinding.Proofs.WholeNumbers
import SchemaBinding.Proofs.EarlierFields
import SchemaBinding.Proofs.SingleRequirement
import SchemaBinding.Proofs.PrimitiveKinds
import SchemaBinding.Proofs.CalendarDays
import SchemaBinding.Proofs.EpochTimes
import SchemaBinding.Proofs.WrittenDates
import SchemaBinding.Proofs.ArrayElements
import SchemaBinding.Proofs.FailureEvents
import SchemaBinding.Proofs.WellFormedPlans
import SchemaBinding.Proofs.SettingsIssues
import SchemaBinding.Proofs.ValueWords
import SchemaBinding.Proofs.EqualValues
import SchemaBinding.Proofs.LooseSymmetry
