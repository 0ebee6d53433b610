import SchemaTypes.Check.Finding
import SchemaTypes.Check.Full
import SchemaTypes.Check.Names
import SchemaTypes.Check.Problem
import SchemaTypes.CommandLine.Arguments
import SchemaTypes.CommandLine.Program
import SchemaTypes.Data.Base64
import SchemaTypes.Data.Dictionary
import SchemaTypes.Data.Json.Printer
import SchemaTypes.Data.Json.Reader
import SchemaTypes.Data.Stamp
import SchemaTypes.Data.Value
import SchemaTypes.Data.Yaml.Cursor
import SchemaTypes.Data.Yaml.Meaning
import SchemaTypes.Data.Yaml.Node
import SchemaTypes.Data.Yaml.Quoted
import SchemaTypes.Data.Yaml.Reader
import SchemaTypes.Data.Yaml.Scalar
import SchemaTypes.Data.Yaml.Tag
import SchemaTypes.Data.Yaml.Token
import SchemaTypes.DisplayNames
import SchemaTypes.EntityRules
import SchemaTypes.Enumeration
import SchemaTypes.Files.Disk
import SchemaTypes.Files.Fault
import SchemaTypes.Files.Host
import SchemaTypes.Files.Pathname
import SchemaTypes.ImportPaths
import SchemaTypes.Interface
import SchemaTypes.Locale
import SchemaTypes.Main
import SchemaTypes.Messages.Basic
import SchemaTypes.Messages.Tables
import SchemaTypes.Naming
import SchemaTypes.Number.Bound
import SchemaTypes.Number.Double
import SchemaTypes.Number.Numeral
import SchemaTypes.Number.Shortest
import SchemaTypes.Output.BaseModule
import SchemaTypes.Output.EnumModule
import SchemaTypes.Output.Export
import SchemaTypes.Output.File
import SchemaTypes.Output.Header
import SchemaTypes.Output.IndexModule
import SchemaTypes.Output.Manifest
import SchemaTypes.Output.ModelModule
import SchemaTypes.Output.Plan
import SchemaTypes.Output.RulesModule
import SchemaTypes.Output.SharedModules
import SchemaTypes.Proofs.Bounds
import SchemaTypes.Proofs.Check.Members
import SchemaTypes.Proofs.Check.Names
import SchemaTypes.Proofs.Check.Targets
import SchemaTypes.Proofs.CommandLine.Modes
import SchemaTypes.Proofs.Data.Dictionary
import SchemaTypes.Proofs.Data.Json
import SchemaTypes.Proofs.Data.Json.Embedded
import SchemaTypes.Proofs.Data.Json.LineBreaks
import SchemaTypes.Proofs.Data.Json.RoundTrip
import SchemaTypes.Proofs.Data.Json.Scalars
import SchemaTypes.Proofs.DisplayNames
import SchemaTypes.Proofs.EntityRules
import SchemaTypes.Proofs.FieldNames
import SchemaTypes.Proofs.Files.Standing
import SchemaTypes.Proofs.Files.Walk
import SchemaTypes.Proofs.Files.Writing
import SchemaTypes.Proofs.Locale
import SchemaTypes.Proofs.Messages
import SchemaTypes.Proofs.Messages.Orderings
import SchemaTypes.Proofs.Naming
import SchemaTypes.Proofs.Naming.Snake
import SchemaTypes.Proofs.Naming.Stability
import SchemaTypes.Proofs.NullMembers
import SchemaTypes.Proofs.Number.Literal
import SchemaTypes.Proofs.Output.Comments
import SchemaTypes.Proofs.Output.Containment
import SchemaTypes.Proofs.Output.CreatePayload
import SchemaTypes.Proofs.Output.EntityImports
import SchemaTypes.Proofs.Output.EntitySpacing
import SchemaTypes.Proofs.Output.EnumPrefixes
import SchemaTypes.Proofs.Output.EnumSpacing
import SchemaTypes.Proofs.Output.Export
import SchemaTypes.Proofs.Output.ExportedTypes
import SchemaTypes.Proofs.Output.Exports
import SchemaTypes.Proofs.Output.Handling
import SchemaTypes.Proofs.Output.Independence
import SchemaTypes.Proofs.Output.IndexNames
import SchemaTypes.Proofs.Output.Links
import SchemaTypes.Proofs.Output.Literals
import SchemaTypes.Proofs.Output.PackageImports
import SchemaTypes.Proofs.Output.PackageLinks
import SchemaTypes.Proofs.Output.Patterns
import SchemaTypes.Proofs.Output.Regeneration
import SchemaTypes.Proofs.Output.Route
import SchemaTypes.Proofs.Output.Spacing
import SchemaTypes.Proofs.Output.UserFiles
import SchemaTypes.Proofs.Output.Writable
import SchemaTypes.Proofs.Reading.Entries
import SchemaTypes.Proofs.Reading.Loading
import SchemaTypes.Proofs.Reading.Overrides
import SchemaTypes.Proofs.Reading.Respelled
import SchemaTypes.Proofs.Reading.RespelledSnapshot
import SchemaTypes.Proofs.Reading.Settings
import SchemaTypes.Proofs.Reading.Spelling
import SchemaTypes.Proofs.Reading.Unplaced
import SchemaTypes.Proofs.TargetLocale
import SchemaTypes.Proofs.Text.Case
import SchemaTypes.Proofs.Text.Completing
import SchemaTypes.Proofs.Text.Order
import SchemaTypes.Proofs.Text.Path
import SchemaTypes.Proofs.Text.Replace
import SchemaTypes.Proofs.Text.Spacing
import SchemaTypes.Proofs.Text.Trim
import SchemaTypes.Proofs.Text.Utf8
import SchemaTypes.Proofs.TypeScript.Comments
import SchemaTypes.Proofs.TypeScript.Declared
import SchemaTypes.Proofs.TypeScript.Links
import SchemaTypes.Proofs.TypeScript.Packages
import SchemaTypes.Proofs.TypeScript.References
import SchemaTypes.Proofs.TypeScript.Regex
import SchemaTypes.Proofs.TypeScript.Scanner
import SchemaTypes.Proofs.TypeScript.Spacing
import SchemaTypes.Proofs.TypeScript.Unbroken
import SchemaTypes.Proofs.TypeScript.UnionMembers
import SchemaTypes.Proofs.Unbroken
import SchemaTypes.Proofs.Zod.Affixes
import SchemaTypes.Proofs.Zod.Chains
import SchemaTypes.Proofs.Zod.Fields
import SchemaTypes.Proofs.Zod.Nullability
import SchemaTypes.Proofs.Zod.Types
import SchemaTypes.Proofs.Zod.Unbroken
import SchemaTypes.Reading.Config
import SchemaTypes.Reading.GeneratedFile
import SchemaTypes.Reading.LoadError
import SchemaTypes.Reading.Manifest
import SchemaTypes.Reading.Outcome
import SchemaTypes.Reading.Record
import SchemaTypes.Reading.Report
import SchemaTypes.Reading.Scalar
import SchemaTypes.Reading.Schema
import SchemaTypes.Reading.Snapshot
import SchemaTypes.Reading.SnapshotFile
import SchemaTypes.Run.Generation
import SchemaTypes.Run.Report
import SchemaTypes.Schema.Collection
import SchemaTypes.Schema.Config
import SchemaTypes.Schema.CustomType
import SchemaTypes.Schema.EnumValue
import SchemaTypes.Schema.Label
import SchemaTypes.Schema.Property
import SchemaTypes.Schema.RuleSet
import SchemaTypes.Text.Blank
import SchemaTypes.Text.Case
import SchemaTypes.Text.CaseTable
import SchemaTypes.Text.Digest
import SchemaTypes.Text.Digit
import SchemaTypes.Text.Lines
import SchemaTypes.Text.Order
import SchemaTypes.Text.Path
import SchemaTypes.Text.Printable
import SchemaTypes.Text.Quoted
import SchemaTypes.Text.Replace
import SchemaTypes.Text.Search
import SchemaTypes.Text.Title
import SchemaTypes.Text.Utf8
import SchemaTypes.TypeScript.Literal
import SchemaTypes.TypeScript.Source
import SchemaTypes.TypeScript.TypeExpr
import SchemaTypes.Zod.Entity
import SchemaTypes.Zod.Expr
import SchemaTypes.Zod.Property
import SchemaTypes.Zod.Rules
