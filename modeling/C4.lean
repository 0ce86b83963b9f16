import C4.CommandLine.Folder
import C4.CommandLine.Options
import C4.CommandLine.Program
import C4.CommandLine.Surroundings
import C4.Diagnostic.Basic
import C4.Diagnostic.Excerpt
import C4.Diagnostic.Frame
import C4.Dsl.Delivery
import C4.Dsl.Deployment
import C4.Dsl.Document
import C4.Dsl.Element
import C4.Dsl.Identifier
import C4.Dsl.Output
import C4.Dsl.Quoted
import C4.Dsl.Reference
import C4.Dsl.Script
import C4.Dsl.Style
import C4.Dsl.Subject
import C4.Dsl.View
import C4.Log
import C4.Main
import C4.Model.Attributes
import C4.Model.Basic
import C4.Model.Deployment
import C4.Model.Edit
import C4.Model.Element
import C4.Model.Environment
import C4.Model.Id
import C4.Model.Relationship
import C4.Model.Tag
import C4.Model.Topology
import C4.Number.Binary64
import C4.Outline.Basic
import C4.Outline.Deployment
import C4.Outline.Document
import C4.Outline.Element
import C4.Outline.View
import C4.Proofs.Arrangement
import C4.Proofs.Assembly
import C4.Proofs.Attribution
import C4.Proofs.Bodies
import C4.Proofs.Calls
import C4.Proofs.Changes
import C4.Proofs.Citations
import C4.Proofs.Collisions
import C4.Proofs.CommandRuns
import C4.Proofs.Contents
import C4.Proofs.Coverage
import C4.Proofs.Decoding
import C4.Proofs.Definitions
import C4.Proofs.Delivery
import C4.Proofs.Deployed
import C4.Proofs.Descent
import C4.Proofs.Discipline
import C4.Proofs.DrawnSteps
import C4.Proofs.EnvironmentBlocks
import C4.Proofs.EnvironmentNames
import C4.Proofs.Environments
import C4.Proofs.FailFast
import C4.Proofs.Faults
import C4.Proofs.Forest
import C4.Proofs.Fragments
import C4.Proofs.Grouping
import C4.Proofs.Handles
import C4.Proofs.Headers
import C4.Proofs.IncludeLines
import C4.Proofs.Inventory
import C4.Proofs.LineBreaks
import C4.Proofs.LineEnds
import C4.Proofs.LinePositions
import C4.Proofs.Listing
import C4.Proofs.Lookups
import C4.Proofs.Nesting
import C4.Proofs.Outlines
import C4.Proofs.Ownership
import C4.Proofs.Parallel
import C4.Proofs.Placement
import C4.Proofs.Pointing
import C4.Proofs.PropertyLines
import C4.Proofs.Reading
import C4.Proofs.Records
import C4.Proofs.References
import C4.Proofs.Relocation
import C4.Proofs.Resolution
import C4.Proofs.Scripts
import C4.Proofs.Sections
import C4.Proofs.Skeleton
import C4.Proofs.Slices
import C4.Proofs.Spacing
import C4.Proofs.Spelling
import C4.Proofs.StoredTexts
import C4.Proofs.StyleLines
import C4.Proofs.StyleTables
import C4.Proofs.Subtrees
import C4.Proofs.TableKeys
import C4.Proofs.ThemeTables
import C4.Proofs.Theming
import C4.Proofs.Values
import C4.Proofs.Verdict
import C4.Proofs.Visits
import C4.Proofs.Walks
import C4.Proofs.Writing
import C4.Sample.AdvancedStyling
import C4.Sample.Build
import C4.Sample.Catalog
import C4.Sample.FilteredViews
import C4.Sample.GettingStarted
import C4.Sample.Microservices
import C4.Sample.OnlineBanking
import C4.Style.Basic
import C4.Text.Blank
import C4.Text.Escaped
import C4.Text.Ranges
import C4.Text.Span
import C4.Text.Unprintable
import C4.Text.Width
import C4.Theme.Attribute
import C4.Theme.Basic
import C4.Theme.Document
import C4.Theme.Fault
import C4.Theme.Fields
import C4.Theme.Report
import C4.Theme.Table
import C4.Toml.Document
import C4.Toml.Number
import C4.Toml.Reader
import C4.Toml.Table
import C4.Toml.Text
import C4.Toml.Value
import C4.View.Basic
import C4.View.Collection
import C4.View.Deployment
import C4.View.Dynamic
import C4.View.Filtered
import C4.Workspace
