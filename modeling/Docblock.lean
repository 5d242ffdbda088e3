import Docblock.Block
import Docblock.Calendar
import Docblock.Category
import Docblock.CommandLine.Report
import Docblock.CommandLine.Request
import Docblock.CommandLine.Switch
import Docblock.Decimal.Binary64
import Docblock.Decimal.Shortest
import Docblock.Documentation
import Docblock.Element.Basic
import Docblock.Element.Finder
import Docblock.FileFilter
import Docblock.FileTree
import Docblock.Glob
import Docblock.Hook
import Docblock.Json.Basic
import Docblock.Json.Parser
import Docblock.Json.Path
import Docblock.Json.Printer
import Docblock.Language
import Docblock.Log
import Docblock.Main
import Docblock.Markdown.Block
import Docblock.Markdown.Character
import Docblock.Markdown.CharacterName
import Docblock.Markdown.Field
import Docblock.Markdown.Html
import Docblock.Markdown.Inline
import Docblock.Markdown.Line
import Docblock.Markdown.Link
import Docblock.Markdown.RawTag
import Docblock.Markdown.Structure
import Docblock.OpenApi.Document
import Docblock.OpenApi.Endpoint
import Docblock.OpenApi.External
import Docblock.Options
import Docblock.Package
import Docblock.Path
import Docblock.Pattern.Basic
import Docblock.Pattern.Reader
import Docblock.Pattern.Search
import Docblock.Proofs.Block.Attach
import Docblock.Proofs.Block.Insertion
import Docblock.Proofs.Documentation.LineEnd
import Docblock.Proofs.Documentation.Report
import Docblock.Proofs.Documentation.Schema
import Docblock.Proofs.Element.Expansion
import Docblock.Proofs.Element.LineReading
import Docblock.Proofs.Element.Slice
import Docblock.Proofs.Element.Starts
import Docblock.Proofs.Element.TagLine
import Docblock.Proofs.Hook.Registration
import Docblock.Proofs.Json.Fields
import Docblock.Proofs.Json.Layout
import Docblock.Proofs.Json.Numeral
import Docblock.Proofs.Json.Path
import Docblock.Proofs.Json.Quote
import Docblock.Proofs.Json.RoundTrip
import Docblock.Proofs.Json.Same
import Docblock.Proofs.Language.Prefix
import Docblock.Proofs.Language.Scan
import Docblock.Proofs.Markdown.Preformatted
import Docblock.Proofs.OpenApi.FirstPath
import Docblock.Proofs.OpenApi.Operation
import Docblock.Proofs.OpenApi.Response
import Docblock.Proofs.OpenApi.SharedBlock
import Docblock.Proofs.Pattern.First
import Docblock.Proofs.Pattern.Replace
import Docblock.Proofs.Pattern.Run
import Docblock.Proofs.Pattern.Trace
import Docblock.Proofs.Record.Endpoint
import Docblock.Proofs.Record.Inherit
import Docblock.Proofs.Record.Once
import Docblock.Proofs.Record.Order
import Docblock.Proofs.Resolve.Action
import Docblock.Proofs.Resolve.Agree
import Docblock.Proofs.Resolve.Choice
import Docblock.Proofs.Resolve.Collected
import Docblock.Proofs.Resolve.Fact
import Docblock.Proofs.Resolve.GroupTitle
import Docblock.Proofs.Resolve.Inherit
import Docblock.Proofs.Resolve.Level
import Docblock.Proofs.Resolve.Lookup
import Docblock.Proofs.Resolve.Merge
import Docblock.Proofs.Resolve.Monotone
import Docblock.Proofs.Resolve.NormalForm
import Docblock.Proofs.Resolve.Rearrange
import Docblock.Proofs.Resolve.Regroup
import Docblock.Proofs.Resolve.Run
import Docblock.Proofs.Resolve.Table
import Docblock.Proofs.Resolve.Title
import Docblock.Proofs.Schema.RoundTrip
import Docblock.Proofs.Sorting.Runs
import Docblock.Proofs.Sorting.Small
import Docblock.Proofs.Sorting.Sort
import Docblock.Proofs.Sorting.Stable
import Docblock.Proofs.Source.CodeExample
import Docblock.Proofs.Source.Grouping
import Docblock.Proofs.Source.Hidden
import Docblock.Proofs.Source.Joining
import Docblock.Proofs.Source.Reading
import Docblock.Proofs.Source.Section
import Docblock.Proofs.Source.Selection
import Docblock.Proofs.Source.Sharing
import Docblock.Proofs.Source.UrlParameter
import Docblock.Proofs.Tag.AllowedValues
import Docblock.Proofs.Tag.Braced
import Docblock.Proofs.Tag.CodeFile
import Docblock.Proofs.Tag.DefinitionText
import Docblock.Proofs.Tag.EndpointLine
import Docblock.Proofs.Tag.Grammar
import Docblock.Proofs.Tag.Lineage
import Docblock.Proofs.Tag.Parameter
import Docblock.Proofs.Tag.Place
import Docblock.Proofs.Tag.Registry
import Docblock.Proofs.Tag.Reply
import Docblock.Proofs.Tag.TsdocParameter
import Docblock.Proofs.Tag.Typed
import Docblock.Proofs.Text.Cut
import Docblock.Proofs.Text.Indent
import Docblock.Proofs.Text.Line
import Docblock.Proofs.Text.OneLine
import Docblock.Proofs.Text.Place
import Docblock.Proofs.TypeScript.Comment
import Docblock.Proofs.TypeScript.Expansion
import Docblock.Proofs.TypeScript.Property
import Docblock.Proofs.Version.Mixture
import Docblock.Proofs.Version.Order
import Docblock.Record.Field
import Docblock.Record.Mqtt
import Docblock.Record.Order
import Docblock.Resolve.Basic
import Docblock.Resolve.Definition
import Docblock.Resolve.Endpoint
import Docblock.Resolve.Merge
import Docblock.Resolve.Stage
import Docblock.Resolve.Title
import Docblock.Schema.Properties
import Docblock.Sorting.Runs
import Docblock.Sorting.Small
import Docblock.Source.Basic
import Docblock.Source.Element
import Docblock.Source.Folder
import Docblock.Source.Selection
import Docblock.Source.Text
import Docblock.Source.UrlParameter
import Docblock.Tag.Basic
import Docblock.Tag.Endpoint
import Docblock.Tag.Example
import Docblock.Tag.Expansion
import Docblock.Tag.FileHeader
import Docblock.Tag.Grammar
import Docblock.Tag.Iot
import Docblock.Tag.Model
import Docblock.Tag.Mqtt
import Docblock.Tag.OpenApi
import Docblock.Tag.Parameter
import Docblock.Tag.Registry
import Docblock.Tag.Schema
import Docblock.Tag.Tsdoc
import Docblock.Text.Blank
import Docblock.Text.Case
import Docblock.Text.Cut
import Docblock.Text.Encoding
import Docblock.Text.Indent
import Docblock.Text.Punctuation
import Docblock.Text.Word
import Docblock.TypeScript.Interface
import Docblock.Version
import Docblock.Yaml.Basic
import Docblock.Yaml.Node
import Docblock.Yaml.Place
import Docblock.Yaml.Printer
import Docblock.Yaml.Scalar
import Docblock.Yaml.Token
