import PackScope.Command.FileTree
import PackScope.KeyMap.Lookup
import PackScope.Location.Json
import PackScope.Main
import PackScope.Proofs.Command.Effects
import PackScope.Proofs.Command.Merging
import PackScope.Proofs.Command.Writing
import PackScope.Proofs.Json.Documents
import PackScope.Proofs.Json.Magnitudes
import PackScope.Proofs.Json.Numbers
import PackScope.Proofs.Json.Order
import PackScope.Proofs.Json.Reading
import PackScope.Proofs.Json.Spacing
import PackScope.Proofs.Json.Strings
import PackScope.Proofs.KeyMap.Listing
import PackScope.Proofs.KeyMap.Merging
import PackScope.Proofs.KeyMap.OfList
import PackScope.Proofs.LegacyFile.Declarations
import PackScope.Proofs.LegacyFile.Flat
import PackScope.Proofs.LegacyFile.Reading
import PackScope.Proofs.LegacyFile.RoundTrip
import PackScope.Proofs.Location.Positions
import PackScope.Proofs.Manifest.Collision
import PackScope.Proofs.Manifest.Layout
import PackScope.Proofs.Manifest.Violations
import PackScope.Proofs.Number.Positional
import PackScope.Proofs.Number.Rounding
import PackScope.Proofs.Number.Shortest
import PackScope.Proofs.OverrideFile.Declarations
import PackScope.Proofs.OverrideFile.Denotation
import PackScope.Proofs.OverrideFile.Origin
import PackScope.Proofs.OverrideFile.Ranges
import PackScope.Proofs.OverrideFile.Reading
import PackScope.Proofs.OverrideFile.Redump
import PackScope.Proofs.OverrideFile.Renamed
import PackScope.Proofs.OverrideFile.Restated
import PackScope.Proofs.OverrideFile.RoundTrip
import PackScope.Proofs.OverrideFile.Spelling
import PackScope.Proofs.OverrideFile.Steps
import PackScope.Proofs.Pack.Building
import PackScope.Proofs.Pack.Places
import PackScope.Proofs.Scope.Flat
import PackScope.Proofs.Scope.Rendering
import PackScope.Proofs.Scope.Reports
import PackScope.Proofs.Scope.Structure
import PackScope.Proofs.Scope.Variables
import PackScope.Proofs.Store.Layouts
import PackScope.Proofs.Store.Listing
import PackScope.Proofs.Store.Loading
import PackScope.Proofs.Store.Order
import PackScope.Proofs.Store.Runs
import PackScope.Proofs.Text.ByteOrder
import PackScope.Proofs.Text.Reading
import PackScope.Proofs.Text.Steady
import PackScope.Proofs.Toml.Apart
import PackScope.Proofs.Toml.Changes
import PackScope.Proofs.Toml.Content
import PackScope.Proofs.Toml.Cutting
import PackScope.Proofs.Toml.Filler
import PackScope.Proofs.Toml.Keys
import PackScope.Proofs.Toml.Lines
import PackScope.Proofs.Toml.Numerals
import PackScope.Proofs.Toml.Outlines
import PackScope.Proofs.Toml.Places
import PackScope.Proofs.Toml.Quotes
import PackScope.Proofs.Toml.Repeats
import PackScope.Proofs.Toml.Sheet
import PackScope.Proofs.Toml.Strings
import PackScope.Proofs.Toml.Tokens
import PackScope.Proofs.Toml.Unplaced
import PackScope.Proofs.Toml.Values
import PackScope.Proofs.Traversal
import PackScope.Proofs.Value.FromToml
import PackScope.Proofs.Value.JsonForm
import PackScope.Proofs.Value.Normal
import PackScope.Proofs.Value.Shape
import PackScope.Proofs.VariableSet.Addresses
import PackScope.Proofs.VariableSet.Layers
import PackScope.Proofs.VariableSet.Rekey
import PackScope.Proofs.Command.Layering
import PackScope.Proofs.Value.Parts
import PackScope.Proofs.Value.Faults
import PackScope.Proofs.Toml.Silent
import PackScope.Proofs.OverrideFile.Said
import PackScope.Proofs.Toml.Comments
import PackScope.Proofs.OverrideFile.Blocks
import PackScope.Proofs.OverrideFile.AssignedKeys
import PackScope.Proofs.Scope.Written
import PackScope.Proofs.Scope.Partition
