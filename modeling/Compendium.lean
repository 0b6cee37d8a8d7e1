import Compendium.Text.Blank
import Compendium.Text.Digit
import Compendium.Text.Word
import Compendium.Text.LetterCase
import Compendium.Text.Occurrence
import Compendium.Number.Basic
import Compendium.Json.Printer
import Compendium.Json.Reader
import Compendium.KeyValues.Block
import Compendium.Files.Tree
import Compendium.KeyValues.Printer
import Compendium.Tooltip.StringTable
import Compendium.KeyValues.Root
import Compendium.Tooltip.Levels
import Compendium.Notice
import Compendium.Tooltip.Resolver
import Compendium.Tooltip.NameTokens
import Compendium.Tooltip.AttributeRow
import Compendium.Catalog.Ability
import Compendium.Catalog.Item
import Compendium.Catalog.Biography
import Compendium.Catalog.Hero
import Compendium.Catalog.HeroData
import Compendium.Catalog.Aghanim
import Compendium.Toml.Reader
import Compendium.Build.Batch
import Compendium.Command.Run
import Compendium.Main
import Compendium.Proofs.KeyValues.History
import Compendium.Proofs.KeyValues.RoundTrip
import Compendium.Proofs.KeyValues.Layout
import Compendium.Proofs.KeyValues.Positions
import Compendium.Proofs.KeyValues.Root
import Compendium.Proofs.KeyValues.Refusing
import Compendium.Proofs.Text.Occurrence
import Compendium.Proofs.Text.Joining
import Compendium.Proofs.Tooltip.Splitting
import Compendium.Proofs.Tooltip.Substitution
import Compendium.Proofs.Tooltip.Agreement
import Compendium.Proofs.Tooltip.Precedence
import Compendium.Proofs.Tooltip.Leftover
import Compendium.Proofs.Tooltip.Markup
import Compendium.Proofs.Tooltip.Resolving
import Compendium.Proofs.Catalog.Description
import Compendium.Proofs.Text.LetterCase
import Compendium.Proofs.Tooltip.Symbols
import Compendium.Proofs.Tooltip.Cleaning
import Compendium.Proofs.Document.Names
import Compendium.Proofs.Document.Members
import Compendium.Proofs.Tooltip.Sorting
import Compendium.Proofs.Tooltip.Header
import Compendium.Proofs.Tooltip.HeaderLine
import Compendium.Proofs.Tooltip.HeaderTags
import Compendium.Proofs.Tooltip.TagCase
import Compendium.Proofs.Tooltip.EntryText
import Compendium.Proofs.Catalog.Recipes
import Compendium.Proofs.Catalog.ItemMembers
import Compendium.Proofs.Catalog.HeroRecords
import Compendium.Proofs.Catalog.Upgrades
import Compendium.Proofs.Catalog.TokenFilling
import Compendium.Proofs.Catalog.TokensLeft
import Compendium.Proofs.Catalog.Responses
import Compendium.Proofs.Tooltip.LevelTokens
import Compendium.Proofs.Tooltip.ZeroFractions
import Compendium.Proofs.Tooltip.Numerals
import Compendium.Proofs.Tooltip.NameFilling
import Compendium.Proofs.Tooltip.ScalarNames
import Compendium.Proofs.Tooltip.TalentNames
import Compendium.Proofs.Tooltip.AttributeRows
import Compendium.Proofs.Tooltip.RootedStrings
import Compendium.Proofs.Tooltip.TokenAliases
import Compendium.Proofs.Tooltip.ScriptLookup
import Compendium.Proofs.Files.Segments
import Compendium.Proofs.Files.Walking
import Compendium.Proofs.Files.Directories
import Compendium.Proofs.Files.Creating
import Compendium.Proofs.Files.Finding
import Compendium.Proofs.Files.Planting
import Compendium.Proofs.Build.Running
import Compendium.Proofs.Build.Reading
import Compendium.Proofs.Build.Outputs
import Compendium.Proofs.Build.Writing
import Compendium.Proofs.Build.Progress
import Compendium.Proofs.Build.Pool
import Compendium.Proofs.Build.Scheduling
import Compendium.Proofs.Command.Inspection
import Compendium.Proofs.Catalog.LeadingIntegers
import Compendium.Proofs.Catalog.Notes
import Compendium.Proofs.Catalog.Biographies
import Compendium.Proofs.Tooltip.PlainTexts
