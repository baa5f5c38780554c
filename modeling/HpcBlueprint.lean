import HpcBlueprint.Main
import HpcBlueprint.Proofs.Blueprint.Document
import HpcBlueprint.Proofs.Blueprint.Modules
import HpcBlueprint.Proofs.Blueprint.Proper
import HpcBlueprint.Proofs.Blueprint.Rendered
import HpcBlueprint.Proofs.Blueprint.RoundTrip
import HpcBlueprint.Proofs.Catalog.Alias
import HpcBlueprint.Proofs.Catalog.Alone
import HpcBlueprint.Proofs.Catalog.Concurrent
import HpcBlueprint.Proofs.Catalog.Confinement
import HpcBlueprint.Proofs.Catalog.Memory
import HpcBlueprint.Proofs.Catalog.Overlooked
import HpcBlueprint.Proofs.Catalog.SingleFlight
import HpcBlueprint.Proofs.Catalog.Undisturbed
import HpcBlueprint.Proofs.Deployment.Apart
import HpcBlueprint.Proofs.Deployment.Attempts
import HpcBlueprint.Proofs.Deployment.Decision
import HpcBlueprint.Proofs.Deployment.Description
import HpcBlueprint.Proofs.Deployment.Interruption
import HpcBlueprint.Proofs.Deployment.Record
import HpcBlueprint.Proofs.Deployment.Succession
import HpcBlueprint.Proofs.Deployment.Update
import HpcBlueprint.Proofs.Deployment.Writing
import HpcBlueprint.Proofs.Digest.Compare
import HpcBlueprint.Proofs.Except
import HpcBlueprint.Proofs.Expand.Again
import HpcBlueprint.Proofs.Expand.Attach
import HpcBlueprint.Proofs.Expand.Backends
import HpcBlueprint.Proofs.Expand.Blame
import HpcBlueprint.Proofs.Expand.Closed
import HpcBlueprint.Proofs.Expand.Collect
import HpcBlueprint.Proofs.Expand.Countdown
import HpcBlueprint.Proofs.Expand.Cycle
import HpcBlueprint.Proofs.Expand.Expansion
import HpcBlueprint.Proofs.Expand.Gathering
import HpcBlueprint.Proofs.Expand.Level
import HpcBlueprint.Proofs.Expand.Meaning
import HpcBlueprint.Proofs.Expand.Order
import HpcBlueprint.Proofs.Expand.Overrides
import HpcBlueprint.Proofs.Expand.Passes
import HpcBlueprint.Proofs.Expand.Precedence
import HpcBlueprint.Proofs.Expand.Proper
import HpcBlueprint.Proofs.Expand.Repeat
import HpcBlueprint.Proofs.Expand.Replacement
import HpcBlueprint.Proofs.Expand.Seams
import HpcBlueprint.Proofs.Expand.Services
import HpcBlueprint.Proofs.Expand.Settled
import HpcBlueprint.Proofs.Expand.Structure
import HpcBlueprint.Proofs.Expand.Substitution
import HpcBlueprint.Proofs.Expand.Supply
import HpcBlueprint.Proofs.Expand.Usage
import HpcBlueprint.Proofs.Expand.WellFormed
import HpcBlueprint.Proofs.Expand.Wiring
import HpcBlueprint.Proofs.Fetch.Destination
import HpcBlueprint.Proofs.Fetch.Keeping
import HpcBlueprint.Proofs.Fetch.Options
import HpcBlueprint.Proofs.Fetch.Overlooking
import HpcBlueprint.Proofs.Fetch.Paging
import HpcBlueprint.Proofs.Fetch.Spelling
import HpcBlueprint.Proofs.Files.Agreement
import HpcBlueprint.Proofs.Files.Apart
import HpcBlueprint.Proofs.Files.Change
import HpcBlueprint.Proofs.Files.Lexical
import HpcBlueprint.Proofs.Files.Names
import HpcBlueprint.Proofs.Files.Outside
import HpcBlueprint.Proofs.Files.Parents
import HpcBlueprint.Proofs.Files.Passage
import HpcBlueprint.Proofs.Files.Progress
import HpcBlueprint.Proofs.Files.Way
import HpcBlueprint.Proofs.Files.Within
import HpcBlueprint.Proofs.Json.RoundTrip
import HpcBlueprint.Proofs.NameSet
import HpcBlueprint.Proofs.Number
import HpcBlueprint.Proofs.OrderedMap
import HpcBlueprint.Proofs.Reference.Grammar
import HpcBlueprint.Proofs.Reference.Openings
import HpcBlueprint.Proofs.Reference.Proper
import HpcBlueprint.Proofs.Run.Levels
import HpcBlueprint.Proofs.Run.Overlooked
import HpcBlueprint.Proofs.Run.Refusal
import HpcBlueprint.Proofs.Run.Within
import HpcBlueprint.Proofs.Schema.Declaration
import HpcBlueprint.Proofs.Schema.Directory
import HpcBlueprint.Proofs.Source.Division
import HpcBlueprint.Proofs.Source.Package
import HpcBlueprint.Proofs.Text.Search
import HpcBlueprint.Proofs.Validate.Pinning
import HpcBlueprint.Proofs.Value.Places
import HpcBlueprint.Proofs.Value.Texts
import HpcBlueprint.Proofs.Value.Trees
import HpcBlueprint.Proofs.Yaml.Characters
import HpcBlueprint.Proofs.Yaml.Faults
import HpcBlueprint.Proofs.Yaml.Reads
import HpcBlueprint.Proofs.Yaml.Shows
import HpcBlueprint.Proofs.Yaml.Yields
