import Visibility.Main
import Visibility.Json.Source
import Visibility.Proofs.Expression.Conjunction
import Visibility.Proofs.Expression.Consulting
import Visibility.Proofs.Expression.Confinement
import Visibility.Proofs.Mapping.Filling
import Visibility.Proofs.Mapping.Occurrence
import Visibility.Proofs.Mapping.Walking
import Visibility.Proofs.Mapping.Tagging
import Visibility.Proofs.Mapping.Listing
import Visibility.Proofs.Groups.Activation
import Visibility.Proofs.Mapping.Guards
import Visibility.Proofs.Groups.Access
import Visibility.Proofs.Mapping.Yield
import Visibility.Proofs.Mapping.Declared
import Visibility.Proofs.Mapping.Coverage
import Visibility.Proofs.Mapping.Merging
import Visibility.Proofs.Mapping.Overriding
import Visibility.Proofs.Expression.Reading
import Visibility.Proofs.Groups.Instance
import Visibility.Proofs.Expression.Writing
import Visibility.Proofs.Expression.Printing
import Visibility.Proofs.Expression.Writable
import Visibility.Proofs.Expression.Names
import Visibility.Proofs.Serialization.Building
import Visibility.Proofs.CommandLine.Groups
import Visibility.Proofs.Serialization.Fields
import Visibility.Proofs.Expression.Roles
import Visibility.Proofs.Mapping.Loaded
import Visibility.Proofs.Groups.Growth
import Visibility.Proofs.Mapping.Rewriting
import Visibility.Proofs.Mapping.Following
import Visibility.Proofs.Mapping.Nesting
import Visibility.Proofs.Mapping.Reordering
import Visibility.Proofs.Mapping.Markers
import Visibility.Proofs.Groups.Decoding
import Visibility.Proofs.Groups.Filtering
import Visibility.Proofs.Mapping.Hoisting
import Visibility.Proofs.Mapping.Acceptance
import Visibility.Proofs.Mapping.Outline
import Visibility.Proofs.Mapping.Unguarding
import Visibility.Proofs.Number.Nearest
import Visibility.Proofs.Number.Binary64
import Visibility.Proofs.Expression.Integers
import Visibility.Proofs.Resolver.Known
import Visibility.Proofs.Resolver.Collections
import Visibility.Proofs.Serialization.Independence
import Visibility.Proofs.Files.Path
import Visibility.Proofs.Files.Location
import Visibility.Proofs.Files.Visits
import Visibility.Proofs.Files.Ways
import Visibility.Proofs.Files.Discovery
import Visibility.Proofs.Files.Listing
import Visibility.Proofs.Expression.Caching
import Visibility.Proofs.Mapping.Repeating
import Visibility.Proofs.Ordered.Join
import Visibility.Proofs.Mapping.Joining
import Visibility.Proofs.Mapping.Failing
import Visibility.Proofs.Yaml.Keys
import Visibility.Proofs.Mapping.Documents
import Visibility.Proofs.Mapping.Registry
import Visibility.Proofs.Serialization.Subresources
import Visibility.Proofs.Mapping.Seeing
import Visibility.Proofs.Request.Address
