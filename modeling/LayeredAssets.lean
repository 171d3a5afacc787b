import LayeredAssets.Archive
import LayeredAssets.Backend
import LayeredAssets.Cache
import LayeredAssets.Cache.Action
import LayeredAssets.Cache.Content
import LayeredAssets.Cache.Key
import LayeredAssets.Cache.Session
import LayeredAssets.Definition
import LayeredAssets.Dependencies
import LayeredAssets.Disc.Cursor
import LayeredAssets.Disc.Image
import LayeredAssets.Disc.Record
import LayeredAssets.Disc.Sector
import LayeredAssets.Disc.Walk
import LayeredAssets.Fault
import LayeredAssets.Fnv
import LayeredAssets.Host
import LayeredAssets.Identity.Catalog
import LayeredAssets.Identity.Fingerprint
import LayeredAssets.Json.Complaint
import LayeredAssets.Json.Layout
import LayeredAssets.Json.Literal
import LayeredAssets.Json.Numeral
import LayeredAssets.Json.Reading
import LayeredAssets.Json.Value
import LayeredAssets.Locator
import LayeredAssets.Locator.Animation
import LayeredAssets.Locator.Camera
import LayeredAssets.Locator.LevelPath
import LayeredAssets.Locator.Located
import LayeredAssets.Locator.Sound
import LayeredAssets.Locator.Verdict
import LayeredAssets.Locator.Video
import LayeredAssets.NamedPaths
import LayeredAssets.Path
import LayeredAssets.PathTable
import LayeredAssets.Proofs.Archives
import LayeredAssets.Proofs.Cache.Accounted
import LayeredAssets.Proofs.Cache.Handles
import LayeredAssets.Proofs.Cache.Moments
import LayeredAssets.Proofs.Cache.Obtain
import LayeredAssets.Proofs.Cache.Runs
import LayeredAssets.Proofs.Cache.Sharing
import LayeredAssets.Proofs.Confinement
import LayeredAssets.Proofs.Dependencies.Preorder
import LayeredAssets.Proofs.Dependencies.Reachable
import LayeredAssets.Proofs.Disc.Descent
import LayeredAssets.Proofs.Disc.Extents
import LayeredAssets.Proofs.Disc.Identifiers
import LayeredAssets.Proofs.Disc.Independence
import LayeredAssets.Proofs.Disc.Indexing
import LayeredAssets.Proofs.Disc.Keys
import LayeredAssets.Proofs.Disc.Layouts
import LayeredAssets.Proofs.Disc.Listing
import LayeredAssets.Proofs.Disc.Lookup
import LayeredAssets.Proofs.Disc.Memory
import LayeredAssets.Proofs.Disc.Reading
import LayeredAssets.Proofs.Disc.Records
import LayeredAssets.Proofs.Disc.RoundTrip
import LayeredAssets.Proofs.Disc.Tree
import LayeredAssets.Proofs.Disc.Volume
import LayeredAssets.Proofs.Disc.Ways
import LayeredAssets.Proofs.Except
import LayeredAssets.Proofs.Host
import LayeredAssets.Proofs.Identity.Catalogs
import LayeredAssets.Proofs.Identity.Fingerprints
import LayeredAssets.Proofs.Identity.Wrapping
import LayeredAssets.Proofs.Json.Frames
import LayeredAssets.Proofs.Json.Layouts
import LayeredAssets.Proofs.Json.Members
import LayeredAssets.Proofs.Json.Objects
import LayeredAssets.Proofs.Json.Writing
import LayeredAssets.Proofs.Locator.Activation
import LayeredAssets.Proofs.Locator.Answers
import LayeredAssets.Proofs.Locator.Banks
import LayeredAssets.Proofs.Locator.Blind
import LayeredAssets.Proofs.Locator.Cameras
import LayeredAssets.Proofs.Locator.Custody
import LayeredAssets.Proofs.Locator.Deeds
import LayeredAssets.Proofs.Locator.Explicit
import LayeredAssets.Proofs.Locator.Opening
import LayeredAssets.Proofs.Locator.Priority
import LayeredAssets.Proofs.Locator.Provenance
import LayeredAssets.Proofs.Locator.Serving
import LayeredAssets.Proofs.Locator.Settling
import LayeredAssets.Proofs.Locator.Shared
import LayeredAssets.Proofs.Locator.Sounds
import LayeredAssets.Proofs.Locator.Transparency
import LayeredAssets.Proofs.Locator.Uncached
import LayeredAssets.Proofs.Locator.Unmodded
import LayeredAssets.Proofs.Mods
import LayeredAssets.Proofs.NamedPaths.Expansion
import LayeredAssets.Proofs.NamedPaths.Seam
import LayeredAssets.Proofs.Path
import LayeredAssets.Proofs.Path.Canonical
import LayeredAssets.Proofs.Path.Normal
import LayeredAssets.Proofs.PathTable
import LayeredAssets.Proofs.Request
import LayeredAssets.Proofs.ResourceMap.Declared
import LayeredAssets.Proofs.ResourceMap.Inversion
import LayeredAssets.Proofs.ResourceMap.Merging
import LayeredAssets.Proofs.ResourceMap.Precedence
import LayeredAssets.Proofs.ResourceMap.Upkeep
import LayeredAssets.Proofs.Streams
import LayeredAssets.Proofs.Table
import LayeredAssets.Proofs.Text.Ascii
import LayeredAssets.Proofs.Text.Capitals
import LayeredAssets.Proofs.View
import LayeredAssets.Proofs.View.Nested
import LayeredAssets.Request
import LayeredAssets.ResourceMap
import LayeredAssets.ResourceMap.Mapping
import LayeredAssets.ResourceMap.Record
import LayeredAssets.SearchList
import LayeredAssets.Settings
import LayeredAssets.Stream
import LayeredAssets.Table
import LayeredAssets.Text.Bytes
import LayeredAssets.Text.Order
import LayeredAssets.Text.Quoted
import LayeredAssets.Text.Split
import LayeredAssets.Text.Unprintable
import LayeredAssets.Text.Uppercase
import LayeredAssets.Text.Utf8
import LayeredAssets.Wildcard
