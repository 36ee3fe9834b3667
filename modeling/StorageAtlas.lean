import StorageAtlas.Main
import StorageAtlas.Proofs.Address.Fields
import StorageAtlas.Proofs.Address.LunWords
import StorageAtlas.Proofs.Text.Hexadecimal
import StorageAtlas.Proofs.Address.RoundTrip
import StorageAtlas.Proofs.Address.UnitBytes
import StorageAtlas.Proofs.Address.Order
import StorageAtlas.Proofs.Listing.UnchangedTree
import StorageAtlas.Proofs.Tree.Distinct
import StorageAtlas.Proofs.Listing.Units
import StorageAtlas.Proofs.Listing.Namespaces
import StorageAtlas.Proofs.DiskLink.Reach
import StorageAtlas.Proofs.DiskLink.SameNodes
import StorageAtlas.Proofs.DiskLink.Recursion
import StorageAtlas.Proofs.DiskLink.BestLink
import StorageAtlas.Proofs.DiskLink.SameDevice
import StorageAtlas.Proofs.DiskLink.WorldWideName
import StorageAtlas.Proofs.DiskLink.Snapshots
import StorageAtlas.Proofs.DiskLink.PartitionLinks
import StorageAtlas.Proofs.Identification.Ranking
import StorageAtlas.Proofs.Identification.Walk
import StorageAtlas.Proofs.Identification.Encoding
import StorageAtlas.Proofs.Identification.Examination
import StorageAtlas.Proofs.Identification.Requests
import StorageAtlas.Proofs.Identification.CutPage
import StorageAtlas.Proofs.Identification.NameOverride
import StorageAtlas.Proofs.Identification.Interleaving
import StorageAtlas.Proofs.Identification.Capacity
import StorageAtlas.Proofs.Identification.EmptyText
import StorageAtlas.Proofs.DeviceNode.Newest
import StorageAtlas.Proofs.DeviceNode.Directory
import StorageAtlas.Proofs.DeviceNode.Untied
import StorageAtlas.Proofs.DeviceNode.Resolution
import StorageAtlas.Proofs.Tree.Entries
import StorageAtlas.Proofs.Tree.SameNodes
import StorageAtlas.Proofs.Listing.Nodes
import StorageAtlas.Proofs.Text.Order
import StorageAtlas.Proofs.Listing.Runs
import StorageAtlas.Proofs.Address.FilterParts
import StorageAtlas.Proofs.Address.HostNumber
import StorageAtlas.Proofs.Listing.HostNumber
import StorageAtlas.Proofs.Listing.Order
import StorageAtlas.Proofs.Listing.UnitBytes
import StorageAtlas.Proofs.Listing.SameNodes
import StorageAtlas.Proofs.Text.Numeral
import StorageAtlas.Proofs.Failure
import StorageAtlas.Proofs.Transport.Failure
import StorageAtlas.Proofs.Transport.SameNodes
import StorageAtlas.Proofs.Listing.Failure
import StorageAtlas.Proofs.Address.Conversion
import StorageAtlas.Proofs.Address.UnitGrammar
import StorageAtlas.Proofs.Address.KernelName
import StorageAtlas.Proofs.Address.NamespaceGrammar
import StorageAtlas.Proofs.Address.FilterOfWritten
import StorageAtlas.Proofs.Tree.Relocation
import StorageAtlas.Proofs.Tree.RealPath
import StorageAtlas.Proofs.Tree.Mount
import StorageAtlas.Proofs.Transport.Copies
import StorageAtlas.Proofs.Transport.MountPoint
import StorageAtlas.Proofs.Address.LunLevels
import StorageAtlas.Proofs.Address.LevelForm
import StorageAtlas.Proofs.Address.FilterArguments
import StorageAtlas.Proofs.Address.FilterConversion
import StorageAtlas.Proofs.Address.FilterGrammar
import StorageAtlas.Proofs.Address.CanonicalOrder
import StorageAtlas.Proofs.Address.LunConversion
import StorageAtlas.Proofs.Transport.HostClass
import StorageAtlas.Proofs.Listing.BlockEntry
import StorageAtlas.Proofs.Listing.AtaSummary
import StorageAtlas.Proofs.Report.SizeLoops
import StorageAtlas.Proofs.Report.SizeOrder
import StorageAtlas.Proofs.Listing.KeptNames
import StorageAtlas.Proofs.Text.Utf8
import StorageAtlas.Proofs.AttributeTree.EventLines
import StorageAtlas.Proofs.Settings.Layers
import StorageAtlas.Proofs.Text.OneLine
import StorageAtlas.Proofs.AttributeTree.OneLine
import StorageAtlas.Proofs.Transport.OneLine
import StorageAtlas.Proofs.Listing.OneLine
import StorageAtlas.Proofs.Report.Columns
import StorageAtlas.Proofs.Report.LineCount
import StorageAtlas.Proofs.Report.DeviceRows
import StorageAtlas.Proofs.Report.DeviceTable
