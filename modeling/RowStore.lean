import RowStore.Lookahead
import RowStore.Main
import RowStore.Table.Desk
import RowStore.Proofs.Sql.Acceptance
import RowStore.Proofs.Sql.Scan
import RowStore.Proofs.Query.Naive
import RowStore.Proofs.Catalog.Lookup
import RowStore.Proofs.Query.Select
import RowStore.Proofs.Row.RoundTrip
import RowStore.Proofs.Catalog.SchemaText
import RowStore.Proofs.Sql.Names
import RowStore.Proofs.Disk.Path
import RowStore.Proofs.Disk.Tree
import RowStore.Proofs.Disk.Volume
import RowStore.Proofs.Catalog.FileNames
import RowStore.Proofs.Catalog.OnVolume
import RowStore.Proofs.Memory.Store
import RowStore.Proofs.Catalog.Names
import RowStore.Proofs.Memory.Image
import RowStore.Proofs.Memory.Simulation
import RowStore.Proofs.Catalog.Opening
import RowStore.Proofs.Engine.History
import RowStore.Proofs.Memory.Run
import RowStore.Proofs.Memory.Integrity
import RowStore.Proofs.Sql.Segments
import RowStore.Proofs.Sql.Image
import RowStore.Proofs.Sql.Semicolons
import RowStore.Proofs.Sql.Viable
import RowStore.Proofs.Engine.Places
import RowStore.Proofs.Console.Chunks
import RowStore.Proofs.Table.Appends
import RowStore.Proofs.Table.Reads
import RowStore.Proofs.Query.Complement
import RowStore.Proofs.Disk.Writing
import RowStore.Proofs.Catalog.Declaring
import RowStore.Proofs.Catalog.Confined
import RowStore.Proofs.Engine.Confined
import RowStore.Proofs.Engine.Reached
import RowStore.Proofs.Engine.Turns
import RowStore.Proofs.Catalog.Accesses
import RowStore.Proofs.Engine.Accesses
import RowStore.Proofs.Row.Slots
import RowStore.Proofs.Sql.Partition
import RowStore.Proofs.Lookahead.Requests
import RowStore.Proofs.Engine.FreshTables
import RowStore.Proofs.Engine.Dropping
import RowStore.Proofs.Query.Integers
import RowStore.Proofs.Engine.Selection
import RowStore.Proofs.Engine.Finding
import RowStore.Proofs.Console.Cuts
import RowStore.Proofs.Catalog.Malformed
import RowStore.Proofs.Text.Leading
import RowStore.Proofs.Row.Varchars
