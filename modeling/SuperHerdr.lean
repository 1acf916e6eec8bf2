import SuperHerdr.Broker.Routes
import SuperHerdr.Broker.Size
import SuperHerdr.Broker.Frontend
import SuperHerdr.Transfer.Resumption
import SuperHerdr.Download.Backlog
import SuperHerdr.Pairing.Credentials
import SuperHerdr.Federation.Baselines
import SuperHerdr.Web.Posts
import SuperHerdr.Tui.Drawn
import SuperHerdr.Tui.Shells
import SuperHerdr.Tui.Batches
import SuperHerdr.Tui.Routes
import SuperHerdr.Tui.Operations
import SuperHerdr.Tui.Saves
import SuperHerdr.Tui.Restores
import SuperHerdr.Cards.Lifetime
import SuperHerdr.Bridge.Soundness
import SuperHerdr.Web.Fields
import SuperHerdr.Files.Push
import SuperHerdr.Bridge.Teardown
import SuperHerdr.Bridge.Attempts
import SuperHerdr.Bridge.Targets
import SuperHerdr.Attention.Records
import SuperHerdr.Screen.Diffs
import SuperHerdr.Screen.Rows
import SuperHerdr.Transfer.Chunking
import SuperHerdr.Download.Completed
import SuperHerdr.Attention.Persistence
import SuperHerdr.Cards.Isolation
import SuperHerdr.Web.Events
import SuperHerdr.Plugins.Commands
import SuperHerdr.Plugins.Drift
import SuperHerdr.Files.Search
import SuperHerdr.Transfer.Receipts
import SuperHerdr.Files.Containment
import SuperHerdr.Workspace.Recreate
import SuperHerdr.Download.Save
import SuperHerdr.Attention.Coalescing
import SuperHerdr.Naming.Store
import SuperHerdr.Tui.Sequences
import SuperHerdr.Tui.Scrolling
import SuperHerdr.Files.Keys
import SuperHerdr.Tui.References
import SuperHerdr.Tui.Typing
import SuperHerdr.Tui.Sidebar
import SuperHerdr.Plugins.Context
import SuperHerdr.Ssh.Includes
import SuperHerdr.Transport.Command
