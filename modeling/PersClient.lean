import PersClient.Prct.Namespaces
import PersClient.Access.Order
import PersClient.File.Client
import PersClient.Handle.Tables
import PersClient.File.Calls
import PersClient.File.Names
import PersClient.File.Verify
import PersClient.File.Open
import PersClient.File.Stages
import PersClient.File.Closing
import PersClient.File.WriteAhead
import PersClient.Access.Delivery
import PersClient.Access.Lifecycle
import PersClient.Access.Budget
import PersClient.Access.Notification
import PersClient.Access.PollTable
import PersClient.Access.Administration
import PersClient.Access.Rounds
import PersClient.File.Descriptors
import PersClient.File.Routes
import PersClient.File.Runs
import PersClient.File.Checked
import PersClient.File.Openings
import PersClient.File.OpenTable
import PersClient.File.WriteThrough
import PersClient.File.SideNames
import PersClient.File.Blacklist
import PersClient.File.EntryPoints
import PersClient.Key.Context
import PersClient.Key.Database
import PersClient.Key.Calls
import PersClient.Key.Registrations
import PersClient.Key.Files
import PersClient.Key.Leftover
import PersClient.Lib.Buffer
import PersClient.Key.Buffers
import PersClient.Key.TableCache
import PersClient.File.Creation
import PersClient.Key.CustomLoader
import PersClient.Lib.LinkedList
import PersClient.Handle.OpenList
import PersClient.File.Shutdown
import PersClient.Key.HandleCalls
import PersClient.Key.HandleCache
import PersClient.Key.OpenDatabases
import PersClient.Lib.Turns
import PersClient.Key.CustomLifecycle
import PersClient.Lib.LinkedTree
import PersClient.Rbtree.Operations
import PersClient.Lib.RedBlack
import PersClient.Rbtree.Rotations
import PersClient.Rbtree.Search
import PersClient.Rbtree.Insert
import PersClient.Rbtree.Erase
import PersClient.Rbtree.Map
import PersClient.Rbtree.Accounting
import PersClient.Rbtree.Delete
import PersClient.Rbtree.Measure
import PersClient.Lib.Allocator
import PersClient.Handle.Allocation
import PersClient.Handle.Store
import PersClient.Handle.StoreCalls
import PersClient.Handle.PathStore
import PersClient.Handle.Trees
import PersClient.Rbtree.Ownership
import PersClient.Key.TreeItems
import PersClient.Lib.Crc
import PersClient.File.Crc32
import PersClient.File.Reads
import PersClient.File.Recovery
import PersClient.File.FirstWrite
import PersClient.File.Frames
import PersClient.File.SavedFiles
import PersClient.File.SavedRuns
import PersClient.File.WriteSessions
import PersClient.Key.Entries
import PersClient.Key.Precedence
import PersClient.Key.Sources
import PersClient.Key.SizeRead
import PersClient.Key.CustomSize
import PersClient.Key.WriteBack
import PersClient.Key.Executed
import PersClient.Key.Success
import PersClient.Key.LayeredStore
import PersClient.Key.StoreCalls
import PersClient.Key.StoreRuns
import PersClient.Key.Announce
import PersClient.Lib.MatchRule
import PersClient.Key.MatchRules
