import Wan.Chronicle.Log.Archive
import Wan.Chronicle.Log.Entries
import Wan.Chronicle.Log.Model
import Wan.Chronicle.Log.Size
import Wan.Container.BalanceTree.Clear
import Wan.Container.BalanceTree.Copy
import Wan.Container.BalanceTree.Heights
import Wan.Container.BalanceTree.Invariant
import Wan.Container.BalanceTree.Iterator
import Wan.Container.BalanceTree.Pop
import Wan.Container.BalanceTree.Rotate
import Wan.Container.BalanceTree.Run
import Wan.Container.BinaryTree.Clear
import Wan.Container.BinaryTree.Copy
import Wan.Container.BinaryTree.Count
import Wan.Container.BinaryTree.Erasure
import Wan.Container.BinaryTree.Model
import Wan.Container.BinaryTree.Pop
import Wan.Container.BinaryTree.Run
import Wan.Container.BitSet
import Wan.Container.BloomFilter
import Wan.Container.HashTable.Chains
import Wan.Container.HashTable.Doubling
import Wan.Container.HashTable.Elements
import Wan.Container.HashTable.Frame
import Wan.Container.HashTable.Growth
import Wan.Container.HashTable.Guarantee
import Wan.Container.HashTable.Invariant
import Wan.Container.HashTable.Lifetime
import Wan.Container.HashTable.Model
import Wan.Container.HashTable.Run
import Wan.Container.HashTable.World
import Wan.Container.ListContainer.Assignment
import Wan.Container.ListContainer.Edits
import Wan.Container.ListContainer.Erase
import Wan.Container.ListContainer.Frame
import Wan.Container.ListContainer.Growth
import Wan.Container.ListContainer.Insert
import Wan.Container.ListContainer.Lifetime
import Wan.Container.ListContainer.Model
import Wan.Container.ListContainer.Ownership
import Wan.Container.ListContainer.Run
import Wan.Container.ListContainer.Sequences
import Wan.Container.ListContainer.Sound
import Wan.Container.ListContainer.World
import Wan.Container.PriorityQueue
import Wan.Container.RedBlackTree.Clear
import Wan.Container.RedBlackTree.Copy
import Wan.Container.RedBlackTree.Delete
import Wan.Container.RedBlackTree.Erase
import Wan.Container.RedBlackTree.Insert
import Wan.Container.RedBlackTree.Invariant
import Wan.Container.RedBlackTree.Iterator
import Wan.Container.RedBlackTree.Model
import Wan.Container.RedBlackTree.Revolve
import Wan.Container.RedBlackTree.Run
import Wan.Container.String.Compare
import Wan.Container.StringContainer.Refinement
import Wan.Container.Traversal
import Wan.Container.Vector.Accounting
import Wan.Container.Vector.Commands
import Wan.Container.Vector.Growth
import Wan.Container.Vector.Guarantee
import Wan.Container.Vector.Loops
import Wan.Container.Vector.Methods
import Wan.Container.Vector.Model
import Wan.Container.Vector.Push
import Wan.Container.Vector.Refinement
import Wan.Container.Vector.Relocation
import Wan.Container.Vector.Throwing
import Wan.Container.Vector.World
import Wan.Fault.Code
import Wan.Library.Bytes
import Wan.Library.Crc
import Wan.Library.Cursor
import Wan.Library.FilePath
import Wan.Library.Heap
import Wan.Library.History
import Wan.Library.InsertionMap
import Wan.Library.Interleaving
import Wan.Library.Layout
import Wan.Library.LinkedTree.Copy
import Wan.Library.LinkedTree.Focus
import Wan.Library.LinkedTree.Iteration
import Wan.Library.LinkedTree.Remove
import Wan.Library.LinkedTree.Search
import Wan.Library.LinkedTree.Store
import Wan.Library.LinkedTree.Travel
import Wan.Library.LinkedTree.Traversal
import Wan.Library.LinkedTree.Unravel
import Wan.Library.LinkedTree.Update
import Wan.Library.LinkedTree.Walk
import Wan.Library.Machine
import Wan.Library.Objects.Ledger
import Wan.Library.Objects.Model
import Wan.Library.Objects.Rules
import Wan.Library.Packed
import Wan.Library.Parties
import Wan.Library.Percent
import Wan.Library.Positions
import Wan.Library.Ring
import Wan.Library.Slots
import Wan.Library.StableSort
import Wan.Library.Text
import Wan.Network.Agreement.Atomicity
import Wan.Network.Agreement.Cache
import Wan.Network.Agreement.Header
import Wan.Network.Agreement.Injection
import Wan.Network.Agreement.Json
import Wan.Network.Agreement.JsonForm
import Wan.Network.Agreement.Lines
import Wan.Network.Agreement.Message
import Wan.Network.Agreement.MessageJson
import Wan.Network.Agreement.MessageText
import Wan.Network.Agreement.ParserRules
import Wan.Network.Agreement.Parsers
import Wan.Network.Agreement.Request
import Wan.Network.Agreement.RequestText
import Wan.Network.Agreement.Reread
import Wan.Network.Agreement.Response
import Wan.Network.Agreement.ResponseText
import Wan.Network.Crypt.Crc32
import Wan.Network.Crypt.Crc32Serial
import Wan.Network.Crypt.Framing
import Wan.Network.Crypt.Packet
import Wan.Network.Crypt.Schemes
import Wan.Transport.Completion.Delivery
import Wan.Transport.Transmission
import Wan.Web.Application.Lifecycle
import Wan.Web.Application.Model
import Wan.Web.Client.Redirect
import Wan.Web.ConnectionRegistry.Bookkeeping
import Wan.Web.ConnectionRegistry.Closing
import Wan.Web.ConnectionRegistry.Model
import Wan.Web.ConnectionRegistry.Refinement
import Wan.Web.ConnectionRegistry.Turns
import Wan.Web.Context.Cookies
import Wan.Web.Context.Model
import Wan.Web.Context.Query
import Wan.Web.Context.SetCookie
import Wan.Web.Executor.Lifecycle
import Wan.Web.Executor.Model
import Wan.Web.Executor.Turns
import Wan.Web.Middleware.Layer
import Wan.Web.Middleware.Model
import Wan.Web.Middleware.Order
import Wan.Web.Middleware.Total
import Wan.Web.Router.Grown
import Wan.Web.Router.Insert
import Wan.Web.Router.Model
import Wan.Web.Router.Order
import Wan.Web.Router.Parse
import Wan.Web.Router.Precedence
import Wan.Web.Router.Reach
import Wan.Web.Router.Registration
import Wan.Web.Router.Run
import Wan.Web.Router.Search
import Wan.Web.Server.DrainTimer
import Wan.Web.Server.Lifecycle
import Wan.Web.Server.Model
import Wan.Web.Server.Registry
import Wan.Web.Server.Shutdown
import Wan.Web.Server.Slots
import Wan.Web.Server.Static
import Wan.Web.Server.Turns
import Wan.Web.Server.Wake
import Wan.Web.Serving.Builtins
import Wan.Web.Serving.Discipline
import Wan.Web.Serving.Exchange
import Wan.Web.Serving.Message
import Wan.Web.Serving.Metrics
import Wan.Web.Serving.Model
import Wan.Web.Serving.Protocol
import Wan.Web.Session.Effects
import Wan.Web.Session.Ledger
import Wan.Web.Session.Model
import Wan.Web.Session.Safety
