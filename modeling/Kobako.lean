import Kobako.Bytes
import Kobako.Codec.Value
import Kobako.Codec.Wire
import Kobako.Codec.Encoder
import Kobako.Codec.Decoder
import Kobako.Codec.RoundTrip
import Kobako.Run
import Kobako.Transport.Guest
import Kobako.Transport.Host
import Kobako.Transport.Machine
import Kobako.Transport.Calls
import Kobako.Transport.Exits
import Kobako.Transport.Failures
import Kobako.Vfs.Dentry
import Kobako.Vfs.Namei
import Kobako.Vfs.Effort
import Kobako.Vfs.Tree
import Kobako.Vfs.Beneath
import Kobako.Vfs.Resolve
import Kobako.Vfs.Operations
import Kobako.Vfs.Calls
import Kobako.Outcome
import Kobako.Overlay.Layer
import Kobako.Overlay.Stack
import Kobako.Overlay.Change
import Kobako.Overlay.Calls
import Kobako.Overlay.Lower
import Kobako.Overlay.Tmpfs
import Kobako.Overlay.Identity
import Kobako.Codec.Budget
import Kobako.Codec.ValueBudget
import Kobako.Codec.Nesting
import Kobako.Envelope.Bytes
import Kobako.Envelope.Messages
import Kobako.Envelope.RoundTrip
import Kobako.Vfs.Mediation
import Kobako.Vfs.Licences
import Kobako.Vfs.ReadOnly
import Kobako.Vfs.Policy
import Kobako.Text
import Kobako.Regexp.Pieces
import Kobako.Regexp.Grammar
import Kobako.Regexp.Classes
import Kobako.Regexp.Rewriter
import Kobako.Regexp.Places
import Kobako.Regexp.Refusals
import Kobako.Regexp.Total
import Kobako.Regexp.Repeat
import Kobako.Regexp.Reading
import Kobako.Regexp.Spellings
import Kobako.Regexp.Expansion
import Kobako.Regexp.Index
import Kobako.Regexp.Spans
import Kobako.Regexp.Literal
import Kobako.Regexp.Lift
import Kobako.Regexp.Balance
import Kobako.Overlay.Listing
import Kobako.Envelope.Records
import Kobako.Codec.Canonical
import Kobako.Locking.Exclusion
import Kobako.Endpoint.Dispatch
import Kobako.Endpoint.Trapped
import Kobako.Endpoint.Access
import Kobako.OrderedMap
import Kobako.Edges
import Kobako.Tmpfs.State
import Kobako.Readdir.Serve
import Kobako.Readdir.Preview1
import Kobako.Readdir.Resume
import Kobako.Tmpfs.Heap
import Kobako.Tmpfs.Operations
import Kobako.Tmpfs.Balance
import Kobako.Tmpfs.Limits
import Kobako.Tmpfs.Content
import Kobako.Tmpfs.Offsets
import Kobako.Tmpfs.Changes
import Kobako.Tmpfs.Sound
import Kobako.Tmpfs.Stable
import Kobako.Tmpfs.Tree
import Kobako.Tmpfs.Moves
import Kobako.Tmpfs.Seeds
import Kobako.Dcache.InLookup
import Kobako.Dcache.Changes
import Kobako.Dcache.Interleave
import Kobako.Dcache.Ended
import Kobako.Dcache.Asker
import Kobako.Dcache.Waiter
import Kobako.Overlay.Contents
import Kobako.Overlay.CopyUp
import Kobako.Overlay.Coherent
import Kobako.Overlay.Refused
import Kobako.Overlay.Upper
import Kobako.Overlay.Agree
import Kobako.Overlay.Workdir
import Kobako.Descriptors
import Kobako.Stream
import Kobako.Catalog
import Kobako.Codec.HandleWalk
import Kobako.Pool
import Kobako.Readdir.Charges
import Kobako.Parents
import Kobako.Waiting
import Kobako.Dentries.Cache
import Kobako.Dentries.Calls
import Kobako.Dentries.Placed
import Kobako.Dentries.Held
import Kobako.Dentries.Turns
import Kobako.Dentries.Forest
import Kobako.Dentries.Directories
import Kobako.Dentries.Tables
import Kobako.Dentries.Entries
import Kobako.Dentries.Apart
import Kobako.Dentries.Filed
import Kobako.Dentries.Representation
import Kobako.Directories.Calls
import Kobako.Directories.Forest
import Kobako.Directories.Order
import Kobako.Directories.Deadlock
import Kobako.Locking.Sequence
import Kobako.Dentries.Instant
import Kobako.Artifacts
import Kobako.Transport.Reflection
import Kobako.Endpoint.Accounts
import Kobako.Hashtable
import Kobako.Gvl
import Kobako.Bind.Confined
import Kobako.Ambient.Poll
import Kobako.Sandbox.Reached
