import KmodCeph.Osdmap.Striping
import KmodCeph.Osdmap.Placement
import KmodCeph.Crush.Separation
import KmodCeph.Messenger.Resync
import KmodCeph.Messenger.Acknowledged
import KmodCeph.Messenger.Handshake
import KmodCeph.Messenger.References
import KmodCeph.Messenger.Payload
import KmodCeph.Crush.Bounds
import KmodCeph.Crush.Scratch
import KmodCeph.Caps.Reservation
import KmodCeph.Caps.Wrbuffer
import KmodCeph.Caps.Migration
import KmodCeph.OsdClient.Sync
import KmodCeph.Snap.Traces
import KmodCeph.OsdClient.Completion
import KmodCeph.OsdClient.Reset
import KmodCeph.Caps.UnsafeWrites
import KmodCeph.Rbd.Parent
import KmodCeph.Rbd.Unwind
import KmodCeph.Rbd.Chain
import KmodCeph.Rbd.CopyOnWrite
import KmodCeph.Mds.WaitLists
import KmodCeph.Mds.Iteration
import KmodCeph.Xattr.Load
import KmodCeph.Caps.MdsSync
import KmodCeph.Auth.Validity
import KmodCeph.Dir.Cached
import KmodCeph.Incoming.Replies
import KmodCeph.Writeback.Submitted
import KmodCeph.Crush.Permutation
import KmodCeph.Crush.Leaves
import KmodCeph.Osdmap.UpState
import KmodCeph.Osdmap.Overflow
import KmodCeph.Osdmap.Rejected
import KmodCeph.Osdmap.Bounds
import KmodCeph.Mon.MapEpochs
import KmodCeph.Mon.Answers
import KmodCeph.Mon.Opened
import KmodCeph.Mon.Queue
import KmodCeph.Crush.Weighted
import KmodCeph.Crush.Movement
import KmodCeph.Osdmap.Splitting
import KmodCeph.OsdClient.NewRequest
import KmodCeph.Armor.Codec
import KmodCeph.Pagelist.Contents
import KmodCeph.OsdClient.Pairing
import KmodCeph.OsdClient.RequestSize
import KmodCeph.Snap.Bounds
import KmodCeph.Caps.Queries
import KmodCeph.Caps.AioWrite
import KmodCeph.Inode.Merging
import KmodCeph.Dir.Fragtree
import KmodCeph.Dir.FragtreeUpdate
import KmodCeph.Dir.FragAlgebra
import KmodCeph.Xattr.Ranges
import KmodCeph.Rbd.Bio
import KmodCeph.Rbd.Slices
import KmodCeph.Rbd.Zeroing
import KmodCeph.Rbd.Header
import KmodCeph.Messenger.Addresses
import KmodCeph.Mdsmap.Random
import KmodCeph.Locks.Reconnect
import KmodCeph.Mds.Path
