import MappedMemory.Shm.LockWaits
import MappedMemory.Shm.Reclaim
import MappedMemory.Kernel.Leaks
import MappedMemory.Kernel.Cow
import MappedMemory.Pipe.Wakeup
import MappedMemory.Pipe.EndCounts
import MappedMemory.Sfs.LinkCounts
import MappedMemory.Sfs.ImageRead
import MappedMemory.Ide.Fifo
import MappedMemory.Vfs.References
import MappedMemory.Ptable.Family
import MappedMemory.Sched.Reclaim
import MappedMemory.Kmalloc.Invariant
import MappedMemory.Vpmap.Destroy
import MappedMemory.Vm.Extend
import MappedMemory.Shm.Size
import MappedMemory.Sfs.Limit
import MappedMemory.Vfs.ForkTable
import MappedMemory.Vfs.FailedCalls
import MappedMemory.Kernel.Faults
import MappedMemory.Ptable.WaitAny
import MappedMemory.Sfs.Encoding
import MappedMemory.Jbd.Transaction
import MappedMemory.Pmem.Requests
import MappedMemory.Pmem.Bitmap
import MappedMemory.RadixTree.Shifts
import MappedMemory.Machine.Copies
import MappedMemory.Bdev.Retry
import MappedMemory.Kernel.IntrusiveList
import MappedMemory.Sched.Fairness
import MappedMemory.Sched.Monitor
