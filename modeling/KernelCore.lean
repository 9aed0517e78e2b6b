import KernelCore.Kernel.World
import KernelCore.Lifetime.Objects
import KernelCore.Lifetime.Values
import KernelCore.Log.Console
import KernelCore.Memory.Checksum
import KernelCore.Memory.Copy
import KernelCore.Memory.Tracker
import KernelCore.Memory.Tracker.Operation
import KernelCore.Sync.Guard
import KernelCore.Word.Integer
import KernelCore.Proofs.Boot.Boundary
import KernelCore.Proofs.Boot.Course
import KernelCore.Proofs.Boot.Disjoint
import KernelCore.Proofs.Boot.Holdings
import KernelCore.Proofs.Boot.Lifecycle
import KernelCore.Proofs.Boot.Nesting
import KernelCore.Proofs.Boot.Startup
import KernelCore.Proofs.Boot.Statistics
import KernelCore.Proofs.Extent.Fitting
import KernelCore.Proofs.Extent.Reset
import KernelCore.Proofs.Extent.Zone
import KernelCore.Proofs.Files.Cursor
import KernelCore.Proofs.Heap.Handoff
import KernelCore.Proofs.Heap.Ownership
import KernelCore.Proofs.Heap.Retirement
import KernelCore.Proofs.Heap.Routing
import KernelCore.Proofs.Kernel.Forgetful
import KernelCore.Proofs.Kernel.Threshold
import KernelCore.Proofs.Lifetime.Effects
import KernelCore.Proofs.Lifetime.Refinement
import KernelCore.Proofs.Lifetime.Rows
import KernelCore.Proofs.Memory.Accounting
import KernelCore.Proofs.Memory.Copying
import KernelCore.Proofs.Memory.View
import KernelCore.Proofs.Space.FirstFit
import KernelCore.Proofs.Space.Layout
import KernelCore.Proofs.Syscall.Contents
import KernelCore.Proofs.Syscall.Cursors
import KernelCore.Proofs.Syscall.FailedMapping
import KernelCore.Proofs.Syscall.Filling
import KernelCore.Proofs.Syscall.Geometry
import KernelCore.Proofs.Syscall.Locking
import KernelCore.Proofs.Syscall.Outcome
import KernelCore.Proofs.Syscall.Placing
import KernelCore.Proofs.Syscall.Prototypes
import KernelCore.Proofs.Syscall.Runs
import KernelCore.Proofs.Syscall.Services
import KernelCore.Proofs.Syscall.Staging
import KernelCore.Proofs.Text.Padding
import KernelCore.Proofs.Text.RoundTrip
import KernelCore.Proofs.Word.Nearest
