import Supervisor.Machine.Start
import Supervisor.Proofs.Critical.Outcome
import Supervisor.Proofs.Critical.Sequential
import Supervisor.Proofs.Frames.Ownership
import Supervisor.Proofs.Heap.Integrity
import Supervisor.Proofs.Heap.Isolation
import Supervisor.Proofs.Heap.Reallocation
import Supervisor.Proofs.Heap.Validation
import Supervisor.Proofs.Interrupt.Attachment
import Supervisor.Proofs.Interrupt.Delivery
import Supervisor.Proofs.Interrupt.Mirror
import Supervisor.Proofs.Machine.Placement
import Supervisor.Proofs.Interrupt.Vectors
import Supervisor.Proofs.Interrupt.Cascade
import Supervisor.Proofs.Interrupt.Transparency
import Supervisor.Proofs.Console.Terminal
import Supervisor.Proofs.Console.Video
import Supervisor.Proofs.Console.Refinement
import Supervisor.Proofs.Machine.Dispatch
import Supervisor.Proofs.Machine.Banner
import Supervisor.Proofs.Machine.BringUp
import Supervisor.Proofs.Machine.Wakeup
import Supervisor.Proofs.Heap.FirstFit
import Supervisor.Proofs.Heap.Padding
import Supervisor.Proofs.Heap.Restore
import Supervisor.Proofs.Heap.Layouts
import Supervisor.Proofs.Machine.Contract
import Supervisor.Proofs.Heap.Confluence
import Supervisor.Proofs.Heap.Availability
import Supervisor.Proofs.Heap.Stale
import Supervisor.Proofs.Heap.Overrun
import Supervisor.Proofs.Heap.Margins
import Supervisor.Proofs.Frames.Service
import Supervisor.Proofs.Frames.Reserved
import Supervisor.Proofs.Frames.Restore
import Supervisor.Proofs.Machine.CallTrace
import Supervisor.Proofs.Timer.Conversion
import Supervisor.Proofs.Timer.Idling
import Supervisor.Proofs.Interrupt.Gates
import Supervisor.Proofs.Machine.Logging
