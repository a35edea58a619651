import EsdumanOS.Proofs.ChildNews
import EsdumanOS.Proofs.Clock
import EsdumanOS.Proofs.Durable
import EsdumanOS.Proofs.EditBuf
import EsdumanOS.Proofs.Editor
import EsdumanOS.Proofs.Entropy
import EsdumanOS.Proofs.Exec
import EsdumanOS.Proofs.FdRuns
import EsdumanOS.Proofs.FrameRuns
import EsdumanOS.Proofs.HeapRuns
import EsdumanOS.Proofs.Jobs
import EsdumanOS.Proofs.Keyslot
import EsdumanOS.Proofs.Klog
import EsdumanOS.Proofs.LineEditor
import EsdumanOS.Proofs.Lineage
import EsdumanOS.Proofs.Pathname
import EsdumanOS.Proofs.Pipe
import EsdumanOS.Proofs.Programs
import EsdumanOS.Proofs.ReadFaults
import EsdumanOS.Proofs.ReadOnly
import EsdumanOS.Proofs.Remount
import EsdumanOS.Proofs.Security
import EsdumanOS.Proofs.Shadow
import EsdumanOS.Proofs.Shell
import EsdumanOS.Proofs.Terminal
import EsdumanOS.Proofs.UmallocRuns
import EsdumanOS.Proofs.UserPointer
import EsdumanOS.Proofs.Waits
import EsdumanOS.Proofs.WorkingDir
import EsdumanOS.Proofs.Xhci
