import Stillyard.System.Doubt
import Stillyard.Store.Reconcile
import Stillyard.Store.Restart
import Stillyard.System.Starts
import Stillyard.System.Callbacks
import Stillyard.Native.Recheck
import Stillyard.Manager.Reserve
import Stillyard.Attached.Mirror
import Stillyard.Submission.Idempotence
import Stillyard.Submission.Waits
import Stillyard.Executor.Space
import Stillyard.Daemon.Membership
import Stillyard.Tree.Panics
import Stillyard.Native.Wildcard
import Stillyard.Native.Pending
