import Plibra.Common
import Plibra.Batch
import Plibra.Table
import Plibra.Batches.Basic
import Plibra.Batches.Inject
import Plibra.Batches.NextEvent
import Plibra.Batches.Run
import Plibra.Batches.Drain
import Plibra.Batches.Replay
import Plibra.Batches.Routing
import Plibra.Batches.Serve
import Plibra.Bridge.Types
import Plibra.Bridge.Sync
import Plibra.Bridge.Returns
import Plibra.Bridge.Forwarding
import Plibra.Bridge.Rounds
import Plibra.Bridge.Trust
import Plibra.Bridge.RoundSpec
import Plibra.Bridge.Lifetime
import Plibra.Bridge.Retry
import Plibra.Bridge.Reinit
import Plibra.Bridge.Delivery
import Plibra.Batches.Answers
import Plibra.Bridge.Limits
