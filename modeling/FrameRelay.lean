import FrameRelay.Number.Binary
import FrameRelay.Number.Decimal
import FrameRelay.Number.Ratio
import FrameRelay.Frame.Link
import FrameRelay.Stage.Error
import FrameRelay.Engine.Verify
import FrameRelay.Kernel.Basic
import FrameRelay.Engine.Handle
import FrameRelay.Engine.Simulated
import FrameRelay.Engine.Scripted
import FrameRelay.Stage.Run
import FrameRelay.Store.Tally
import FrameRelay.Report.Basic
import FrameRelay.Command.Run
import FrameRelay.Main
import FrameRelay.Proofs.Lifecycle
import FrameRelay.Proofs.EndOfStream
import FrameRelay.Proofs.PoolBalance
import FrameRelay.Proofs.Relay
import FrameRelay.Proofs.Anchor
import FrameRelay.Proofs.Rejection
import FrameRelay.Proofs.Renewal
import FrameRelay.Proofs.PoseList
import FrameRelay.Proofs.Interleaving
import FrameRelay.Proofs.Fitting
import FrameRelay.Proofs.Accounting
import FrameRelay.Proofs.SlowMotion
import FrameRelay.Proofs.Readings
import FrameRelay.Proofs.Refusals
import FrameRelay.Proofs.Enlargement
import FrameRelay.Proofs.Cadence
import FrameRelay.Proofs.Centring
import FrameRelay.Proofs.Granting
import FrameRelay.Proofs.ReadBack
import FrameRelay.Proofs.WholeNumbers
import FrameRelay.Proofs.Dumps
import FrameRelay.Proofs.Discarding
import FrameRelay.Proofs.Thresholds
