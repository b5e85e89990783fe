import Koshi.Core.Varint
import Koshi.Core.VarintSlice
import Koshi.Layout.Placement
import Koshi.Layout.Proof.Canonical
import Koshi.Layout.Proof.Placement
import Koshi.Layout.Proof.Solve
import Koshi.Layout.Proof.Destinations
import Koshi.Sessions.Consistency
import Koshi.Sessions.Proof.PlacementCommit
import Koshi.Terminal.Proof.SynchronizedOutput
import Koshi.Terminal.Proof.Grid
import Koshi.Terminal.Proof.RowDecode
import Koshi.Terminal.Proof.Scrollback
import Koshi.Terminal.Proof.Reflow
import Koshi.Terminal.Proof.TextView
import Koshi.Runtime.Proof.PtyInbox
import Koshi.Viewer.Proof.KeyResolution
import Koshi.Config.Proof.Conflict
import Koshi.Config.Proof.KeyText
import Koshi.Ipc.Proof.PaintedParts
import Koshi.Ipc.Proof.RemoteTokens
import Koshi.Runtime.Proof.PaintWindow
import Koshi.Client.Proof.ImageCache
import Koshi.Client.Proof.EncodedOutputCache
import Koshi.Client.Proof.NotificationCounts
import Koshi.Client.Proof.NotificationRun
import Koshi.Client.Proof.NotificationReplicationRun
import Koshi.Input.Proof.Keyboard
import Koshi.Daemon.Proof.PtySupervisor
import Koshi.Pty.Proof.CreditRun
import Koshi.Pty.Proof.LinkRun
import Koshi.Layout.Proof.Removal
import Koshi.Layout.Proof.Suppression
import Koshi.Layout.Proof.CheckedDistribute
import Koshi.Layout.Proof.SplitRemove
import Koshi.Layout.Proof.Shares
import Koshi.Layout.Proof.DeltaConversion
import Koshi.Layout.Proof.DeltaFold
import Koshi.Input.Proof.HostPaste
import Koshi.Layout.Proof.Resize
import Koshi.Layout.Proof.Regions
import Koshi.Terminal.Proof.RowPadding
import Koshi.Terminal.Proof.StoredRow
import Koshi.Terminal.Proof.WordSelection
import Koshi.Runtime.Proof.HeldMouseButtons
import Koshi.Runtime.Proof.SelectionSpans
import Koshi.Sixel.Proof.Palette
import Koshi.Runtime.Proof.RenderSchedule
import Koshi.Renderer.Proof.Tabline
import Koshi.Runtime.Proof.DeliveryQueue
import Koshi.Daemon.Proof.RouterGate
import Koshi.Layout.Proof.EditRun
