import AtlasClient.Lib.Run
import AtlasClient.Lib.Loop
import AtlasClient.Lib.Frames
import AtlasClient.Lib.FirstMatch
import AtlasClient.Lib.NodeWalk
import AtlasClient.Lib.Fuel
import AtlasClient.Lib.LinkedList
import AtlasClient.Lib.FirstOfEach
import AtlasClient.Spec.Bytes
import AtlasClient.Spec.Status
import AtlasClient.Spec.Command
import AtlasClient.Spec.Scheduler
import AtlasClient.Spec.Net
import AtlasClient.Spec.Alarm
import AtlasClient.Spec.CoapClient
import AtlasClient.Spec.Client
import AtlasClient.Spec.Connector
import AtlasClient.Spec.Telemetry
import AtlasClient.Spec.Register
import AtlasClient.Spec.Machine
import AtlasClient.Spec.DataPlane
import AtlasClient.Spec.Link
import AtlasClient.Spec.Execute
import AtlasClient.Spec.Identity
import AtlasClient.Spec.Strtol
import AtlasClient.Spec.Alert
import AtlasClient.Spec.Dispatch
import AtlasClient.Spec.Trigger
import AtlasClient.Spec.Library
import AtlasClient.Spec.Config
import AtlasClient.Spec.CoapServer
import AtlasClient.Spec.SchedHeap
import AtlasClient.Spec.Strtok
import AtlasClient.Spec.Application
import AtlasClient.Proof.Command
import AtlasClient.Proof.Codec
import AtlasClient.Proof.Scheduler
import AtlasClient.Proof.Net
import AtlasClient.Proof.Completion
import AtlasClient.Proof.Effects
import AtlasClient.Proof.Ownership
import AtlasClient.Proof.Registration
import AtlasClient.Proof.Keepalive
import AtlasClient.Proof.Retry
import AtlasClient.Proof.Reputation
import AtlasClient.Proof.Statistics
import AtlasClient.Proof.Link
import AtlasClient.Proof.Execute
import AtlasClient.Proof.Identity
import AtlasClient.Proof.Acts
import AtlasClient.Proof.Chains
import AtlasClient.Proof.Alarms
import AtlasClient.Proof.Telemetry
import AtlasClient.Proof.Feedback
import AtlasClient.Proof.Policy
import AtlasClient.Proof.Inside
import AtlasClient.Proof.Socket
import AtlasClient.Proof.Updates
import AtlasClient.Proof.Append
import AtlasClient.Proof.Cursor
import AtlasClient.Proof.Bounds
import AtlasClient.Proof.Threshold
import AtlasClient.Proof.Resend
import AtlasClient.Proof.Refused
import AtlasClient.Proof.Dispatch
import AtlasClient.Proof.Trigger
import AtlasClient.Proof.Search
import AtlasClient.Proof.Corrupt
import AtlasClient.Proof.Reconnect
import AtlasClient.Proof.Replies
import AtlasClient.Proof.Submission
import AtlasClient.Proof.Config
import AtlasClient.Proof.CoapServer
import AtlasClient.Proof.Sweep
import AtlasClient.Proof.Subscribe
import AtlasClient.Proof.Overrun
import AtlasClient.Proof.Window
import AtlasClient.Lib.Simulation
import AtlasClient.Proof.Endpoints
import AtlasClient.Proof.Payload
import AtlasClient.Proof.Conform
import AtlasClient.Lib.HeapWalk
import AtlasClient.Lib.Tokens
import AtlasClient.Lib.Outcome
import AtlasClient.Spec.SchedLoop
import AtlasClient.Spec.Traffic
import AtlasClient.Spec.Query
import AtlasClient.Spec.Network
import AtlasClient.Proof.Device
import AtlasClient.Proof.SchedLoop
import AtlasClient.Proof.Traffic
import AtlasClient.Proof.Query
import AtlasClient.Proof.Network
import AtlasClient.Proof.Delivery
import AtlasClient.Spec.MainLoop
import AtlasClient.Proof.Unread
import AtlasClient.Proof.MainLoop
import AtlasClient.Proof.Watch
import AtlasClient.Lib.ListHeap
import AtlasClient.Spec.Requests
import AtlasClient.Proof.Requests
