import EapAccel.Downstream.Duplicates
import EapAccel.Downstream.Terminal
import EapAccel.Downstream.Transparency
import EapAccel.Opacity.ToSupplicant
import EapAccel.Downstream.Freshness
import EapAccel.Downstream.Lockstep
import EapAccel.Downstream.Keys
import EapAccel.Downstream.Identifiers
import EapAccel.Downstream.Context
import EapAccel.Downstream.Replay
import EapAccel.Downstream.Isolation
import EapAccel.EapTls.Traces
import EapAccel.Mediator.Drain
import EapAccel.Downstream.Encoding
import EapAccel.Downstream.RoundTrips
import EapAccel.Downstream.Liveness
import EapAccel.Downstream.Release
import EapAccel.Downstream.Retry
import EapAccel.Downstream.Latent
import EapAccel.Upstream.Wire
import EapAccel.Downstream.Idleness
import EapAccel.Downstream.LinkSize
import EapAccel.Foundations.Dialogue
import EapAccel.Peers.Savings
import EapAccel.Downstream.Accounts
import EapAccel.Downstream.Authentic
import EapAccel.Peers.Crowd
import EapAccel.Downstream.Records
import EapAccel.Downstream.Durations
import EapAccel.Downstream.Waiting
import EapAccel.Downstream.Streams
