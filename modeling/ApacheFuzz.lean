import ApacheFuzz.Covbridge.Publication
import ApacheFuzz.Covbridge.Guards
import ApacheFuzz.Covbridge.Isolation
import ApacheFuzz.Covbridge.Feedback
import ApacheFuzz.Covbridge.Cancellation
import ApacheFuzz.Covbridge.CancelLoop
import ApacheFuzz.Framing.Replay
import ApacheFuzz.Harness.Preservation
import ApacheFuzz.Harness.Leftover
import ApacheFuzz.Harness.Fragments
import ApacheFuzz.Hooks.Discipline
import ApacheFuzz.Corpus.Canonical
import ApacheFuzz.Corpus.RequestSeeds
import ApacheFuzz.Corpus.ClientHello
import ApacheFuzz.Harness.ReplaySequence
import ApacheFuzz.Harness.ExtraCounters
import ApacheFuzz.Harness.GateBound
import ApacheFuzz.BuildCheck.EvidenceOrder
import ApacheFuzz.BuildCheck.ArchiveMembers
import ApacheFuzz.BuildCheck.Main
import ApacheFuzz.Campaign.Stopping
import ApacheFuzz.Server.Completion
import ApacheFuzz.Pool.Feedback
import ApacheFuzz.Covbridge.Progress
import ApacheFuzz.BuildCheck.Discover
import ApacheFuzz.BuildCheck.Discovery
import ApacheFuzz.BuildCheck.Output
