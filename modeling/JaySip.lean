import JaySip.Machine
import JaySip.Java.Exec
import JaySip.Sip.Service
import JaySip.Proof.Handler
import JaySip.Proof.Service
import JaySip.Proof.Invariants
import JaySip.Proof.Transactions
import JaySip.Proof.Call
import JaySip.Proof.Consent
import JaySip.Proof.Answers
import JaySip.Proof.Network
import JaySip.Proof.Outgoing
import JaySip.Proof.Incoming
import JaySip.Proof.Negotiation
import JaySip.Proof.Coherence
import JaySip.Proof.Finals
import JaySip.Proof.Cancels
import JaySip.Java.Relational
import JaySip.Proof.Forgets
import JaySip.Java.Number
import JaySip.Proof.Agreement
import JaySip.Java.Array
import JaySip.Media.Codec
import JaySip.Media.Decoder
import JaySip.Proof.Bounds
import JaySip.Media.LanAudioPlay
import JaySip.Proof.Payload
import JaySip.Proof.Delivery
import JaySip.Media.EchoCancellation
import JaySip.Media.Encoder
import JaySip.Proof.Echo
import JaySip.Media.LanAudioRecord
import JaySip.Proof.Muting
import JaySip.Proof.Fifo
import JaySip.Proof.Formats
import JaySip.Proof.Sections
import JaySip.Proof.Established
import JaySip.Proof.Repeats
import JaySip.Java.Threads
import JaySip.Media.MediaService
import JaySip.Proof.MediaService
import JaySip.Proof.Restart
import JaySip.Proof.Tuned
import JaySip.Proof.Serves
import JaySip.Proof.Leaks
import JaySip.Proof.Malformed
import JaySip.Proof.HangUp
import JaySip.Proof.Canceller
import JaySip.Media.Reception
import JaySip.Proof.Losses
import JaySip.Proof.Ports
import JaySip.Proof.Sequence
import JaySip.Proof.Clock
import JaySip.CircularBuffer
import JaySip.Media.RecordLoop
import JaySip.Proof.Laps
import JaySip.Proof.RecordLoop
import JaySip.Proof.ShortReads
import JaySip.Java.Split
import JaySip.Proof.SdpField
import JaySip.Java.Regex
import JaySip.Proof.Contact
import JaySip.Proof.Digest
import JaySip.Proof.ContactUri
import JaySip.Lifecycle
import JaySip.Media.Speex
import JaySip.Proof.Speex
import JaySip.FixedPoint
import JaySip.Media.G722
import JaySip.BitStream
import JaySip.Iteration
import JaySip.Proof.G722
import JaySip.Proof.G722Error
import JaySip.Proof.StunMessage
import JaySip.Proof.StunParsing
import JaySip.Proof.StunDiscovery
import JaySip.Proof.StunNat
import JaySip.Blocks
import JaySip.Lines
import JaySip.Proof.SdpAnnounce
import JaySip.Proof.Replies
import JaySip.Proof.SdpText
