import PeerMesh.Table
import PeerMesh.Bytes
import PeerMesh.Digest
import PeerMesh.Text.Hex
import PeerMesh.Text.Glyph
import PeerMesh.Text.Quoted
import PeerMesh.Text.Json
import PeerMesh.Duration
import PeerMesh.Identity
import PeerMesh.Node
import PeerMesh.Sample
import PeerMesh.Store
import PeerMesh.Message
import PeerMesh.Fault
import PeerMesh.Files
import PeerMesh.Text.Utf8
import PeerMesh.Wire.Format
import PeerMesh.Wire.Message
import PeerMesh.Wire.Framing
import PeerMesh.Text.Blank
import PeerMesh.Credentials.Base64
import PeerMesh.Credentials.Pem
import PeerMesh.Credentials.PrivateKey
import PeerMesh.Credentials.Sha512
import PeerMesh.Credentials.Certificate
import PeerMesh.Credentials.Curve
import PeerMesh.Credentials.Der
import PeerMesh.Credentials.Edwards
import PeerMesh.Credentials.Loading
import PeerMesh.Failure
import PeerMesh.Connection.Client
import PeerMesh.Connection.Pool
import PeerMesh.Profile
import PeerMesh.Measurement.Observation
import PeerMesh.Activity
import PeerMesh.Connection.Obtaining
import PeerMesh.Membership.Answering
import PeerMesh.Membership.Joining
import PeerMesh.Membership.Serving
import PeerMesh.Membership.Spreading
import PeerMesh.Measurement.RoundTrip
import PeerMesh.World.Basic
import PeerMesh.World.Schedule
import PeerMesh.World.Scripted
import PeerMesh.World.Shared
import PeerMesh.Command.Setting
import PeerMesh.Command.Arguments
import PeerMesh.Command.Running
import PeerMesh.Text.Decimal
import PeerMesh.Tcp.Ip
import PeerMesh.Tcp.Address
import PeerMesh.Tcp.Link
import PeerMesh.Tcp.Line
import PeerMesh.Tcp.Intake
import PeerMesh.Tcp.Network
import PeerMesh.Tcp.Isolated
import PeerMesh.Machine.Surroundings
import PeerMesh.Machine.Calling
import PeerMesh.Machine.Running
import PeerMesh.Main
import PeerMesh.Proofs.Bytes
import PeerMesh.Proofs.Lists
import PeerMesh.Proofs.Store.Lookup
import PeerMesh.Proofs.Membership.NameCheck
import PeerMesh.Proofs.Identity
import PeerMesh.Proofs.Store.Readings
import PeerMesh.Proofs.Measurement.Ownership
import PeerMesh.Proofs.Mesh.Basic
import PeerMesh.Proofs.Store.Acquaintance
import PeerMesh.Proofs.Mesh.Invariant
import PeerMesh.Proofs.Mesh.Acquaintance
import PeerMesh.Proofs.Mesh.Serial
import PeerMesh.Proofs.Mesh.SingleHost
import PeerMesh.Proofs.Mesh.Worlds
import PeerMesh.Proofs.Wire.Format
import PeerMesh.Proofs.Wire.Kinds
import PeerMesh.Proofs.Wire.Receiver
import PeerMesh.Proofs.Wire.Streams
import PeerMesh.Proofs.Connection.Asking
import PeerMesh.Proofs.Connection.Caching
import PeerMesh.Proofs.Membership.Candidates
import PeerMesh.Proofs.Course
import PeerMesh.Proofs.Tcp.Traffic
import PeerMesh.Proofs.Tcp.Sound
import PeerMesh.Proofs.Tcp.Answers
import PeerMesh.Proofs.Tcp.Turns
import PeerMesh.Proofs.Tcp.Progress
import PeerMesh.Proofs.Tcp.Waiting
import PeerMesh.Proofs.Tcp.Dialing
import PeerMesh.Proofs.Tcp.Session
import PeerMesh.Proofs.Tcp.Closing
import PeerMesh.Proofs.Tcp.Intake
import PeerMesh.Proofs.Tcp.Serving
import PeerMesh.Proofs.World.Interleaving
import PeerMesh.Proofs.Connection.Stages
import PeerMesh.Proofs.Connection.Dials
import PeerMesh.Proofs.Connection.Sharing
import PeerMesh.Proofs.Connection.Escaping
import PeerMesh.Proofs.Digest
import PeerMesh.Proofs.Measurement.RoundTrip
import PeerMesh.Proofs.Measurement.Replication
import PeerMesh.Proofs.Store.Derived
import PeerMesh.Proofs.Store.Twins
import PeerMesh.Proofs.World.Stores
import PeerMesh.Proofs.World.Changes
import PeerMesh.Proofs.World.Twins
import PeerMesh.Proofs.World.Discretion
import PeerMesh.Proofs.World.Operations
import PeerMesh.Proofs.Membership.SelfListing
import PeerMesh.Proofs.Membership.Names
import PeerMesh.Proofs.Membership.Joiners
import PeerMesh.Proofs.Measurement.Edges
import PeerMesh.Proofs.Store.Moments
import PeerMesh.Proofs.World.Moments
import PeerMesh.Proofs.World.Schedule
import PeerMesh.Proofs.Membership.Admission
import PeerMesh.Proofs.Membership.Renaming
import PeerMesh.Proofs.Membership.Absorbing
import PeerMesh.Proofs.Wire.Remnant
import PeerMesh.Proofs.Wire.Ending
import PeerMesh.Proofs.Membership.News
import PeerMesh.Proofs.Store.History
import PeerMesh.Proofs.Text.Json
import PeerMesh.Proofs.Command.Report
