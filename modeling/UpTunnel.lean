import UpTunnel.Lib.Reach
import UpTunnel.Lib.Dict
import UpTunnel.Lib.Index
import UpTunnel.Lib.Pipe
import UpTunnel.Lib.Duplex
import UpTunnel.Lib.Js
import UpTunnel.Lib.JsonText
import UpTunnel.Lib.JsonRound
import UpTunnel.Lib.Lines
import UpTunnel.Lib.Search
import UpTunnel.Lib.Text
import UpTunnel.Lib.Py
import UpTunnel.Protocol
import UpTunnel.Endpoint
import UpTunnel.Server.Stream
import UpTunnel.Client.HostRewrite
import UpTunnel.Client.Stream
import UpTunnel.Gate
import UpTunnel.Owner
import UpTunnel.Server.Session
import UpTunnel.Server.Flow
import UpTunnel.Client.Agent
import UpTunnel.Client.Flow
import UpTunnel.Congestion
import UpTunnel.Link.View
import UpTunnel.Link.Turn
import UpTunnel.Link.System
import UpTunnel.Link.Integrity
import UpTunnel.Link.Stall
import UpTunnel.StreamTable
import UpTunnel.Server.Registry
import UpTunnel.Server.Tenure
import UpTunnel.Server.WellKept
import UpTunnel.Server.Ports
import UpTunnel.Server.Release
import UpTunnel.Server.Quota
import UpTunnel.Server.Request
import UpTunnel.Server.Control
import UpTunnel.Server.HttpFrontend
import UpTunnel.Server.Routing
import UpTunnel.Calls
import UpTunnel.Discipline
import UpTunnel.Termination
import UpTunnel.HalfClose
import UpTunnel.Server.Apart
import UpTunnel.Server.Ledger
import UpTunnel.Server.HealthLog
import UpTunnel.Booking.System
import UpTunnel.Booking.Books
import UpTunnel.Booking.Device
import UpTunnel.Link.Talk
import UpTunnel.Link.Node
import UpTunnel.Lib.Account
import UpTunnel.Link.Life
import UpTunnel.Client.Config
import UpTunnel.Python.Cli
import UpTunnel.Targets
import UpTunnel.HostLine
import UpTunnel.Client.Confined
import UpTunnel.HostAgreed
import UpTunnel.SameRewrite
import UpTunnel.Lib.JsonTree
import UpTunnel.Lib.JsonGrammar
import UpTunnel.Lib.PyJson
import UpTunnel.Encode
import UpTunnel.Python.Protocol
import UpTunnel.SameLanguage
import UpTunnel.Codec
import UpTunnel.Client.Sessions
import UpTunnel.Isolation
import UpTunnel.Python.Agent
import UpTunnel.Python.Pumps
import UpTunnel.Python.Runs
import UpTunnel.Python.Finished
import UpTunnel.Python.Ended
import UpTunnel.Python.Transcript
import UpTunnel.Python.Voice
import UpTunnel.Python.Session
import UpTunnel.Python.Link
import UpTunnel.Python.Delivery
