import Rackphone.Lib.Run
import Rackphone.Lib.Page
import Rackphone.Lib.Occurrence
import Rackphone.Lib.Table
import Rackphone.Lib.Lines
import Rackphone.Lib.Json
import Rackphone.Lib.JsonReader
import Rackphone.Lib.JsonRoundTrip
import Rackphone.Lib.JsonPieces
import Rackphone.Lib.JsonInside
import Rackphone.EventStore
import Rackphone.CallController
import Rackphone.CallReceiver
import Rackphone.Capability
import Rackphone.DeviceEvent
import Rackphone.Inbox
import Rackphone.EventIds
import Rackphone.Spool
import Rackphone.Delivery
import Rackphone.Stream
import Rackphone.Feed
import Rackphone.Redelivery
import Rackphone.InboxController
import Rackphone.InboxLists
import Rackphone.StoreConnection
import Rackphone.Proofs.EventStore
import Rackphone.Proofs.EventIds
import Rackphone.Proofs.CallController
import Rackphone.Proofs.CallReceiver
import Rackphone.Proofs.Delivery
import Rackphone.Proofs.Spool
import Rackphone.Proofs.Stream
import Rackphone.Proofs.Feed
import Rackphone.Proofs.Redelivery
import Rackphone.Proofs.InboxController
import Rackphone.Proofs.InboxLists
import Rackphone.Lib.Dict
import Rackphone.Lib.Connection
import Rackphone.Lib.Ladder
import Rackphone.AuthStore
import Rackphone.Families
import Rackphone.Login
import Rackphone.Lockout
import Rackphone.GuessRace
import Rackphone.RecoveryCodes
import Rackphone.Session
import Rackphone.Tunnels
import Rackphone.Relay
import Rackphone.RelayHandlers
import Rackphone.EventStream
import Rackphone.Renewal
import Rackphone.GatewayClient
import Rackphone.RefreshRace
import Rackphone.Proofs.AuthStore
import Rackphone.Proofs.Families
import Rackphone.Proofs.Login
import Rackphone.Proofs.Lockout
import Rackphone.Proofs.Strangers
import Rackphone.Proofs.GuessRace
import Rackphone.Proofs.RecoveryCodes
import Rackphone.Proofs.RefreshRace
import Rackphone.Proofs.Session
import Rackphone.Proofs.Tunnels
import Rackphone.Proofs.Relay
import Rackphone.Proofs.RelayHandlers
import Rackphone.Proofs.EventStream
import Rackphone.Proofs.Renewal
import Rackphone.Proofs.GatewayClient
import Rackphone.Proofs.StoreConnection
import Rackphone.Lib.KeyLines
import Rackphone.Settings
import Rackphone.Schema
import Rackphone.Battery
import Rackphone.Keepalive
import Rackphone.Proofs.Battery
import Rackphone.Proofs.Keepalive
import Rackphone.Proofs.Settings
import Rackphone.Proofs.Schema
import Rackphone.Lib.NamedResource
import Rackphone.Remote
import Rackphone.Proofs.Remote
import Rackphone.Lib.Transducer
import Rackphone.Lib.Utf8
import Rackphone.Lib.LineSplitter
import Rackphone.Lib.JsonDumps
import Rackphone.EventFrames
import Rackphone.Proofs.EventFrames
import Rackphone.Lib.Pipe
import Rackphone.ScreenRelay
import Rackphone.Proofs.ScreenRelay
import Rackphone.Lib.Incremental
import Rackphone.Lib.BigEndian
import Rackphone.VideoStreamParser
import Rackphone.CallAudioStreamParser
import Rackphone.Proofs.VideoStreamParser
import Rackphone.Proofs.CallAudioStreamParser
import Rackphone.SendRace
import Rackphone.IncomingCall
import Rackphone.InboxNews
import Rackphone.Proofs.SendRace
import Rackphone.Proofs.IncomingCall
import Rackphone.Proofs.CallEnding
import Rackphone.Proofs.InboxNews
import Rackphone.Lib.Fallible
import Rackphone.DrainUnit
import Rackphone.Verifiers
import Rackphone.LoginText
import Rackphone.Proofs.DrainUnit
import Rackphone.Proofs.DrainLoop
import Rackphone.Proofs.SpoolFiles
import Rackphone.Proofs.Sender
import Rackphone.Proofs.Backoff
import Rackphone.Proofs.KeepaliveSpacing
import Rackphone.Proofs.Balance
import Rackphone.Proofs.Filters
import Rackphone.Proofs.Capability
import Rackphone.Units
import Rackphone.Proofs.Units
import Rackphone.Proofs.NotificationDeduplicator
import Rackphone.Proofs.Numbers
import Rackphone.Dtmf
import Rackphone.Proofs.Dtmf
import Rackphone.AccessKey
import Rackphone.Proofs.AccessKey
import Rackphone.AccessToken
import Rackphone.Proofs.AccessToken
import Rackphone.BusyClose
import Rackphone.Proofs.BusyClose
import Rackphone.Files
import Rackphone.Proofs.Files
import Rackphone.ScreenController
import Rackphone.Proofs.ScreenController
import Rackphone.Lib.TextFormat
import Rackphone.Exposition
import Rackphone.Proofs.Exposition
import Rackphone.Scrape
import Rackphone.Proofs.Scrape
import Rackphone.CommandReceiver
import Rackphone.Proofs.CommandReceiver
import Rackphone.Proofs.Reload
import Rackphone.Proofs.DeviceCli
import Rackphone.Lib.Handler
import Rackphone.Lib.Origin
import Rackphone.Api
import Rackphone.Endpoints
import Rackphone.Proofs.LoginText
import Rackphone.Proofs.Api
import Rackphone.Proofs.Grants
import Rackphone.Proofs.Served
import Rackphone.Proofs.Audited
