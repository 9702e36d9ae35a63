import TorrentRemote.Client
import TorrentRemote.Config.Template
import TorrentRemote.Display
import TorrentRemote.Endpoint
import TorrentRemote.Envelope
import TorrentRemote.Identifier
import TorrentRemote.Json.Bytes
import TorrentRemote.Json.Writer
import TorrentRemote.Link
import TorrentRemote.Log
import TorrentRemote.Model.Catalog
import TorrentRemote.Model.Reader
import TorrentRemote.Number.Fixed
import TorrentRemote.Number.Numeral
import TorrentRemote.Proofs.Client
import TorrentRemote.Proofs.Config.Profiles
import TorrentRemote.Proofs.Config.Warnings
import TorrentRemote.Proofs.Connection.Cancelling
import TorrentRemote.Proofs.Connection.Failures
import TorrentRemote.Proofs.Connection.Isolation
import TorrentRemote.Proofs.Connection.Logins
import TorrentRemote.Proofs.Connection.Rounds
import TorrentRemote.Proofs.Connection.Tags
import TorrentRemote.Proofs.Connection.Tokens
import TorrentRemote.Request.Basic
import TorrentRemote.Request.Source
import TorrentRemote.Text.LowerCase
import TorrentRemote.Proofs.Model.Failures
import TorrentRemote.Proofs.Number.Whole
import TorrentRemote.Proofs.Text.Base64
import TorrentRemote.Proofs.Value.Tree
import TorrentRemote.Proofs.Model.RoundTrip
import TorrentRemote.Proofs.Json.RoundTrip
import TorrentRemote.Proofs.Exchange
import TorrentRemote.Proofs.Request.ChangeSet
import TorrentRemote.Proofs.Request.Cookies
import TorrentRemote.Proofs.Json.Parsed
import TorrentRemote.Proofs.Identifier
import TorrentRemote.Proofs.Value.Equivalence
import TorrentRemote.Proofs.Request.Sameness
import TorrentRemote.Proofs.Request.Settings
import TorrentRemote.Proofs.Request.Answers
import TorrentRemote.Proofs.Request.Torrents
import TorrentRemote.Proofs.Identifier.Meaning
import TorrentRemote.Proofs.Request.Guarded
import TorrentRemote.Proofs.Sendable
import TorrentRemote.Proofs.Time.Seconds
import TorrentRemote.Proofs.Request.Source
import TorrentRemote.Proofs.Endpoint
import TorrentRemote.Proofs.Model.Unknown
import TorrentRemote.Proofs.Display.Duration
import TorrentRemote.Proofs.Display.Memory
import TorrentRemote.Proofs.Config.Entries
import TorrentRemote.Proofs.Config.Listing
import TorrentRemote.Proofs.Config.Template
