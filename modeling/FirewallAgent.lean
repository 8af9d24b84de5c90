import FirewallAgent.Address.Ip
import FirewallAgent.Address.Socket
import FirewallAgent.Agent
import FirewallAgent.Agent.Start
import FirewallAgent.Cache.Decision
import FirewallAgent.Cache.Recency
import FirewallAgent.Channel
import FirewallAgent.Cli.Run
import FirewallAgent.Config.Discovery
import FirewallAgent.ConnectionKey
import FirewallAgent.Decision
import FirewallAgent.Device
import FirewallAgent.Endpoint
import FirewallAgent.Fingerprint
import FirewallAgent.Gate.Sharing
import FirewallAgent.Gate.Timeline
import FirewallAgent.Identity
import FirewallAgent.Lock.Session
import FirewallAgent.Main
import FirewallAgent.Proofs.Agent.Connects
import FirewallAgent.Proofs.Agent.Freshness
import FirewallAgent.Proofs.Agent.Handshake
import FirewallAgent.Proofs.Agent.Identities
import FirewallAgent.Proofs.Agent.Provenance
import FirewallAgent.Proofs.Agent.Sequence
import FirewallAgent.Proofs.Agent.Shutdown
import FirewallAgent.Proofs.Agent.Token
import FirewallAgent.Proofs.Cache.Effects
import FirewallAgent.Proofs.Cache.Recency
import FirewallAgent.Proofs.Channel.Moves
import FirewallAgent.Proofs.Channel.Retry
import FirewallAgent.Proofs.Config
import FirewallAgent.Proofs.ConnectionKey
import FirewallAgent.Proofs.Endpoint
import FirewallAgent.Proofs.FileTree
import FirewallAgent.Proofs.Fingerprint
import FirewallAgent.Proofs.Gate.Waits
import FirewallAgent.Proofs.Lock.Orderly
import FirewallAgent.Proofs.Store.Crash
import FirewallAgent.Proofs.Store.Failure
import FirewallAgent.Proofs.Store.Grammar
import FirewallAgent.Proofs.Store.Ledger
import FirewallAgent.Proofs.Store.Pairs
import FirewallAgent.Proofs.Store.Refinement
import FirewallAgent.Proofs.Store.Retention
import FirewallAgent.Proofs.Store.Rewriting
import FirewallAgent.Proofs.Store.Work
import FirewallAgent.Proofs.Wire.Message
import FirewallAgent.Registry
import FirewallAgent.Scenario.Run
import FirewallAgent.Span.Text
import FirewallAgent.Store.Session
import FirewallAgent.Store.Sharing
import FirewallAgent.Verdict
import FirewallAgent.Wire.Message
import FirewallAgent.Yaml.Writer
