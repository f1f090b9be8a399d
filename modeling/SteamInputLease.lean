import SteamInputLease.Lib.System
import SteamInputLease.Core.Protocol
import SteamInputLease.Gate.System
import SteamInputLease.Proof.Gate.LeaseAccounting
import SteamInputLease.Proof.Gate.Edges
import SteamInputLease.Proof.Gate.SecondPass
import SteamInputLease.Proof.Gate.Rediscovery
import SteamInputLease.Proof.Gate.Scheduled
import SteamInputLease.Proof.Gate.Progress
import SteamInputLease.Proof.Gate.Resolution
import SteamInputLease.Proof.Gate.Responses
import SteamInputLease.Proof.Gate.HandleTable
import SteamInputLease.Proof.Gate.HandleThreads
import SteamInputLease.Proof.Gate.Revocation
import SteamInputLease.Proof.Gate.Sweep
import SteamInputLease.Proof.Gate.Detour
import SteamInputLease.Proof.Gate.Enumeration
import SteamInputLease.Proof.Gate.HidPrefix
import SteamInputLease.Proof.Gate.Hooked
import SteamInputLease.Proof.Gate.Proxy
import SteamInputLease.Proof.Gate.Server
import SteamInputLease.Proof.Gate.SteamThread
import SteamInputLease.Proof.Recovery.LiveScan
import SteamInputLease.Proof.Recovery.Justified
import SteamInputLease.Proof.Recovery.Alignment
import SteamInputLease.Proof.Recovery.Election
import SteamInputLease.Proof.Recovery.Requests
import SteamInputLease.Proof.Recovery.Checked
import SteamInputLease.Proof.Recovery.ScanEnds
import SteamInputLease.Proof.Recovery.Snapshot
import SteamInputLease.Proof.Launch.CommandLine
import SteamInputLease.Proof.Launch.Run
import SteamInputLease.Proof.Launch.Environment
import SteamInputLease.Proof.Launch.Connect
import SteamInputLease.Proof.Launch.Cli
import SteamInputLease.Proof.Launch.Main
import SteamInputLease.Proof.Host.Inject
import SteamInputLease.Proof.Host.Process
import SteamInputLease.Proof.Host.Client
import SteamInputLease.Proof.Host.Connect
import SteamInputLease.Proof.Host.Wrapped
import SteamInputLease.Proof.Host.Refinement
import SteamInputLease.Proof.Ffi.Message
import SteamInputLease.Proof.Ffi.Handles
import SteamInputLease.Proof.Ffi.Session
import SteamInputLease.Proof.Ffi.Outputs
