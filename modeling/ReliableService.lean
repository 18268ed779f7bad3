import ReliableService.Arguments.Frames
import ReliableService.Arguments.RoundTrip
import ReliableService.Clients.Disconnect
import ReliableService.Clients.Gate
import ReliableService.Copies.Accounting
import ReliableService.Copies.Detection
import ReliableService.Copies.Traces
import ReliableService.Handlers.Effects
import ReliableService.Health.Replacement
import ReliableService.Health.Restarts
import ReliableService.Health.Separation
import ReliableService.Lib.ByteOrder
import ReliableService.Lib.Channels
import ReliableService.Lib.Desk
import ReliableService.Lib.Machine
import ReliableService.Lib.RoundRobin
import ReliableService.Lib.Simulation
import ReliableService.Model.DeploymentUnit
import ReliableService.Model.Handshake
import ReliableService.Model.Processes
import ReliableService.Model.Server
import ReliableService.Model.ServerLoop
import ReliableService.Model.Services
import ReliableService.Model.Step
import ReliableService.Model.System
import ReliableService.Model.Wire
import ReliableService.Model.World
import ReliableService.Network.Bytes
import ReliableService.Network.Formats
import ReliableService.Network.Heartbeats
import ReliableService.Network.Integrity
import ReliableService.Network.Isolation
import ReliableService.Network.Queues
import ReliableService.Network.Transport
import ReliableService.Network.Values
import ReliableService.Registration.Answers
import ReliableService.Registration.Availability
import ReliableService.Registration.Contract
import ReliableService.Registration.DealerIndex
import ReliableService.Registration.Histories
import ReliableService.Registration.Monitoring
import ReliableService.Registration.PortLimits
import ReliableService.Registration.Ports
import ReliableService.Registration.Positions
import ReliableService.Registration.Redundancy
import ReliableService.Registration.Tables
import ReliableService.Requests.AtMostOnce
import ReliableService.Requests.Decisions
import ReliableService.Requests.Deletion
import ReliableService.Requests.Numbering
import ReliableService.Requests.Ownership
import ReliableService.Requests.Records
import ReliableService.Requests.Refinement
import ReliableService.Requests.Responses
import ReliableService.Requests.Settling
import ReliableService.Requests.Sweeps
import ReliableService.Servers.Duplicates
import ReliableService.Servers.Handshake
import ReliableService.Servers.Iterations
import ReliableService.Servers.Losses
import ReliableService.Servers.Receipts
import ReliableService.Servers.Sockets
import ReliableService.Step.Endings
import ReliableService.Step.Grace
import ReliableService.Step.Pacing
import ReliableService.Step.Schedules
import ReliableService.Timing.Deadlines
import ReliableService.Voting.Incremental
import ReliableService.Voting.Loops
import ReliableService.Voting.Vote
