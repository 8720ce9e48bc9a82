import Zun.Api.Containers
import Zun.Cni.Lifetime
import Zun.Cni.Registry
import Zun.Common.Exception
import Zun.Common.World
import Zun.Compute.Billing
import Zun.Compute.Crash
import Zun.Compute.Create
import Zun.Compute.Failing
import Zun.Compute.Gentle
import Zun.Compute.Hosts
import Zun.Compute.Manager
import Zun.Compute.Protocol
import Zun.Compute.Resume
import Zun.Compute.TaskState
import Zun.Compute.Tracker
import Zun.Compute.Usage
import Zun.Compute.Writes
import Zun.Container.Cri.Abandoned
import Zun.Container.Cri.Build
import Zun.Container.Cri.Gentle
import Zun.Container.Cri.Life
import Zun.Container.Cri.Runtime
import Zun.Container.Cri.Undo
import Zun.Container.Docker
import Zun.Container.DockerNetwork
import Zun.Container.DockerNetworkPool
import Zun.Container.DockerNetworkUse
import Zun.Container.DockerSync
import Zun.Container.Driver
import Zun.Data.Ledger
import Zun.Data.Mounts
import Zun.Effect.Prog
import Zun.Effect.Run
import Zun.Effect.Triple
import Zun.Network.Neutron
import Zun.Objects.Container
import Zun.Volume.Cinder
import Zun.Volume.Grants
import Zun.Volume.Manila
import Zun.Volume.Nfs
import Zun.Websocket.Channel
import Zun.Websocket.CriExec
import Zun.Websocket.DockerExec
import Zun.Websocket.Relay
import Zun.Websocket.Token
import Zun.Container.DockerPorts
import Zun.Container.DockerPortsAttach
import Zun.Container.DockerPortsBuild
import Zun.Container.DockerPortsCreate
import Zun.Container.DockerPortsDelete
import Zun.Container.DockerPortsDrop
import Zun.Container.DockerPortsLife
import Zun.Container.DockerPortsRebuild
import Zun.Effect.Unless
import Zun.Compute.PortSweep
import Zun.Data.Table
import Zun.Db.Api
import Zun.Compute.MountSweep
import Zun.Compute.AllocationSweep
import Zun.Db.Names
import Zun.Api.Quotas
import Zun.Compute.Placement
import Zun.Api.Refusals
import Zun.Api.RefusedContainer
import Zun.Api.RefusedCapsule
import Zun.Container.Cri.LogFiles
import Zun.Compute.ProviderTree
import Zun.Container.Cri.OrphanSweep
import Zun.Compute.Show
import Zun.Compute.Commit
import Zun.Pci.Tree
import Zun.Container.Cri.StartOrder.Capsule
import Zun.Container.Cri.Sidecars.Outlive
import Zun.Container.Interleaving
import Zun.Container.ReadExec
import Zun.Websocket.Backpressure
import Zun.Cni.Result
import Zun.Cni.Poll
import Zun.Volume.Retry
import Zun.Image.Reclaim
import Zun.Image.Glance
import Zun.Compute.Metered
import Zun.Container.Cri.ShowLogs
import Zun.Scheduler.Weights
import Zun.Pci.Save
import Zun.Compute.Populate
import Zun.Container.Cri.ProbeRuns
import Zun.Container.Cri.Probes
import Zun.Pci.Stats
import Zun.Data.Paging
import Zun.Api.Pages
import Zun.Container.Cri.RollUp
import Zun.Compute.InitContainers
import Zun.Api.CapsuleNeed
import Zun.Container.Cri.Ceiling
import Zun.Network.SecurityGroups
import Zun.Api.CapsuleMembers
import Zun.Container.Cri.Changes
import Zun.Container.Cri.Committer
import Zun.Compute.UpdateFile
import Zun.Common.ImageName
import Zun.Container.Cri.Rebuilds
import Zun.Container.Cri.HostsFile
import Zun.Api.Versions
import Zun.Volume.Exposure
import Zun.Container.DockerStates
import Zun.Db.Connection
import Zun.Network.StaleRows
import Zun.Network.PortGroups
import Zun.Network.GroupChanges
import Zun.Container.DockerDelete
import Zun.Container.DockerHeal
import Zun.Image.StoredName
import Zun.Container.VolumeMounts
import Zun.Network.Joined
import Zun.Db.Actions
import Zun.Compute.Actions
