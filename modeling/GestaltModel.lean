import GestaltModel.Agents.Theorems.ListedTools
import GestaltModel.Agents.Theorems.TurnScope
import GestaltModel.AppRegistry.Theorems.Attribution
import GestaltModel.AppRegistry.Theorems.CompletionGate
import GestaltModel.AppRegistry.Theorems.LocalRestart
import GestaltModel.AppRegistry.Theorems.OperationHistory
import GestaltModel.AppRegistry.Theorems.Pending
import GestaltModel.AppRegistry.Theorems.PruneSafety
import GestaltModel.AppRegistry.Theorems.PublishPaths
import GestaltModel.AppRegistry.Theorems.PublishedLoad
import GestaltModel.AppRegistry.Theorems.RecoveryObserver
import GestaltModel.AppRegistry.Theorems.Retention
import GestaltModel.Coredata.Theorems.AppAllowedOperations
import GestaltModel.Coredata.Theorems.AutoDeploySettings
import GestaltModel.Coredata.Theorems.DeployPause
import GestaltModel.Coredata.Theorems.Epoch
import GestaltModel.Coredata.Theorems.Heartbeat
import GestaltModel.Coredata.Theorems.InstallLock
import GestaltModel.Coredata.Theorems.ManagedSubjects
import GestaltModel.Coredata.Theorems.RemoteLease
import GestaltModel.Coredata.Theorems.RemoteOwnership
import GestaltModel.Coredata.Theorems.RemoteRejection
import GestaltModel.Coredata.Theorems.RevisionHistory
import GestaltModel.Credentials.Theorems.Selection
import GestaltModel.Credentials.Theorems.Store
import GestaltModel.HostedAgents.Theorems.Capacity
import GestaltModel.HostedAgents.Theorems.Creates
import GestaltModel.HostedAgents.Theorems.Keys
import GestaltModel.Identity.Theorems.Transport
import GestaltModel.Invocation.Theorems.Eligibility
import GestaltModel.Invocation.Theorems.LegacyAccess
import GestaltModel.Mcp.Theorems.Search
import GestaltModel.Migrations.Theorems.Resume
import GestaltModel.ProviderGateway.Theorems.RelationshipWrites
import GestaltModel.Server.Theorems.ManagedSecrets
import GestaltModel.ToolSchema.Theorems.Names
