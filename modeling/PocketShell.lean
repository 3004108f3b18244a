import PocketShell.Composer.Guarantee
import PocketShell.Connection.Background
import PocketShell.Connection.Generations
import PocketShell.Connection.LinkTrust
import PocketShell.Connection.TerminalInput
import PocketShell.Connection.Trust
import PocketShell.ConnectionStore.Guarantee
import PocketShell.Diagnostics.Guarantee
import PocketShell.Dictation.Transcript
import PocketShell.Files.Rows
import PocketShell.HostCommands.Guarantee
import PocketShell.Link.DialGuarantee
import PocketShell.Link.Queue
import PocketShell.PortForward.Guarantee
import PocketShell.PortForward.ScanGuarantee
import PocketShell.Preview.Paths
import PocketShell.Reconnect.Schedule
import PocketShell.SavedHosts.ImportAgain
import PocketShell.SessionTabs.BarOrder
import PocketShell.SessionTabs.LaunchGuarantee
import PocketShell.SessionTabs.MemoryGuarantee
import PocketShell.SessionTabs.RenameGuarantee
import PocketShell.SessionTabs.StopGuarantee
import PocketShell.SessionTree.Guarantee
import PocketShell.SessionTree.HostPath
import PocketShell.SessionTree.PanelGuarantee
import PocketShell.Sessions.Guarantee
import PocketShell.Shortcuts.Guarantee
import PocketShell.SshConfig.Folding
import PocketShell.Sync.FixedPoint
import PocketShell.Sync.StoreGuarantee
import PocketShell.TerminalPane.Published
import PocketShell.Workspaces.Restore
import PocketShell.HostStores.Isolation
import PocketShell.KeyVault.StoreGuarantee
import PocketShell.KeyVault.VerifierGuarantee
import PocketShell.SshKeys.Canonical
import PocketShell.SshKeys.Idempotent
import PocketShell.Files.RemotePaths
import PocketShell.Doodle.Wrap
import PocketShell.Link.Digest
import PocketShell.SshKeys.Rejects
import PocketShell.Workspaces.OrderSurvives
import PocketShell.SessionTree.DraggedOrder
import PocketShell.Files.Trail
import PocketShell.Composer.Encoding
import PocketShell.Gateway.HostPin
import PocketShell.Gateway.PinGrammar
import PocketShell.Composer.Filename
import PocketShell.Files.Crumbs
import PocketShell.Workspaces.CanonicalKeys
import PocketShell.Composer.Geometry
