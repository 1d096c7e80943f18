import SandboxBridge.Proofs.Allocator.Live
import SandboxBridge.Proofs.Closure.Rejection
import SandboxBridge.Proofs.Closure.Withdrawal
import SandboxBridge.Proofs.Exceptions.Guard
import SandboxBridge.Proofs.Facilities.Dispatch
import SandboxBridge.Proofs.Facilities.Items
import SandboxBridge.Proofs.Imports.Building
import SandboxBridge.Proofs.Imports.Ledger
import SandboxBridge.Proofs.Memory.Pairs
import SandboxBridge.Proofs.Memory.Ranges
import SandboxBridge.Proofs.Properties.Writing
import SandboxBridge.Proofs.Rendering.Arrays
import SandboxBridge.Proofs.Settings
import SandboxBridge.Proofs.Transfer.Confinement
import SandboxBridge.Proofs.Transfer.Results
import SandboxBridge.Scenario.Basics
import SandboxBridge.Scenario.Imports
import SandboxBridge.Scenario.Linear
import SandboxBridge.Scenario.Session
import SandboxBridge.Scenario.Table
