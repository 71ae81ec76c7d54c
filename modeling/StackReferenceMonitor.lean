import StackReferenceMonitor.Foundations.Kretprobe
import StackReferenceMonitor.Foundations.KretprobePool
import StackReferenceMonitor.Foundations.Printf
import StackReferenceMonitor.Foundations.Stores
import StackReferenceMonitor.Foundations.Buffer
import StackReferenceMonitor.Foundations.Locks
import StackReferenceMonitor.Blacklist.Refinement
import StackReferenceMonitor.Blacklist.Size
import StackReferenceMonitor.Blacklist.Integrity
import StackReferenceMonitor.Blacklist.UserStrings
import StackReferenceMonitor.Blacklist.Lookup
import StackReferenceMonitor.Blacklist.LockFreeLookup
import StackReferenceMonitor.Monitor.Defs
import StackReferenceMonitor.Monitor.HexText
import StackReferenceMonitor.Probes.Denials
import StackReferenceMonitor.Probes.Dentry
import StackReferenceMonitor.Probes.Handlers
import StackReferenceMonitor.Probes.Coverage
import StackReferenceMonitor.Probes.Mounts
import StackReferenceMonitor.Probes.Instances
import StackReferenceMonitor.Probes.Messages
import StackReferenceMonitor.Verdict.Reachable
import StackReferenceMonitor.Verdict.Components
import StackReferenceMonitor.Verdict.Leftover
import StackReferenceMonitor.Vfs.Defs
import StackReferenceMonitor.Vfs.Denial
import StackReferenceMonitor.Vfs.Tree
import StackReferenceMonitor.Vfs.Effects
import StackReferenceMonitor.Vfs.Protection
import StackReferenceMonitor.Vfs.Readers
import StackReferenceMonitor.Vfs.System
import StackReferenceMonitor.Syscalls.Defs
import StackReferenceMonitor.Syscalls.Steps
import StackReferenceMonitor.Syscalls.Authorisation
import StackReferenceMonitor.Syscalls.Reconfiguration
import StackReferenceMonitor.Syscalls.ProbeAgreement
import StackReferenceMonitor.Syscalls.Sequential
import StackReferenceMonitor.Syscalls.Failure
import StackReferenceMonitor.Syscalls.PasswordOracle
import StackReferenceMonitor.Syscalls.PasswordCheck
import StackReferenceMonitor.Syscalls.Registration
import StackReferenceMonitor.Syscalls.Loading
import StackReferenceMonitor.Syscalls.LoadingRefinement
import StackReferenceMonitor.Syscalls.Returns
import StackReferenceMonitor.Syscalls.PrintBlacklist
import StackReferenceMonitor.Syscalls.Linearization
import StackReferenceMonitor.Syscalls.Policy
import StackReferenceMonitor.SyscallTable.Defs
import StackReferenceMonitor.SyscallTable.Restore
import StackReferenceMonitor.SyscallTable.Discoverer
import StackReferenceMonitor.SyscallTable.Vtpmo
import StackReferenceMonitor.SyscallTable.Scan
import StackReferenceMonitor.LogFs.Defs
import StackReferenceMonitor.LogFs.Append
import StackReferenceMonitor.LogFs.Mount
import StackReferenceMonitor.LogFs.Remount
import StackReferenceMonitor.LogFs.Read
import StackReferenceMonitor.LogFs.Rows
import StackReferenceMonitor.LogFs.Reader
import StackReferenceMonitor.LogFs.BlockNumbers
import StackReferenceMonitor.LogFs.Payload
import StackReferenceMonitor.Log.Defs
import StackReferenceMonitor.Log.Rows
import StackReferenceMonitor.Log.Feedback
import StackReferenceMonitor.Log.Fingerprint
import StackReferenceMonitor.Log.Trail
import StackReferenceMonitor.Locks.Sections
import StackReferenceMonitor.Locks.Discipline
import StackReferenceMonitor.Locks.Waiting
import StackReferenceMonitor.Client.Getpasswd
import StackReferenceMonitor.Client.Home
import StackReferenceMonitor.Client.Session
import StackReferenceMonitor.Client.Modules
import StackReferenceMonitor.Memory.Defs
import StackReferenceMonitor.Memory.Ledger
import StackReferenceMonitor.Memory.Runs
