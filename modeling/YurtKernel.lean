import YurtKernel.Vfs.OverlayContent
import YurtKernel.Kernel.Liveness
import YurtKernel.Dispatch.Isolation
import YurtKernel.Dispatch.Signals
import YurtKernel.Dispatch.Exit
import YurtKernel.Dispatch.ThreadOwners
import YurtKernel.Kernel.Spelling
import YurtKernel.Dispatch.Cursor
import YurtKernel.Dispatch.SocketAliases
import YurtKernel.Dispatch.Privileges
import YurtKernel.Dispatch.Readiness
import YurtKernel.Dispatch.Locks
import YurtKernel.Runtime.Drain
import YurtKernel.Dispatch.NameRuns
import YurtKernel.Network.Credentials
import YurtKernel.Network.HostNames
import YurtKernel.Libc.Fnmatch
import YurtKernel.Libc.Locale
import YurtKernel.Libc.Select
import YurtKernel.Libc.Sendfile
import YurtKernel.Libc.ThreadData
import YurtKernel.Runtime.FileWrites
import YurtKernel.Archive.StateBlob
import YurtKernel.Archive.Tar
