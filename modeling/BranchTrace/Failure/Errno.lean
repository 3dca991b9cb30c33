import BranchTrace.Failure.Kind

/-!
# Error numbers

The error numbers of the operating system with their names, classes and texts. Every other
number, zero apart, is unnamed: it has the class of the unclassified and the text
`Unknown error` with the number. Zero is no error, and its text says so.
-/

namespace BranchTrace

/-- What is known about one error number. -/
structure ErrnoEntry where
  number : Int32
  name : String
  kind : FailureKind
  text : String

namespace Errno

/-- The named error numbers, ascending. -/
def table : List ErrnoEntry :=
  [
    ⟨1, "EPERM", .permissionDenied, "Operation not permitted"⟩,
    ⟨2, "ENOENT", .notFound, "No such file or directory"⟩,
    ⟨3, "ESRCH", .uncategorized, "No such process"⟩,
    ⟨4, "EINTR", .interrupted, "Interrupted system call"⟩,
    ⟨5, "EIO", .inputOutputError, "Input/output error"⟩,
    ⟨6, "ENXIO", .uncategorized, "No such device or address"⟩,
    ⟨7, "E2BIG", .argumentListTooLong, "Argument list too long"⟩,
    ⟨8, "ENOEXEC", .uncategorized, "Exec format error"⟩,
    ⟨9, "EBADF", .uncategorized, "Bad file descriptor"⟩,
    ⟨10, "ECHILD", .uncategorized, "No child processes"⟩,
    ⟨11, "EAGAIN", .wouldBlock, "Resource temporarily unavailable"⟩,
    ⟨12, "ENOMEM", .outOfMemory, "Cannot allocate memory"⟩,
    ⟨13, "EACCES", .permissionDenied, "Permission denied"⟩,
    ⟨14, "EFAULT", .uncategorized, "Bad address"⟩,
    ⟨15, "ENOTBLK", .uncategorized, "Block device required"⟩,
    ⟨16, "EBUSY", .resourceBusy, "Device or resource busy"⟩,
    ⟨17, "EEXIST", .alreadyExists, "File exists"⟩,
    ⟨18, "EXDEV", .crossesDevices, "Invalid cross-device link"⟩,
    ⟨19, "ENODEV", .uncategorized, "No such device"⟩,
    ⟨20, "ENOTDIR", .notADirectory, "Not a directory"⟩,
    ⟨21, "EISDIR", .isADirectory, "Is a directory"⟩,
    ⟨22, "EINVAL", .invalidInput, "Invalid argument"⟩,
    ⟨23, "ENFILE", .tooManyOpenFiles, "Too many open files in system"⟩,
    ⟨24, "EMFILE", .tooManyOpenFiles, "Too many open files"⟩,
    ⟨25, "ENOTTY", .uncategorized, "Inappropriate ioctl for device"⟩,
    ⟨26, "ETXTBSY", .executableFileBusy, "Text file busy"⟩,
    ⟨27, "EFBIG", .fileTooLarge, "File too large"⟩,
    ⟨28, "ENOSPC", .storageFull, "No space left on device"⟩,
    ⟨29, "ESPIPE", .notSeekable, "Illegal seek"⟩,
    ⟨30, "EROFS", .readOnlyFilesystem, "Read-only file system"⟩,
    ⟨31, "EMLINK", .tooManyLinks, "Too many links"⟩,
    ⟨32, "EPIPE", .brokenPipe, "Broken pipe"⟩,
    ⟨33, "EDOM", .uncategorized, "Numerical argument out of domain"⟩,
    ⟨34, "ERANGE", .uncategorized, "Numerical result out of range"⟩,
    ⟨35, "EDEADLK", .deadlock, "Resource deadlock avoided"⟩,
    ⟨36, "ENAMETOOLONG", .invalidFilename, "File name too long"⟩,
    ⟨37, "ENOLCK", .uncategorized, "No locks available"⟩,
    ⟨38, "ENOSYS", .unsupported, "Function not implemented"⟩,
    ⟨39, "ENOTEMPTY", .directoryNotEmpty, "Directory not empty"⟩,
    ⟨40, "ELOOP", .filesystemLoop, "Too many levels of symbolic links"⟩,
    ⟨42, "ENOMSG", .uncategorized, "No message of desired type"⟩,
    ⟨43, "EIDRM", .uncategorized, "Identifier removed"⟩,
    ⟨44, "ECHRNG", .uncategorized, "Channel number out of range"⟩,
    ⟨45, "EL2NSYNC", .uncategorized, "Level 2 not synchronized"⟩,
    ⟨46, "EL3HLT", .uncategorized, "Level 3 halted"⟩,
    ⟨47, "EL3RST", .uncategorized, "Level 3 reset"⟩,
    ⟨48, "ELNRNG", .uncategorized, "Link number out of range"⟩,
    ⟨49, "EUNATCH", .uncategorized, "Protocol driver not attached"⟩,
    ⟨50, "ENOCSI", .uncategorized, "No CSI structure available"⟩,
    ⟨51, "EL2HLT", .uncategorized, "Level 2 halted"⟩,
    ⟨52, "EBADE", .uncategorized, "Invalid exchange"⟩,
    ⟨53, "EBADR", .uncategorized, "Invalid request descriptor"⟩,
    ⟨54, "EXFULL", .uncategorized, "Exchange full"⟩,
    ⟨55, "ENOANO", .uncategorized, "No anode"⟩,
    ⟨56, "EBADRQC", .uncategorized, "Invalid request code"⟩,
    ⟨57, "EBADSLT", .uncategorized, "Invalid slot"⟩,
    ⟨59, "EBFONT", .uncategorized, "Bad font file format"⟩,
    ⟨60, "ENOSTR", .uncategorized, "Device not a stream"⟩,
    ⟨61, "ENODATA", .uncategorized, "No data available"⟩,
    ⟨62, "ETIME", .uncategorized, "Timer expired"⟩,
    ⟨63, "ENOSR", .uncategorized, "Out of streams resources"⟩,
    ⟨64, "ENONET", .uncategorized, "Machine is not on the network"⟩,
    ⟨65, "ENOPKG", .uncategorized, "Package not installed"⟩,
    ⟨66, "EREMOTE", .uncategorized, "Object is remote"⟩,
    ⟨67, "ENOLINK", .uncategorized, "Link has been severed"⟩,
    ⟨68, "EADV", .uncategorized, "Advertise error"⟩,
    ⟨69, "ESRMNT", .uncategorized, "Srmount error"⟩,
    ⟨70, "ECOMM", .uncategorized, "Communication error on send"⟩,
    ⟨71, "EPROTO", .uncategorized, "Protocol error"⟩,
    ⟨72, "EMULTIHOP", .uncategorized, "Multihop attempted"⟩,
    ⟨73, "EDOTDOT", .uncategorized, "RFS specific error"⟩,
    ⟨74, "EBADMSG", .uncategorized, "Bad message"⟩,
    ⟨75, "EOVERFLOW", .uncategorized, "Value too large for defined data type"⟩,
    ⟨76, "ENOTUNIQ", .uncategorized, "Name not unique on network"⟩,
    ⟨77, "EBADFD", .uncategorized, "File descriptor in bad state"⟩,
    ⟨78, "EREMCHG", .uncategorized, "Remote address changed"⟩,
    ⟨79, "ELIBACC", .uncategorized, "Can not access a needed shared library"⟩,
    ⟨80, "ELIBBAD", .uncategorized, "Accessing a corrupted shared library"⟩,
    ⟨81, "ELIBSCN", .uncategorized, ".lib section in a.out corrupted"⟩,
    ⟨82, "ELIBMAX", .uncategorized, "Attempting to link in too many shared libraries"⟩,
    ⟨83, "ELIBEXEC", .uncategorized, "Cannot exec a shared library directly"⟩,
    ⟨84, "EILSEQ", .uncategorized, "Invalid or incomplete multibyte or wide character"⟩,
    ⟨85, "ERESTART", .uncategorized, "Interrupted system call should be restarted"⟩,
    ⟨86, "ESTRPIPE", .uncategorized, "Streams pipe error"⟩,
    ⟨87, "EUSERS", .uncategorized, "Too many users"⟩,
    ⟨88, "ENOTSOCK", .uncategorized, "Socket operation on non-socket"⟩,
    ⟨89, "EDESTADDRREQ", .uncategorized, "Destination address required"⟩,
    ⟨90, "EMSGSIZE", .uncategorized, "Message too long"⟩,
    ⟨91, "EPROTOTYPE", .uncategorized, "Protocol wrong type for socket"⟩,
    ⟨92, "ENOPROTOOPT", .uncategorized, "Protocol not available"⟩,
    ⟨93, "EPROTONOSUPPORT", .uncategorized, "Protocol not supported"⟩,
    ⟨94, "ESOCKTNOSUPPORT", .uncategorized, "Socket type not supported"⟩,
    ⟨95, "EOPNOTSUPP", .unsupported, "Operation not supported"⟩,
    ⟨96, "EPFNOSUPPORT", .uncategorized, "Protocol family not supported"⟩,
    ⟨97, "EAFNOSUPPORT", .uncategorized, "Address family not supported by protocol"⟩,
    ⟨98, "EADDRINUSE", .addrInUse, "Address already in use"⟩,
    ⟨99, "EADDRNOTAVAIL", .addrNotAvailable, "Cannot assign requested address"⟩,
    ⟨100, "ENETDOWN", .networkDown, "Network is down"⟩,
    ⟨101, "ENETUNREACH", .networkUnreachable, "Network is unreachable"⟩,
    ⟨102, "ENETRESET", .uncategorized, "Network dropped connection on reset"⟩,
    ⟨103, "ECONNABORTED", .connectionAborted, "Software caused connection abort"⟩,
    ⟨104, "ECONNRESET", .connectionReset, "Connection reset by peer"⟩,
    ⟨105, "ENOBUFS", .uncategorized, "No buffer space available"⟩,
    ⟨106, "EISCONN", .uncategorized, "Transport endpoint is already connected"⟩,
    ⟨107, "ENOTCONN", .notConnected, "Transport endpoint is not connected"⟩,
    ⟨108, "ESHUTDOWN", .uncategorized, "Cannot send after transport endpoint shutdown"⟩,
    ⟨109, "ETOOMANYREFS", .uncategorized, "Too many references: cannot splice"⟩,
    ⟨110, "ETIMEDOUT", .timedOut, "Connection timed out"⟩,
    ⟨111, "ECONNREFUSED", .connectionRefused, "Connection refused"⟩,
    ⟨112, "EHOSTDOWN", .uncategorized, "Host is down"⟩,
    ⟨113, "EHOSTUNREACH", .hostUnreachable, "No route to host"⟩,
    ⟨114, "EALREADY", .uncategorized, "Operation already in progress"⟩,
    ⟨115, "EINPROGRESS", .inProgress, "Operation now in progress"⟩,
    ⟨116, "ESTALE", .staleNetworkFileHandle, "Stale file handle"⟩,
    ⟨117, "EUCLEAN", .uncategorized, "Structure needs cleaning"⟩,
    ⟨118, "ENOTNAM", .uncategorized, "Not a XENIX named type file"⟩,
    ⟨119, "ENAVAIL", .uncategorized, "No XENIX semaphores available"⟩,
    ⟨120, "EISNAM", .uncategorized, "Is a named type file"⟩,
    ⟨121, "EREMOTEIO", .uncategorized, "Remote I/O error"⟩,
    ⟨122, "EDQUOT", .quotaExceeded, "Disk quota exceeded"⟩,
    ⟨123, "ENOMEDIUM", .uncategorized, "No medium found"⟩,
    ⟨124, "EMEDIUMTYPE", .uncategorized, "Wrong medium type"⟩,
    ⟨125, "ECANCELED", .uncategorized, "Operation canceled"⟩,
    ⟨126, "ENOKEY", .uncategorized, "Required key not available"⟩,
    ⟨127, "EKEYEXPIRED", .uncategorized, "Key has expired"⟩,
    ⟨128, "EKEYREVOKED", .uncategorized, "Key has been revoked"⟩,
    ⟨129, "EKEYREJECTED", .uncategorized, "Key was rejected by service"⟩,
    ⟨130, "EOWNERDEAD", .uncategorized, "Owner died"⟩,
    ⟨131, "ENOTRECOVERABLE", .uncategorized, "State not recoverable"⟩,
    ⟨132, "ERFKILL", .uncategorized, "Operation not possible due to RF-kill"⟩,
    ⟨133, "EHWPOISON", .uncategorized, "Memory page has hardware error"⟩]

/-- The entry of an error number, if it is named. -/
def find? (errno : Int32) : Option ErrnoEntry :=
  table.find? fun entry => entry.number == errno

/-- The name of an error number. -/
def name (errno : Int32) : String :=
  match find? errno with
  | some entry => entry.name
  | none => "UnknownErrno"

/-- The class of failures an error number belongs to. -/
def kind (errno : Int32) : FailureKind :=
  match find? errno with
  | some entry => entry.kind
  | none => .uncategorized

/-- The text of an error number. -/
def text (errno : Int32) : String :=
  match find? errno with
  | some entry => entry.text
  | none => if errno = 0 then "Success" else "Unknown error " ++ toString errno.toInt

/-- A number without a name counts as no error. -/
def known (errno : Int32) : Int32 :=
  if (find? errno).isSome then errno else 0

/-- There is no such file or directory. -/
def enoent : Int32 := 2

/-- Input or output failed. -/
def eio : Int32 := 5

/-- There is no such device or address. -/
def enxio : Int32 := 6

/-- Memory ran out. -/
def enomem : Int32 := 12

/-- An address or buffer is bad. -/
def efault : Int32 := 14

/-- A device or resource is busy. -/
def ebusy : Int32 := 16

/-- The name exists already. -/
def eexist : Int32 := 17

/-- There is no such device. -/
def enodev : Int32 := 19

/-- A component of a path is no directory. -/
def enotdir : Int32 := 20

/-- A directory stands where a file is needed. -/
def eisdir : Int32 := 21

/-- An argument is invalid. -/
def einval : Int32 := 22

/-- No space is left on the device. -/
def enospc : Int32 := 28

/-- A component of a path is too long. -/
def enametoolong : Int32 := 36

/-- A path goes through too many symbolic links. -/
def eloop : Int32 := 40

/-- A handle is stale. -/
def estale : Int32 := 116

end Errno

end BranchTrace
