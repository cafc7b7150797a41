/-!
# Errors of input and output

What can go wrong when a file is opened, read or written, and the text under which each failure is
reported.  Failures that the operating system reports carry their error number; the table below
holds the standard description of each number.
-/

namespace CpioArchive

/-- A failed call to open, query, read or write a file. -/
inductive IoError where
  /-- The operating system refused the call with an error number. -/
  | system (number : Nat)
  /-- A failure known by its description only. -/
  | described (text : String)
  /-- A signal interrupted the call before anything was transferred; trying again is right. -/
  | interrupted
  /-- A destination took no byte of a buffer that still held some. -/
  | nothingAccepted
  /-- A path holds a NUL byte, so no file can have it. -/
  | nulInPath
  deriving DecidableEq

namespace IoError

/-! ## The error numbers this library gives a meaning to -/

/-- Nothing has that name. -/
def noSuchFile : IoError := .system 2

/-- The call was interrupted by a signal. -/
def interruptedCall : IoError := .system 4

/-- The device failed to read or write. -/
def deviceFailure : IoError := .system 5

/-- There is nothing behind a socket or device that could be opened. -/
def noSuchDevice : IoError := .system 6

/-- The file is not open. -/
def notOpen : IoError := .system 9

/-- There is not enough memory for the call. -/
def outOfMemory : IoError := .system 12

/-- The file may not be used that way. -/
def permissionDenied : IoError := .system 13

/-- The name is taken. -/
def alreadyExists : IoError := .system 17

/-- A path goes through something other than a directory. -/
def notADirectory : IoError := .system 20

/-- A directory cannot be read or written as a file. -/
def isADirectory : IoError := .system 21

/-- The device is full. -/
def deviceFull : IoError := .system 28

/-- A path or one of its components is too long. -/
def nameTooLong : IoError := .system 36

/-- A path goes through too many symbolic links. -/
def tooManySymlinks : IoError := .system 40

/-! ## Texts -/

/-- The standard descriptions of the error numbers, from number 0 on; an empty text marks a number
without one. -/
def descriptions : Array String := #[
  "Success", "Operation not permitted", "No such file or directory", "No such process",
  "Interrupted system call", "Input/output error", "No such device or address",
  "Argument list too long", "Exec format error", "Bad file descriptor", "No child processes",
  "Resource temporarily unavailable", "Cannot allocate memory", "Permission denied", "Bad address",
  "Block device required", "Device or resource busy", "File exists", "Invalid cross-device link",
  "No such device", "Not a directory", "Is a directory", "Invalid argument",
  "Too many open files in system", "Too many open files", "Inappropriate ioctl for device",
  "Text file busy", "File too large", "No space left on device", "Illegal seek",
  "Read-only file system", "Too many links", "Broken pipe", "Numerical argument out of domain",
  "Numerical result out of range", "Resource deadlock avoided", "File name too long",
  "No locks available", "Function not implemented", "Directory not empty",
  "Too many levels of symbolic links", "", "No message of desired type", "Identifier removed",
  "Channel number out of range", "Level 2 not synchronized", "Level 3 halted", "Level 3 reset",
  "Link number out of range", "Protocol driver not attached", "No CSI structure available",
  "Level 2 halted", "Invalid exchange", "Invalid request descriptor", "Exchange full", "No anode",
  "Invalid request code", "Invalid slot", "", "Bad font file format", "Device not a stream",
  "No data available", "Timer expired", "Out of streams resources",
  "Machine is not on the network", "Package not installed", "Object is remote",
  "Link has been severed", "Advertise error", "Srmount error", "Communication error on send",
  "Protocol error", "Multihop attempted", "RFS specific error", "Bad message",
  "Value too large for defined data type", "Name not unique on network",
  "File descriptor in bad state", "Remote address changed",
  "Can not access a needed shared library", "Accessing a corrupted shared library",
  ".lib section in a.out corrupted", "Attempting to link in too many shared libraries",
  "Cannot exec a shared library directly", "Invalid or incomplete multibyte or wide character",
  "Interrupted system call should be restarted", "Streams pipe error", "Too many users",
  "Socket operation on non-socket", "Destination address required", "Message too long",
  "Protocol wrong type for socket", "Protocol not available", "Protocol not supported",
  "Socket type not supported", "Operation not supported", "Protocol family not supported",
  "Address family not supported by protocol", "Address already in use",
  "Cannot assign requested address", "Network is down", "Network is unreachable",
  "Network dropped connection on reset", "Software caused connection abort",
  "Connection reset by peer", "No buffer space available",
  "Transport endpoint is already connected", "Transport endpoint is not connected",
  "Cannot send after transport endpoint shutdown", "Too many references: cannot splice",
  "Connection timed out", "Connection refused", "Host is down", "No route to host",
  "Operation already in progress", "Operation now in progress", "Stale file handle",
  "Structure needs cleaning", "Not a XENIX named type file", "No XENIX semaphores available",
  "Is a named type file", "Remote I/O error", "Disk quota exceeded", "No medium found",
  "Wrong medium type", "Operation canceled", "Required key not available", "Key has expired",
  "Key has been revoked", "Key was rejected by service", "Owner died", "State not recoverable",
  "Operation not possible due to RF-kill", "Memory page has hardware error"]

/-- The description of an error number. -/
def describe (number : Nat) : String :=
  match descriptions[number]? with
  | some "" | none => "Unknown error " ++ toString number
  | some text => text

/-- The text of an error. -/
def message : IoError → String
  | .system number => describe number ++ " (os error " ++ toString number ++ ")"
  | .described text => text
  | .interrupted => "operation interrupted"
  | .nothingAccepted => "failed to write whole buffer"
  | .nulInPath => "file name contained an unexpected NUL byte"

/-- Whether the call was merely interrupted, so that trying again is right. -/
def isInterruption (e : IoError) : Bool := e == .interrupted || e == interruptedCall

end IoError

end CpioArchive
