import DaemonLink.Bytes

/-!
# Errors of the operating system

The conditions a system call of this library can end with, and the text the
system has for each. The texts appear inside the messages of failures, so they
are part of what a user of the library sees; nothing is ever read back from
them.
-/

namespace DaemonLink

/-- Why a system call failed. -/
inductive SystemError
  | noSuchEntry
  | notADirectory
  | isADirectory
  | alreadyExists
  | notEmpty
  | nameTooLong
  | tooManyLinks
  | noDevice
  | invalidArgument
  | tooManyFiles
  | badDescriptor
  | notASocket
  | notConnected
  | wouldBlock
  | brokenPipe
  | connectionReset
  | connectionRefused
  | wrongSocketType
  | notSupported
  deriving DecidableEq, Repr

namespace SystemError

/-- The system's wording. -/
def message : SystemError → Bytes
  | noSuchEntry => text "No such file or directory"
  | notADirectory => text "Not a directory"
  | isADirectory => text "Is a directory"
  | alreadyExists => text "File exists"
  | notEmpty => text "Directory not empty"
  | nameTooLong => text "File name too long"
  | tooManyLinks => text "Too many levels of symbolic links"
  | noDevice => text "No such device or address"
  | invalidArgument => text "Invalid argument"
  | tooManyFiles => text "Too many open files"
  | badDescriptor => text "Bad file descriptor"
  | notASocket => text "Socket operation on non-socket"
  | notConnected => text "Transport endpoint is not connected"
  | wouldBlock => text "Resource temporarily unavailable"
  | brokenPipe => text "Broken pipe"
  | connectionReset => text "Connection reset by peer"
  | connectionRefused => text "Connection refused"
  | wrongSocketType => text "Protocol wrong type for socket"
  | notSupported => text "Operation not supported"

end SystemError

end DaemonLink
