/-!
# Faults of files, sockets and streams

* `IoFault` : what the surroundings of the program may refuse, with its wording.
-/

namespace PeerMesh

/-- A refusal by a file, a socket or a stream. -/
inductive IoFault where
  | notFound
  | notDirectory
  | isDirectory
  | nameTooLong
  | noDevice
  | invalidArgument
  /-- No name may hold the character that is zero. -/
  | nulInName
  | addressInUse
  | addressUnavailable
  | networkUnreachable
  | connectionRefused
  | hostUnknown
  /-- Nobody answered the question for a host. -/
  | lookupFailed
  /-- The text is no address: it names no port. -/
  | noPort
  | badPort
  | frameTooBig
  /-- The stream ended inside a frame. -/
  | cutFrame
  /-- Any other refusal, in its own words. -/
  | other (text : String)
  deriving DecidableEq, Repr, Inhabited

def IoFault.message : IoFault → String
  | notFound => "No such file or directory (os error 2)"
  | notDirectory => "Not a directory (os error 20)"
  | noDevice => "No such device (os error 19)"
  | invalidArgument => "Invalid argument (os error 22)"
  | isDirectory => "Is a directory (os error 21)"
  | nameTooLong => "File name too long (os error 36)"
  | nulInName => "file name contained an unexpected NUL byte"
  | addressInUse => "Address already in use (os error 98)"
  | addressUnavailable => "Cannot assign requested address (os error 99)"
  | networkUnreachable => "Network is unreachable (os error 101)"
  | connectionRefused => "Connection refused (os error 111)"
  | hostUnknown => "failed to lookup address information: Name or service not known"
  | lookupFailed => "failed to lookup address information: Temporary failure in name resolution"
  | noPort => "invalid socket address"
  | badPort => "invalid port value"
  | frameTooBig => "frame size too big"
  | cutFrame => "bytes remaining on stream"
  | other text => text

end PeerMesh
