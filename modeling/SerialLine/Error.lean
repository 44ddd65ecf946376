import SerialLine.Port
import SerialLine.Refusal
/-!
What can go wrong: the errors of devices and files, and the errors of serial ports with their
kinds, status codes and wording.
-/

set_option autoImplicit false

namespace SerialLine

/-- The kinds of errors that the system reports. -/
inductive IoKind
  | notFound | permissionDenied | connectionRefused | connectionReset | hostUnreachable
  | networkUnreachable | connectionAborted | notConnected | addrInUse | addrNotAvailable
  | networkDown | brokenPipe | alreadyExists | wouldBlock | notADirectory | isADirectory
  | directoryNotEmpty | readOnlyFilesystem | staleNetworkFileHandle | invalidInput | invalidData
  | timedOut | writeZero | storageFull | notSeekable | quotaExceeded | fileTooLarge | resourceBusy
  | executableFileBusy | deadlock | crossesDevices | tooManyLinks | invalidFilename
  | argumentListTooLong | interrupted | unsupported | unexpectedEof | outOfMemory | inProgress
  | other
  deriving DecidableEq

namespace IoKind

/-- The kinds with their names. -/
def names : List (String × IoKind) :=
  [("NotFound", .notFound), ("PermissionDenied", .permissionDenied),
    ("ConnectionRefused", .connectionRefused), ("ConnectionReset", .connectionReset),
    ("HostUnreachable", .hostUnreachable), ("NetworkUnreachable", .networkUnreachable),
    ("ConnectionAborted", .connectionAborted), ("NotConnected", .notConnected),
    ("AddrInUse", .addrInUse), ("AddrNotAvailable", .addrNotAvailable),
    ("NetworkDown", .networkDown), ("BrokenPipe", .brokenPipe),
    ("AlreadyExists", .alreadyExists), ("WouldBlock", .wouldBlock),
    ("NotADirectory", .notADirectory), ("IsADirectory", .isADirectory),
    ("DirectoryNotEmpty", .directoryNotEmpty), ("ReadOnlyFilesystem", .readOnlyFilesystem),
    ("StaleNetworkFileHandle", .staleNetworkFileHandle), ("InvalidInput", .invalidInput),
    ("InvalidData", .invalidData), ("TimedOut", .timedOut), ("WriteZero", .writeZero),
    ("StorageFull", .storageFull), ("NotSeekable", .notSeekable),
    ("QuotaExceeded", .quotaExceeded), ("FileTooLarge", .fileTooLarge),
    ("ResourceBusy", .resourceBusy), ("ExecutableFileBusy", .executableFileBusy),
    ("Deadlock", .deadlock), ("CrossesDevices", .crossesDevices),
    ("TooManyLinks", .tooManyLinks), ("InvalidFilename", .invalidFilename),
    ("ArgumentListTooLong", .argumentListTooLong), ("Interrupted", .interrupted),
    ("Unsupported", .unsupported), ("UnexpectedEof", .unexpectedEof),
    ("OutOfMemory", .outOfMemory), ("InProgress", .inProgress), ("Other", .other)]

def name (kind : IoKind) : String := ((names.find? (·.2 = kind)).map (·.1)).getD "Other"

def ofName? (name : String) : Option IoKind := (names.find? (·.1 = name)).map (·.2)

end IoKind

/-- An error of a device or a file. -/
structure IoError where
  kind : IoKind
  text : String
  deriving DecidableEq

/-- An error of a serial port. -/
inductive SerialError
  | notOpen (port : Port)
  | alreadyOpen (port : Port)
  | invalidPort (code : Int)
  | invalidArgument (reason : Refusal)
  | deviceUnavailable (port : Port) (reason : String)
  | timeout
  | io (cause : IoError)
  | config (reason : String)
  deriving DecidableEq

/-- The kinds of serial errors, in the order of their status codes. -/
inductive ErrorKind
  | notOpen
  | alreadyOpen
  | invalidPort
  | invalidArgument
  | deviceUnavailable
  | timeout
  | io
  | config
  deriving DecidableEq

namespace ErrorKind

def all : List ErrorKind :=
  [.notOpen, .alreadyOpen, .invalidPort, .invalidArgument, .deviceUnavailable, .timeout, .io,
    .config]

/-- The negative number that stands for a kind of error where only a number can be reported. -/
def status : ErrorKind → Int
  | .notOpen => -1
  | .alreadyOpen => -2
  | .invalidPort => -3
  | .invalidArgument => -4
  | .deviceUnavailable => -5
  | .timeout => -6
  | .io => -7
  | .config => -8

def ofStatus? (status : Int) : Option ErrorKind := all.find? fun k => k.status = status

def name : ErrorKind → String
  | .notOpen => "NotOpen"
  | .alreadyOpen => "AlreadyOpen"
  | .invalidPort => "InvalidPort"
  | .invalidArgument => "InvalidArgument"
  | .deviceUnavailable => "DeviceUnavailable"
  | .timeout => "Timeout"
  | .io => "Io"
  | .config => "Config"

theorem ofStatus?_status (k : ErrorKind) : ofStatus? k.status = some k := by cases k <;> rfl

end ErrorKind

namespace SerialError

def kind : SerialError → ErrorKind
  | .notOpen _ => .notOpen
  | .alreadyOpen _ => .alreadyOpen
  | .invalidPort _ => .invalidPort
  | .invalidArgument _ => .invalidArgument
  | .deviceUnavailable _ _ => .deviceUnavailable
  | .timeout => .timeout
  | .io _ => .io
  | .config _ => .config

def message : SerialError → String
  | .notOpen port => "Serial port " ++ port.label ++ " is not open"
  | .alreadyOpen port => "Serial port " ++ port.label ++ " is already open"
  | .invalidPort code => s!"Invalid serial port identifier: {code}"
  | .invalidArgument reason => "Invalid argument: " ++ reason.message
  | .deviceUnavailable port reason =>
    "Serial port " ++ port.label ++ " unavailable: " ++ reason
  | .timeout => "Serial operation timed out"
  | .io cause => "I/O error: " ++ cause.text
  | .config reason => "Configuration error: " ++ reason

/-- What an error of the device means for the caller: a setting that the device cannot take is a
bad argument, a device that did not answer in time is a timeout. -/
def ofDevice (e : IoError) : SerialError :=
  match e.kind with
  | .unsupported | .invalidInput => .invalidArgument (.stated e.text)
  | .timedOut => .timeout
  | _ => .io e

end SerialError

/-- The port with a given code. -/
def Port.ofCode (code : Int) : Except SerialError Port :=
  match Port.ofCode? code with
  | some p => .ok p
  | none => .error (.invalidPort code)

end SerialLine
