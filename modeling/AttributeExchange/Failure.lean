import AttributeExchange.Json.Scan
import AttributeExchange.Settings.Reader
import AttributeExchange.Switchboard

/-!
# Failures

What can go wrong in the program as a whole: a request, the delivery of a message, or something
inside, such as settings that cannot be read.
-/

namespace AttributeExchange

/-!
## Files

What an attempt to read a file comes to. A directory can be opened but not read, so the two ways to
fail are kept apart.
-/

/-- Why the system refused: the number of the error and what it means. -/
structure FileFault where
  number : Nat
  meaning : String
  deriving DecidableEq, Repr

namespace FileFault

def noSuchFile : FileFault :=
  ⟨2, "No such file or directory"⟩

def unreadable : FileFault :=
  ⟨5, "Input/output error"⟩

def notDirectory : FileFault :=
  ⟨20, "Not a directory"⟩

def isDirectory : FileFault :=
  ⟨21, "Is a directory"⟩

def nameTooLong : FileFault :=
  ⟨36, "File name too long"⟩

def message (fault : FileFault) : String :=
  fault.meaning ++ " (os error " ++ fault.number.repr ++ ")"

end FileFault

inductive FileReading where
  | unopened (fault : FileFault)
  | unread (fault : FileFault)
  | contents (bytes : Bytes)
  deriving DecidableEq, Repr

/-! ## Causes -/

inductive InternalFault where
  | badSettings (cause : Settings.ReadError)
  | badSettingsFile (cause : Settings.ReadError)
  | unopenedSettingsFile (fault : FileFault)
  | unreadSettingsFile (fault : FileFault)
  | badResponse (cause : Json.ReadError)
  | stated (text : String)
  deriving DecidableEq, Repr

def InternalFault.message : InternalFault → String
  | .badSettings cause => "Failed to parse config: " ++ cause.message
  | .badSettingsFile cause => "Failed to parse config file: " ++ cause.message
  | .unopenedSettingsFile fault => "Failed to open config file: " ++ fault.message
  | .unreadSettingsFile fault => "Failed to parse config file: " ++ fault.message
  | .badResponse cause => "Invalid response document: " ++ cause.message
  | .stated text => text

inductive Failure where
  | request (fault : RequestFault)
  | delivery (fault : DeliveryFault)
  | internal (fault : InternalFault)
  deriving DecidableEq, Repr

namespace Failure

def message : Failure → String
  | .request fault => "Request error: " ++ fault.message
  | .delivery fault => "Router error: " ++ fault.message
  | .internal fault => "Internal error: " ++ fault.message

/-- The wording of the fault behind a failure; an internal one has none behind it. -/
def cause? : Failure → Option String
  | .request fault => some fault.message
  | .delivery fault => some fault.message
  | .internal _ => none

end Failure

namespace Settings

def ofText (text : String) : Except Failure Settings :=
  (read (utf8 text)).mapError fun cause => .internal (.badSettings cause)

def ofFile : FileReading → Except Failure Settings
  | .unopened fault => .error (.internal (.unopenedSettingsFile fault))
  | .unread fault => .error (.internal (.unreadSettingsFile fault))
  | .contents bytes => (read bytes).mapError fun cause => .internal (.badSettingsFile cause)

end Settings

end AttributeExchange
