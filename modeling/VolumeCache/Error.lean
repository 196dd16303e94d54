import VolumeCache.Json.Fault
import VolumeCache.Sizing

namespace VolumeCache

/-!
# Errors

Everything a caller of the library can be told has gone wrong, as causes.  Each cause has one
wording; where a cause wraps another one, the inner wording is also available on its own.
-/

/-- Why a description of a cache was refused. -/
inductive ConfigurationFault where
  | sizing (fault : SizingFault)
  | malformed (fault : Json.Fault)
  | unsupportedVersion (version : UInt32)
  | unknownKind (text : String)
  | belowUnset (field : String) (value : Int64)
  | notExactlyOne (fields : List String)
  | ratioTooLarge (value : Int64)
  | stated (text : String)
deriving DecidableEq, Repr

namespace ConfigurationFault

def message : ConfigurationFault → String
  | .sizing fault => fault.message
  | .malformed fault => fault.message
  | .unsupportedVersion version =>
      "unsupported configuration version " ++ toString version.toNat
  | .unknownKind text => "unknown cache type '" ++ text ++ "'"
  | .belowUnset field value =>
      field ++ " must be -1 or a non-negative number, got " ++ toString value.toInt
  | .notExactlyOne fields =>
      "exactly one sizing field must be set, found " ++ Text.quotedList fields
  | .ratioTooLarge value => "mem_ratio_pc out of range: " ++ toString value.toInt
  | .stated text => text

end ConfigurationFault

/-- Why a file could not be read or written. -/
inductive FileFault where
  | notFound
  | notADirectory
  | isADirectory
  | busy
  | nameTooLong
  | nulInName
  | notText
  | stated (text : String)
deriving DecidableEq, Repr

namespace FileFault

def message : FileFault → String
  | .notFound => "No such file or directory (os error 2)"
  | .notADirectory => "Not a directory (os error 20)"
  | .isADirectory => "Is a directory (os error 21)"
  | .busy => "Device or resource busy (os error 16)"
  | .nameTooLong => "File name too long (os error 36)"
  | .nulInName => "file name contained an unexpected NUL byte"
  | .notText => "stream did not contain valid UTF-8"
  | .stated text => text

end FileFault

/-- What can go wrong in a request to the library.  A failed loader brings its explanation as a
chain of texts, the outermost first. -/
inductive CacheError where
  | invalidConfiguration (fault : ConfigurationFault)
  | loaderFailed (outermost : String) (causes : List String)
  | loaderPanicked (text : String)
  | preferences (fault : FileFault)
  | serialization (fault : Json.Fault)
deriving DecidableEq, Repr

namespace CacheError

/-- The wording of an error; of a failed loader's chain only the outermost text is shown. -/
def message : CacheError → String
  | .invalidConfiguration fault => "Invalid cache configuration: " ++ fault.message
  | .loaderFailed outermost _ => "Block loader failed: " ++ outermost
  | .loaderPanicked text => "Block loader panicked: " ++ text
  | .preferences fault => "Preference store error: " ++ fault.message
  | .serialization fault => "Serialization error: " ++ fault.message

/-- The wording of the error this one wraps, for the errors that stand for another system's. -/
def innerMessage? : CacheError → Option String
  | .preferences fault => some fault.message
  | .serialization fault => some fault.message
  | _ => none

end CacheError

end VolumeCache
