namespace RowStore

inductive FaultClass
  | notFound
  | alreadyExists
  | other
  deriving DecidableEq, Repr

inductive Fault
  | notFound
  | alreadyExists
  | notDirectory
  | isDirectory
  | invalidArgument
  | nameTooLong
  | nulInName
  | endOfFile
  | bufferFull
  | notText
  | countOverflow
  /-- A fault that a directory reports in its own words. -/
  | reported (class_ : FaultClass) (text : String)
  deriving DecidableEq, Repr

namespace Fault

def faultClass : Fault → FaultClass
  | .notFound => .notFound
  | .alreadyExists => .alreadyExists
  | .reported c _ => c
  | _ => .other

def message : Fault → String
  | .notFound => "No such file or directory (os error 2)"
  | .alreadyExists => "File exists (os error 17)"
  | .notDirectory => "Not a directory (os error 20)"
  | .isDirectory => "Is a directory (os error 21)"
  | .invalidArgument => "Invalid argument (os error 22)"
  | .nameTooLong => "File name too long (os error 36)"
  | .nulInName => "file name contained an unexpected NUL byte"
  | .endOfFile => "failed to fill whole buffer"
  | .bufferFull => "failed to write whole buffer"
  | .notText => "stream did not contain valid UTF-8"
  | .countOverflow => "attempt to add with overflow"
  | .reported _ text => text

end Fault

end RowStore
