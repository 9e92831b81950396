import ScoreGate.Text.Quoted

/-!
# What can go wrong

A `Fault` says what is wrong with a value; a `Failure` says what stopped an operation.  Both are causes: their wording
is in `Fault.label`, `SettingsFault.message` and `Failure.notice?`, and nowhere else.
-/

namespace ScoreGate

/-! ### Faults of values -/

/-- A value of the right kind that is not acceptable. -/
inductive ValueFault where
  | notInteger (literal : String)
  | tooManyDigits (count : Nat)
  /-- an integer with more digits than are ever written -/
  | hugeInteger
  | notReal (literal : String)
  | notFlag (literal : String)
  | undefinedInteger
  | documentSyntax
  | unknownName
  | emptyPattern
  | outsideCalendar
  | nulInPath
  deriving DecidableEq, Repr

/-- The wording of an unacceptable value. -/
def ValueFault.message : ValueFault → String
  | .notInteger s => "invalid literal for int() with base 10: " ++ String.ofList ((quoted s).toList.take 200)
  | .tooManyDigits n =>
      "Exceeds the limit (4300 digits) for integer string conversion: value has " ++ toString n ++
        " digits; use sys.set_int_max_str_digits() to increase the limit"
  | .hugeInteger =>
      "Exceeds the limit (4300 digits) for integer string conversion; use sys.set_int_max_str_digits() to " ++
        "increase the limit"
  | .notReal s => "could not convert string to float: " ++ quoted s
  | .notFlag s => "expected true/false, got '" ++ s ++ "'"
  | .undefinedInteger => "cannot convert float NaN to integer"
  | .documentSyntax => "not a document"
  | .unknownName => "unknown name"
  | .emptyPattern => "empty pattern"
  | .outsideCalendar => "outside the calendar"
  | .nulInPath => "embedded null byte"

/-- What is wrong with a value. -/
inductive Fault where
  /-- a value breaks a rule of its record -/
  | invalidInput (reason : String)
  /-- a value is of a kind that the operation does not take -/
  | wrongKind
  /-- a table was asked of a value that is none -/
  | noMember
  /-- a table has no entry of this name -/
  | missingKey (key : String)
  | badValue (fault : ValueFault)
  /-- a document is nested too deeply -/
  | tooDeep
  /-- a number is too large for a binary floating-point number, or infinite where an integer is asked -/
  | outOfRange
  deriving DecidableEq, Repr

/-! ### Notices -/

/-- What a user is told: a message and named details. -/
structure Notice where
  message : String
  details : List (String × String)
  deriving DecidableEq, Repr

namespace Notice

/-- The message, and the details in parentheses if there are any. -/
def text (n : Notice) : String :=
  if n.details.isEmpty then n.message
  else n.message ++ " (" ++ joinText ", " (n.details.map fun d => d.1 ++ "=" ++ d.2) ++ ")"

def invalidInput (reason : String) : Notice :=
  ⟨"Invalid input: " ++ reason, [("reason", reason)]⟩

def fileAccess (path reason : String) : Notice :=
  ⟨"Cannot access file: " ++ path, [("filepath", path), ("reason", reason)]⟩

def invalidSetting (key value reason : String) : Notice :=
  ⟨"Invalid configuration for " ++ key ++ ": " ++ value, [("key", key), ("value", value), ("reason", reason)]⟩

def storage (path reason : String) : Notice :=
  ⟨"Snapshot storage failure: " ++ path, [("path", path), ("reason", reason)]⟩

def malformedRecord (path reason : String) : Notice :=
  ⟨"Malformed snapshot record: " ++ path, [("path", path), ("reason", reason)]⟩

end Notice

/-- How a fault is named where a stored record is reported as malformed. -/
def Fault.label : Fault → String
  | .invalidInput reason => "InvalidInputError: " ++ (Notice.invalidInput reason).text
  | .wrongKind => "TypeError"
  | .noMember => "AttributeError"
  | .missingKey key => "KeyError: " ++ quoted key
  | .badValue .documentSyntax => "JSONDecodeError"
  | .badValue f => "ValueError: " ++ f.message
  | .tooDeep => "RecursionError"
  | .outOfRange => "OverflowError"

/-! ### Obstacles in the file system -/

/-- Why a path leads nowhere, or to the wrong thing. -/
inductive Obstacle where
  | missing
  | notDirectory
  | isDirectory
  | nameTooLong
  | nulInName
  /-- a file stands where a directory is to be made -/
  | occupied
  /-- the file system refuses for a reason of its own -/
  | refused
  deriving DecidableEq, Repr

/-- What the file system says. -/
def Obstacle.words : Obstacle → String
  | .missing => "[Errno 2] No such file or directory"
  | .notDirectory => "[Errno 20] Not a directory"
  | .isDirectory => "[Errno 21] Is a directory"
  | .nameTooLong => "[Errno 36] File name too long"
  | .nulInName => "embedded null byte"
  | .occupied => "[Errno 17] File exists"
  | .refused => "[Errno 13] Permission denied"

/-- An obstacle on a path, or on the way from one path to another. -/
structure SystemFault where
  obstacle : Obstacle
  path : String
  onto : Option String
  deriving DecidableEq, Repr

def SystemFault.text (f : SystemFault) : String :=
  f.obstacle.words ++ ": " ++ quoted f.path ++
    match f.onto with
    | some target => " -> " ++ quoted target
    | none => ""

/-! ### Failures of operations -/

/-- Why settings cannot be put together. -/
inductive SettingsFault where
  | missingFile (path : String)
  | unreadableFile (path : String)
  | thresholdsNotTable (path : String)
  | badVariable (name : String) (fault : ValueFault)
  | unknownThreshold (key : String)
  | unknownSetting (key : String)
  /-- the key that stands for the record itself -/
  | reservedThreshold (key : String)
  /-- the key that stands for the record itself -/
  | reservedSetting (key : String)
  | notOrdered (kind : String)
  | notIterable (kind : String)
  deriving DecidableEq, Repr

def SettingsFault.message : SettingsFault → String
  | .missingFile path => "Config file not found: " ++ path
  | .unreadableFile path => "Invalid config file '" ++ path ++ "'"
  | .thresholdsNotTable path => "Invalid [thresholds] in " ++ path ++ ": expected a table"
  | .badVariable name fault => "Invalid " ++ name ++ ": " ++ fault.message
  | .unknownThreshold key =>
      "Invalid [thresholds] config: AlertThresholds.__init__() got an unexpected keyword argument '" ++ key ++ "'"
  | .unknownSetting key =>
      "Invalid configuration: SentinelConfig.__init__() got an unexpected keyword argument '" ++ key ++ "'"
  | .reservedThreshold key =>
      "Invalid [thresholds] config: AlertThresholds.__init__() got multiple values for argument '" ++ key ++ "'"
  | .reservedSetting key =>
      "Invalid configuration: SentinelConfig.__init__() got multiple values for argument '" ++ key ++ "'"
  | .notOrdered kind =>
      "Invalid configuration: '<' not supported between instances of '" ++ kind ++ "' and 'int'"
  | .notIterable kind => "Invalid configuration: '" ++ kind ++ "' object is not iterable"

/-- What failed while a stored file was handled. -/
inductive StorageFault where
  | write (cause : SystemFault)
  | read (cause : SystemFault)
  | delete (cause : SystemFault)
  | listing (cause : SystemFault)
  deriving DecidableEq, Repr

def StorageFault.label : StorageFault → String
  | .write cause => "write failed: " ++ cause.text
  | .read cause => "read failed: " ++ cause.text
  | .delete cause => "delete failed: " ++ cause.text
  | .listing cause => "listing failed: " ++ cause.text

/-- Why a stored record cannot be used. -/
inductive RecordFault where
  | encoding
  | content (fault : Fault)
  deriving DecidableEq, Repr

def RecordFault.label : RecordFault → String
  | .encoding => "not UTF-8: UnicodeDecodeError"
  | .content fault => fault.label

/-- Why a source file cannot be analysed. -/
inductive AccessFault where
  | notFound
  | encoding
  | unreadable (cause : SystemFault)
  deriving DecidableEq, Repr

def AccessFault.label : AccessFault → String
  | .notFound => "file not found"
  | .encoding => "UnicodeDecodeError"
  | .unreadable cause => cause.text

/-- What stopped an operation. -/
inductive Failure where
  | fault (fault : Fault)
  | fileAccess (path : String) (fault : AccessFault)
  | settings (fault : SettingsFault)
  | invalidSetting (key value reason : String)
  | storage (path : String) (fault : StorageFault)
  | malformedRecord (path : String) (fault : RecordFault)
  /-- bytes that are no UTF-8 text -/
  | notUtf8
  /-- a file that is not there, or whose directory is not there -/
  | fileMissing
  /-- a file in the place of a directory that is to be made -/
  | fileExists
  /-- a directory where a file is asked -/
  | isDirectory
  /-- a file where a directory is asked -/
  | notDirectory
  /-- the file system refuses the name -/
  | system
  /-- the backend of a cache fails -/
  | backend
  /-- a closing tag without an opening one in text for the console -/
  | markup
  /-- a text that the console cannot encode -/
  | unencodable
  deriving DecidableEq, Repr

instance : Coe Fault Failure := ⟨.fault⟩

/-- What the user is told; faults without words of their own have no notice. -/
def Failure.notice? : Failure → Option Notice
  | .fault (.invalidInput reason) => some (Notice.invalidInput reason)
  | .fileAccess path cause => some (Notice.fileAccess path cause.label)
  | .settings cause => some ⟨cause.message, []⟩
  | .invalidSetting key value reason => some (Notice.invalidSetting key value reason)
  | .storage path cause => some (Notice.storage path cause.label)
  | .malformedRecord path cause => some (Notice.malformedRecord path cause.label)
  | _ => none

def Failure.text (f : Failure) : String :=
  match f.notice? with
  | some n => n.text
  | none => ""

end ScoreGate
