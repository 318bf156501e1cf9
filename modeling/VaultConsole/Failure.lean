import VaultConsole.Disk.Basic
import VaultConsole.Json.Display
import VaultConsole.Json.Reader
import VaultConsole.Sequence
import VaultConsole.Time.Clock
import VaultConsole.Time.Iso

/-!
# Failures

Everything that can go wrong, by its cause. A cause has a message, and it belongs to a kind,
which decides who deals with it: the expected kinds are answered to the user as they are, an
interruption ends whatever is going on, and every other kind is reported as unexpected. A part
outside may also fail in a way that cannot be put into words; then the attempt to do so fails too.

* `Failure`: the causes.
* `Failure.message`: the words of each; `Failure.words`: what comes of the attempt to make them.
* `Failure.kind`, `Failure.Kind.isExpected`, `Failure.Kind.isOfSystem`: who deals with it.
* `Failure.attempt`: the outcome of an act as a value, interruptions apart.
-/

namespace VaultConsole

namespace Failure

/-- The kinds of failure. -/
inductive Kind
  /-- A failure of this program that is of none of its other kinds. -/
  | program
  | usage
  | validation
  | notFound
  | unavailable
  | unknownCommand
  | confirmation
  | config
  | storage
  | value
  | type
  | lookup
  | index
  | key
  | overflow
  | runtime
  | depth
  | encoding
  | decoding
  /-- A refusal by the system that is of none of its other kinds. -/
  | system
  | fileMissing
  | fileExists
  | notDirectory
  | isDirectory
  | endOfInput
  | interrupt
  | named (name : Text)
  deriving DecidableEq

def Kind.name : Kind → Text
  | program => "AppError"
  | usage => "UsageError"
  | validation => "ValidationError"
  | notFound => "NotFoundError"
  | unavailable => "UnavailableError"
  | unknownCommand => "UnknownCommandError"
  | confirmation => "ConfirmationError"
  | config => "ConfigError"
  | storage => "StorageError"
  | value => "ValueError"
  | type => "TypeError"
  | lookup => "AttributeError"
  | index => "IndexError"
  | key => "KeyError"
  | overflow => "OverflowError"
  | runtime => "RuntimeError"
  | depth => "RecursionError"
  | encoding => "UnicodeEncodeError"
  | decoding => "UnicodeDecodeError"
  | system => "OSError"
  | fileMissing => "FileNotFoundError"
  | fileExists => "FileExistsError"
  | notDirectory => "NotADirectoryError"
  | isDirectory => "IsADirectoryError"
  | endOfInput => "EOFError"
  | interrupt => "KeyboardInterrupt"
  | named name => name

/-- The kinds that are answered to the user as they are. -/
def Kind.isExpected : Kind → Bool
  | program | usage | validation | notFound | unavailable | unknownCommand | confirmation
  | config | storage => true
  | _ => false

/-- The kinds of a refusal by the system. -/
def Kind.isOfSystem : Kind → Bool
  | system | fileMissing | fileExists | notDirectory | isDirectory => true
  | _ => false

/-- The kinds that have a name of their own. -/
def Kind.all : List Kind :=
  [.program, .usage, .validation, .notFound, .unavailable, .unknownCommand, .confirmation,
    .config, .storage, .value, .type, .lookup, .index, .key, .overflow, .runtime, .depth,
    .encoding, .decoding, .system, .fileMissing, .fileExists, .notDirectory, .isDirectory,
    .endOfInput, .interrupt]

/-- The kind of a name. -/
def Kind.ofName (name : Text) : Kind := (Kind.all.find? (·.name = name)).getD (.named name)

end Failure

/-- What went wrong. -/
inductive Failure
  /-- A line lacks a required flag or argument; `form` is the form it should have. -/
  | usage (form : Text)
  | unknownPage (name pages : Text)
  | unknownTopic (topic topics : Text)
  | unknownVerb (token : Text)
  | unknownAction (domain actions : Text)
  | noSuchVault (name : Text)
  | noSuchAccount (name : Text)
  | noNavigator
  | noExit
  | noClipboard
  | noConfirmation
  | clipboardBroken (detail : Text)
  | alreadyAwaiting (target : Text)
  | nothingAwaiting
  | invalidFields (names : List Text)
  | unknownVaultId (id : Text)
  | documentNotObject
  | documentLacks (key : Text)
  | documentNotArray (key : Text)
  | recordNotObject (kind : Text) (index : Nat)
  | notUpdated (kind name : Text)
  | notDeleted (kind name : Text)
  | noDataDirectory (path : Text) (problem : Disk.Problem)
  | unreadableData (path : Text) (problem : Disk.Problem)
  | unwritableData (path : Text) (problem : Disk.Problem)
  | dataNotJson (spot : Json.Spot)
  /-- A data file holds something that is refused for this cause. -/
  | badData (cause : Failure)
  | zeroInProfilePath
  | relativeProfilePath
  | profileNotObject
  | profileLacks (names : List Text)
  | profileFieldEmpty (name : Text)
  | delayNotNumber
  | delayNegative
  | profileExists (path : Text)
  | profileNotJson (spot : Json.Spot)
  | profileMissing (path : Text)
  | recordLacks (kind : Text) (names : List Text)
  | notTimestampText (field : Text)
  | badTimestamp (problem : Timestamp.Problem)
  | tooManyDigits (count : Nat)
  /-- A document has too many arrays and objects inside each other; the last of them was an
  object or an array. -/
  | tooDeep (isObject : Bool)
  | notNumberText (text : Text)
  | notNumber (kind : Text)
  | numberTooLarge
  /-- A number has no whole number next to it. -/
  | noWhole (reason : Binary64.NoWhole)
  /-- The clock shows no time. -/
  | noTime (problem : Clock.Problem)
  | lacksKey (key : Text)
  /-- A sequence has no item at a place. -/
  | noItem (reason : Sequence.NoItem)
  | dateOutOfRange
  | noHome
  | undecodable (problem : Text.Utf8.DecodeProblem)
  | unencodable (problem : Text.Utf8.EncodeProblem)
  | zeroInPath
  | refused (refusal : Disk.Refusal) (path : Text)
  /-- The disk has no room for what is written. -/
  | noRoom
  /-- A listing that should hold records holds another value, of a kind that has no items. -/
  | notIterable (kind : Text)
  | notSized (kind : Text)
  | noField (kind field : Text)
  /-- A value of a kind without named members was asked for one. -/
  | noMembers (kind : Text)
  /-- The user sent the end of the input. -/
  | endOfInput (message : Text)
  /-- The user interrupted. -/
  | interrupt (message : Text)
  /-- A failure of a part that is not of this program: its kind and its words. -/
  | foreign (kind : Failure.Kind) (message : Text)
  /-- Such a failure whose words cannot be made: its kind, and what the attempt fails with. -/
  | wordless (kind : Failure.Kind) (cause : Failure)
  deriving DecidableEq

namespace Failure

def kindOfRefusal : Disk.Refusal → Kind
  | .noEntry => .fileMissing
  | .nameTooLong => .system
  | .alreadyThere => .fileExists
  | .notDirectory => .notDirectory
  | .isDirectory => .isDirectory

def kindOfNoWhole : Binary64.NoWhole → Kind
  | .notNumber => .value
  | .infinite => .overflow

def kindOfClock : Clock.Problem → Kind
  | .noWhole reason => kindOfNoWhole reason
  | .tooManyDays _ | .outsideCalendar => .overflow
  | .noYear _ => .value

def kind : Failure → Kind
  | usage _ | unknownPage .. | unknownTopic .. => .usage
  | unknownVerb _ | unknownAction .. => .unknownCommand
  | noSuchVault _ | noSuchAccount _ => .notFound
  | noNavigator | noExit | noClipboard | noConfirmation | clipboardBroken _ => .unavailable
  | alreadyAwaiting _ | nothingAwaiting => .confirmation
  | invalidFields _ | unknownVaultId _ | documentNotObject | documentLacks _ | documentNotArray _
  | recordNotObject .. => .validation
  | notUpdated .. | notDeleted .. | noDataDirectory .. | unreadableData .. | unwritableData ..
  | dataNotJson _ | badData _ => .storage
  | zeroInProfilePath | relativeProfilePath | profileNotObject | profileLacks _
  | profileFieldEmpty _ | delayNotNumber | delayNegative | profileExists _
  | profileNotJson _ => .config
  | profileMissing _ => .fileMissing
  | recordLacks .. | notTimestampText _ | badTimestamp _ | tooManyDigits _ | notNumberText _
  | zeroInPath => .value
  | notNumber _ | notIterable _ | notSized _ | noMembers _ => .type
  | noField .. => .lookup
  | numberTooLarge | dateOutOfRange => .overflow
  | noWhole reason => kindOfNoWhole reason
  | noTime problem => kindOfClock problem
  | tooDeep _ => .depth
  | lacksKey _ => .key
  | noItem _ => .index
  | noHome => .runtime
  | undecodable _ => .decoding
  | unencodable _ => .encoding
  | refused refusal _ => kindOfRefusal refusal
  | noRoom => .system
  | endOfInput _ => .endOfInput
  | interrupt _ => .interrupt
  | foreign kind _ | wordless kind _ => kind

/-- Where a run of something begins, and where it ends if it is longer than one. -/
def placeText (start count : Nat) : Text :=
  if count ≤ 1 then Text.ofNat start else Text.ofNat start ++ "-" ++ Text.ofNat (start + count - 1)

def byteText (b : UInt8) : Text := "0x" ++ Text.paddedHex 2 b.toNat

/-- Why bytes are no text. -/
def undecodableText (p : Text.Utf8.DecodeProblem) : Text :=
  let what : Text :=
    if p.count ≤ 1 then "byte " ++ byteText p.first ++ " in position " else "bytes in position "
  let why : Text :=
    match p.reason with
    | .invalidStart => "invalid start byte"
    | .invalidContinuation => "invalid continuation byte"
    | .unexpectedEnd => "unexpected end of data"
  "'utf-8' codec can't decode " ++ what ++ placeText p.start p.count ++ ": " ++ why

/-- Why a text has no bytes. -/
def unencodableText (p : Text.Utf8.EncodeProblem) : Text :=
  let what : Text :=
    if p.count ≤ 1 then "character '\\u" ++ Text.paddedHex 4 p.first.val ++ "' in position "
    else "characters in position "
  "'utf-8' codec can't encode " ++ what ++ placeText p.start p.count ++ ": surrogates not allowed"

/-- A refusal with its number and path. -/
def refusalText (refusal : Disk.Refusal) (path : Text) : Text :=
  "[Errno " ++ Text.ofNat refusal.number ++ "] " ++ refusal.words ++ ": " ++ path.quoted

/-- What is said of a disk without room. -/
def noRoomText : Text := "[Errno 28] No space left on device"

/-- What a path cannot be used for. -/
def diskText : Disk.Problem → Text
  | .refused refusal path => refusalText refusal path
  | .zeroInPath => "embedded null byte"
  | .unencodable problem => unencodableText problem
  | .full => noRoomText

/-- Why a number has no whole number next to it. -/
def noWholeText : Binary64.NoWhole → Text
  | .notNumber => "cannot convert float NaN to integer"
  | .infinite => "cannot convert float infinity to integer"

/-- The days that a machine word of 32 bits can count, before a start and after it. -/
def isWordOfDays (days : Int) : Bool := -2147483648 ≤ days && days ≤ 2147483647

def clockText : Clock.Problem → Text
  | .noWhole reason => noWholeText reason
  | .tooManyDays days =>
    if isWordOfDays days then
      "days=" ++ Text.ofInt days ++ "; must have magnitude <= " ++ Text.ofNat Clock.dayLimit
    else "Python int too large to convert to C int"
  | .outsideCalendar => "date value out of range"
  | .noYear year => "year " ++ Text.ofNat year ++ " is out of range"

/-- What is asked of a value of a kind without named members. -/
def noMembersText (kind : Text) : Text :=
  if kind = "list" then "list indices must be integers or slices, not str"
  else if kind = "str" then "string indices must be integers, not 'str'"
  else "'" ++ kind ++ "' object is not subscriptable"

/-- A text between double quotes, as it is. -/
def named (name : Text) : Text := "\"" ++ name ++ "\""

/-- The words of a failure, where they can be made. -/
def message : Failure → Text
  | usage form => "Usage: " ++ form
  | unknownPage name pages => "Unknown page " ++ named name ++ ". Available pages: " ++ pages
  | unknownTopic topic topics => "No help available for " ++ named topic ++ ". Try: " ++ topics
  | unknownVerb token =>
    "Unknown command: " ++ named token ++ ". Type " ++ named "help" ++ " for available commands."
  | unknownAction domain actions => "Unknown " ++ domain ++ " command. Use: " ++ actions
  | noSuchVault name => "Vault " ++ named name ++ " not found."
  | noSuchAccount name => "Account " ++ named name ++ " not found."
  | noNavigator => "Navigation not available in this context."
  | noExit => "Cannot exit from this context."
  | noClipboard => "Clipboard not available in this context."
  | noConfirmation => "Confirmation is not available in this context."
  | clipboardBroken detail => "Clipboard not available in this context: " ++ detail
  | alreadyAwaiting target =>
    "Operation on " ++ named target ++ " is already awaiting confirmation."
  | nothingAwaiting => "No operation is awaiting confirmation."
  | invalidFields names => "Invalid fields: " ++ Text.joinWith ", " names
  | unknownVaultId id => "Unknown vault id: " ++ id
  | documentNotObject => "Invalid data file structure: expected a JSON object"
  | documentLacks key => "Invalid data file structure: missing '" ++ key ++ "' key"
  | documentNotArray key => "Invalid data file structure: '" ++ key ++ "' must be an array"
  | recordNotObject kind index => kind ++ " " ++ Text.ofNat index ++ " is not a valid object"
  | notUpdated kind name => kind ++ " " ++ named name ++ " could not be updated."
  | notDeleted kind name => kind ++ " " ++ named name ++ " could not be deleted."
  | noDataDirectory path problem =>
    "Failed to create data directory: " ++ path ++ ": " ++ diskText problem
  | unreadableData path problem => "Failed to read data file: " ++ path ++ ": " ++ diskText problem
  | unwritableData path problem => "Failed to save data file: " ++ path ++ ": " ++ diskText problem
  | dataNotJson spot => "Invalid JSON in data file: " ++ (Json.Problem.flawed spot).message
  | badData cause => message cause
  | zeroInProfilePath => "Path cannot contain NUL bytes"
  | relativeProfilePath =>
    "Relative profile paths are not supported. Use an absolute path or start with '~/' or '@/'."
  | profileNotObject => "Profile must be a JSON object"
  | profileLacks names => "Profile missing required fields: " ++ Text.joinWith ", " names
  | profileFieldEmpty name => name ++ " must be a non-empty string"
  | delayNotNumber => "action_delay must be a number"
  | delayNegative => "action_delay cannot be negative"
  | profileExists path => "Profile already exists: " ++ path
  | profileNotJson spot => "Invalid JSON in profile: " ++ (Json.Problem.flawed spot).message
  | profileMissing path =>
    "Profile not found: " ++ path ++ "\nUse 'init' command to create a profile"
  | recordLacks kind names => kind ++ " missing required fields: " ++ Text.joinWith ", " names
  | notTimestampText field => field ++ " must be an ISO-8601 string"
  | badTimestamp problem => problem.message
  | tooManyDigits count => (Json.Problem.tooManyDigits count).message
  | tooDeep isObject => (Json.Problem.tooDeep isObject).message
  | notNumberText text => "could not convert string to float: " ++ text.quoted
  | notNumber kind =>
    "float() argument must be a string or a real number, not '" ++ kind ++ "'"
  | numberTooLarge => "int too large to convert to float"
  | noWhole reason => noWholeText reason
  | noTime problem => clockText problem
  | lacksKey key => key.quoted
  | noItem .outside => "list index out of range"
  | noItem .uncountable => "cannot fit 'int' into an index-sized integer"
  | dateOutOfRange => "date value out of range"
  | noHome => "Could not determine home directory."
  | undecodable problem => undecodableText problem
  | unencodable problem => unencodableText problem
  | zeroInPath => "embedded null byte"
  | refused refusal path => refusalText refusal path
  | noRoom => noRoomText
  | notIterable kind => "'" ++ kind ++ "' object is not iterable"
  | notSized kind => "object of type '" ++ kind ++ "' has no len()"
  | noMembers kind => noMembersText kind
  | noField kind field => "'" ++ kind ++ "' object has no attribute '" ++ field ++ "'"
  | endOfInput message => message
  | interrupt message => message
  | foreign _ message => message
  | wordless .. => []

/-- The words of a failure, or what the attempt to make them fails with. -/
def words : Failure → Except Failure Text
  | wordless _ cause => .error cause
  | badData cause => words cause
  | failure => .ok failure.message

/-- Whether the user is told the message as it is. -/
def isExpected (f : Failure) : Bool := f.kind.isExpected

/-- What the user is told of a failure that has words. -/
def told (f : Failure) : Text :=
  if f.isExpected then f.message else "Unexpected error: " ++ f.message

/-- Whether a failure is an interruption by the user, which no part of the program deals with but
the one that asks for lines. -/
def isInterruption (f : Failure) : Bool := f.kind = .interrupt

/-- The outcome of an act as a value, interruptions apart. -/
def attempt {σ α : Type} (act : Act Failure σ α) : Act Failure σ (Except Failure α) :=
  Act.attemptUnless isInterruption act

/-- The failure behind a problem with a path. -/
def ofDisk : Disk.Problem → Failure
  | .refused refusal path => .refused refusal path
  | .zeroInPath => .zeroInPath
  | .unencodable problem => .unencodable problem
  | .full => .noRoom

end Failure

end VaultConsole
