import VaultConsole.Text.Digit
import VaultConsole.Text.Quoted

/-!
# Options on a command line

A program is started with words: options, values of options, and one command with the words that
are for it. An option is named by a hyphen and a letter or by two hyphens and a name. A long name
may be cut short as long as one option is meant. A value is the next word, or it is attached: by
an equals sign, or to a letter directly. To a letter that takes no value further letters may be
attached. A word of two hyphens is a divider: after it no word is an option, and attached to an
option it leaves that without a value.

* `Grammar`: the options and commands of a program.
* `Grammar.classify`: what a word is.
* `Grammar.read`: what was asked for, or why reading stopped.
* `Problem.message`: the words for what is wrong with a command line.
-/

namespace VaultConsole.CommandLine

/-- What an option is for. -/
inductive Role
  /-- It asks for help, and reading stops. -/
  | help
  /-- It is there or not. -/
  | switch
  | value
  deriving DecidableEq

/-- An option: all of its names, and what it is for. -/
structure Setting where
  names : List Text
  role : Role
  deriving DecidableEq

/-- The options of a program, and the commands that it knows. -/
structure Grammar where
  title : Text
  settings : List Setting
  commands : List Text

/-- What is wrong with a command line. -/
inductive Problem
  /-- A short form that may mean several names. -/
  | ambiguous (word : Text) (names : List Text)
  | lacksValue (setting : Setting)
  | unusedValue (setting : Setting) (value : Text)
  | unknownCommand (word : Text) (commands : List Text)
  | unrecognized (words : List Text)
  deriving DecidableEq

namespace Problem

/-- What is wrong with an option or a command. -/
def about (what words : Text) : Text := "argument " ++ what ++ ": " ++ words

def namesOf (s : Setting) : Text := Text.joinWith "/" s.names

def message : Problem → Text
  | ambiguous word names =>
    "ambiguous option: " ++ word ++ " could match " ++ Text.joinWith ", " names
  | lacksValue setting => about (namesOf setting) "expected one argument"
  | unusedValue setting value =>
    about (namesOf setting) ("ignored explicit argument " ++ value.quoted)
  | unknownCommand word commands =>
    about "command" ("invalid choice: " ++ word.quoted ++ " (choose from "
      ++ Text.joinWith ", " (commands.map Text.quoted) ++ ")")
  | unrecognized words => "unrecognized arguments: " ++ Text.joinWith " " words

end Problem

/-- What a word is. -/
inductive Reading
  /-- A value, a command, or a word of a command. -/
  | plain
  /-- The word after which no word is an option. -/
  | divider
  /-- An option, whether it is named by a letter, and what is attached to it. -/
  | option (setting : Setting) (isLetter : Bool) (attached : Option Text)
  | unknown
  deriving DecidableEq

def hyphen : CodePoint := CodePoint.ofChar '-'

def equals : CodePoint := CodePoint.ofChar '='

def dividerWord : Text := "--"

/-- Whether all of a text are digits of some script, and there is one. -/
def isNumeral (t : Text) : Bool := !t.isEmpty && t.all (·.decimalDigit?.isSome)

/-- Whether a text is a number without a sign; a line feed may follow it. -/
def isNumber (t : Text) : Bool :=
  let t := if t.getLast? = some Text.newline then t.dropLast else t
  let whole := t.takeWhile (·.decimalDigit?.isSome)
  match t.drop whole.length with
  | [] => isNumeral whole
  | c :: fraction => c = CodePoint.ofChar '.' && isNumeral fraction

def isNegativeNumber : Text → Bool
  | c :: rest => c = hyphen && isNumber rest
  | [] => false

/-- A word up to its first equals sign, and what follows the sign if there is one. -/
def cut (word : Text) : Text × Option Text :=
  let (name, tail) := word.span (· ≠ equals)
  (name, tail.tail?)

/-- Whether a name is a hyphen and a letter. -/
def isLetterName (name : Text) : Bool := !dividerWord.isPrefixOf name

namespace Grammar

def setting? (name : Text) (g : Grammar) : Option Setting :=
  g.settings.find? fun s => name ∈ s.names

def names (g : Grammar) : List (Text × Setting) :=
  g.settings.flatMap fun s => s.names.map fun name => (name, s)

/-- The options that a word may mean without giving the name in full, each with what is attached
to it: those whose long names begin like the word, or the one whose letter the word begins
with. -/
def candidates (word : Text) (g : Grammar) : List (Text × Setting × Option Text) :=
  if isLetterName word then
    (g.names.filter fun (name, _) => name = word.take 2).map fun (name, s) =>
      (name, s, some (word.drop 2))
  else
    let (start, attached) := cut word
    (g.names.filter fun (name, _) => start.isPrefixOf name).map fun (name, s) =>
      (name, s, attached)

/-- What a word is that is none of the names, with or without a value attached. -/
def guess (word : Text) (g : Grammar) : Except Problem Reading :=
  match g.candidates word with
  | [(name, s, attached)] => .ok (.option s (isLetterName name) attached)
  | [] =>
    if isNegativeNumber word || word.contains (CodePoint.ofChar ' ') then .ok .plain
    else .ok .unknown
  | several => .error (.ambiguous word (several.map (·.1)))

/-- What a word is, as long as no divider stands before it. -/
def classify (word : Text) (g : Grammar) : Except Problem Reading :=
  if word = dividerWord then .ok .divider
  else if word.head? ≠ some hyphen ∨ word = [hyphen] then .ok .plain
  else
    match g.setting? word with
    | some s => .ok (.option s (isLetterName word) none)
    | none =>
      let (name, attached) := cut word
      match g.setting? name with
      | some s => .ok (.option s (isLetterName name) attached)
      | none => g.guess word

/-- What every word is. Behind the divider all are plain. -/
def classifyAll (g : Grammar) : List Text → Except Problem (List (Text × Reading))
  | [] => .ok []
  | word :: rest => do
    match ← g.classify word with
    | .divider => return (word, .divider) :: rest.map fun word => (word, .plain)
    | reading => return (word, reading) :: (← classifyAll g rest)

/-- What an option word asks for. -/
structure Asked where
  /-- Options without value, in order. -/
  bare : List Setting
  /-- The last option, if it has a value, with that value if it is in the word. -/
  valued : Option (Setting × Option Text)

/-- One more option without value in front. -/
def Asked.after (s : Setting) (a : Asked) : Asked := { a with bare := s :: a.bare }

/-- What an option asks for to which nothing is attached. -/
def unattached (s : Setting) : Asked :=
  match s.role with
  | .value => ⟨[], some (s, none)⟩
  | _ => ⟨[s], none⟩

/-- What a letter asks for to which something is attached: a value, or further letters. -/
def unpackLetter (g : Grammar) (s : Setting) : (attached : Text) → Except Problem Asked
  | [] =>
    match s.role with
    | .value => .ok ⟨[], some (s, some [])⟩
    | _ => .error (.unusedValue s [])
  | c :: rest =>
    match s.role with
    | .value => .ok ⟨[], some (s, some (c :: rest))⟩
    | _ =>
      match g.setting? [hyphen, c], rest with
      | none, rest => .error (.unusedValue s (c :: rest))
      | some next, [] => .ok ((unattached next).after s)
      | some next, d :: rest => (g.unpackLetter next (d :: rest)).map (·.after s)

/-- What an option asks for. -/
def unpack (g : Grammar) (s : Setting) (isLetter : Bool) : (attached : Option Text) →
    Except Problem Asked
  | none => .ok (unattached s)
  | some t =>
    if isLetter then g.unpackLetter s t
    else
      match s.role with
      | .value => .ok ⟨[], some (s, some t)⟩
      | _ => .error (.unusedValue s t)

end Grammar

/-- What was asked for. -/
structure Found where
  switches : List Setting
  /-- Options with their values, the newest last. An option with a divider has none. -/
  values : List (Setting × Option Text)
  /-- Words that mean nothing. -/
  extras : List Text
  /-- The command, with all words that follow it. -/
  command : Option (Text × List Text)

namespace Found

def nothing : Found := ⟨[], [], [], none⟩

def addExtra (word : Text) (f : Found) : Found := { f with extras := f.extras ++ [word] }

/-- One more option with what stands in the place of its value. -/
def addValue (s : Setting) (word : Text) (f : Found) : Found :=
  { f with values := f.values ++ [(s, if word = dividerWord then none else some word)] }

def has (s : Setting) (f : Found) : Bool := s ∈ f.switches

/-- The last value of an option, if the option is there. -/
def value? (s : Setting) (f : Found) : Option (Option Text) :=
  (f.values.reverse.find? fun (t, _) => t = s).map (·.2)

end Found

/-- Why reading stopped. -/
inductive Stop
  | help
  | problem (problem : Problem)
  deriving DecidableEq

namespace Grammar

/-- Takes the options of a word without value. -/
def takeBare (f : Found) : List Setting → Except Stop Found
  | [] => .ok f
  | s :: rest =>
    if s.role = .help then .error .help
    else takeBare { f with switches := f.switches ++ [s] } rest

def takeCommand (g : Grammar) (word : Text) (rest : List Text) (f : Found) : Except Stop Found :=
  if word ∈ g.commands then .ok { f with command := some (word, rest) }
  else .error (.problem (.unknownCommand word g.commands))

/-- What words ask for. With commands the first plain word is one and takes all that follows;
without commands a plain word means nothing. -/
def readFrom (g : Grammar) : List (Text × Reading) → Found → Except Stop Found
  | [], f => .ok f
  | (word, .plain) :: rest, f =>
    if g.commands.isEmpty then g.readFrom rest (f.addExtra word)
    else g.takeCommand word (rest.map (·.1)) f
  | (word, .divider) :: rest, f =>
    -- a divider with nothing behind it is left over itself
    if g.commands.isEmpty || rest.isEmpty then g.readFrom rest (f.addExtra word)
    else g.takeCommand word (rest.map (·.1)) f
  | (word, .unknown) :: rest, f => g.readFrom rest (f.addExtra word)
  | (_, .option s isLetter attached) :: rest, f =>
    match g.unpack s isLetter attached with
    | .error problem => .error (.problem problem)
    | .ok asked =>
      match asked.valued, rest with
      | none, rest => do g.readFrom rest (← takeBare f asked.bare)
      | some (s, some value), rest => do
        g.readFrom rest ((← takeBare f asked.bare).addValue s value)
      | some (s, none), (value, .plain) :: rest => do
        g.readFrom rest ((← takeBare f asked.bare).addValue s value)
      | some (s, none), _ => .error (.problem (.lacksValue s))

/-- What words ask for. -/
def read (g : Grammar) (words : List Text) : Except Stop Found :=
  match g.classifyAll words with
  | .error problem => .error (.problem problem)
  | .ok readings => g.readFrom readings .nothing

end Grammar

end VaultConsole.CommandLine
