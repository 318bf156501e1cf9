import VaultConsole.CommandLine.Options

/-!
# What the program is asked for

The program starts a session with a profile, or its command `init` creates a profile. Both know
the profile's path by one option with one usual value; with the command, only the option behind
the command counts.

* `Request`: what is asked for.
* `Request.read`: the request of words, or why there is none.
* `Halt`: help that was asked for, or a problem with the words.
-/

namespace VaultConsole

/-- What the program is asked for. The path of a profile is missing if the option for it is there
without a value. -/
inductive Request
  /-- A new profile, with a name for its user if one was given. -/
  | create (profile : Option Text) (username : Option Text)
  /-- A session: with the quick bar or with the interpreter, with or without a run log. -/
  | start (profile : Option Text) (isQuick isUnlogged : Bool)
  deriving DecidableEq

/-- Why there is no request. -/
inductive Halt
  | help (text : Text)
  /-- A problem, with the name of the part that it concerns and the form of its words. -/
  | problem (title usage : Text) (cause : CommandLine.Problem)
  deriving DecidableEq

namespace Request

open CommandLine

/-- Where a profile is if nothing else is said. -/
def usualProfile : Text := "~/.vaultterm/profile.json"

def helpOption : Setting := ⟨["-h", "--help"], .help⟩

def profileOption : Setting := ⟨["--profile", "-p"], .value⟩

def quickOption : Setting := ⟨["--quick"], .switch⟩

def unloggedOption : Setting := ⟨["--no-log"], .switch⟩

def usernameOption : Setting := ⟨["--username", "-u"], .value⟩

/-- The command that creates a profile. -/
def createCommand : Text := "init"

/-- The words of the program. -/
def mainGrammar : Grammar :=
  { title := "vaultterm", settings := [helpOption, profileOption, quickOption, unloggedOption]
    commands := [createCommand] }

/-- The words behind the command. -/
def createGrammar : Grammar :=
  { title := "vaultterm init", settings := [helpOption, profileOption, usernameOption]
    commands := [] }

/-- The form of the words of the program. -/
def mainUsage : Text :=
  "usage: vaultterm [-h] [--profile PROFILE] [--quick] [--no-log] \x7binit\x7d ..."

/-- The form of the words behind the command. -/
def createUsage : Text := "usage: vaultterm init [-h] [--profile PROFILE] [--username USERNAME]"

/-- The help of the program. -/
def mainHelp : Text := Text.unlines
  [mainUsage, "", "vaultterm - terminal command interpreter for a password vault", "",
    "positional arguments:", "  \x7binit\x7d                Commands",
    "    init                Create a new profile", "", "options:",
    "  -h, --help            show this help message and exit",
    "  --profile PROFILE, -p PROFILE",
    "                        Path to profile JSON file (default:",
    "                        ~/.vaultterm/profile.json)",
    "  --quick               Run the reduced quick-command bar instead of the full",
    "                        interpreter",
    "  --no-log              Do not write a run log even if the profile sets",
    "                        logs_dir", "", "Examples:", "  # Create a new profile",
    "  vaultterm init -p ~/vaults/profile.json", "",
    "  # Start the interpreter with a profile", "  vaultterm -p ~/vaults/profile.json", "",
    "  # Start the quick-command bar", "  vaultterm -p ~/vaults/profile.json --quick", "        "]

/-- The help of the command. -/
def createHelp : Text := Text.unlines
  [createUsage, "", "options:", "  -h, --help            show this help message and exit",
    "  --profile PROFILE, -p PROFILE",
    "                        Path where to save the profile (default:",
    "                        ~/.vaultterm/profile.json)",
    "  --username USERNAME, -u USERNAME", "                        Name shown in the prompt"]

/-- Why words make no request. -/
def halt (g : Grammar) (usage help : Text) : Stop → Halt
  | .help => .help help
  | .problem problem => .problem g.title usage problem

/-- The path of the profile. -/
def profileOf (f : Found) : Option Text := (f.value? profileOption).getD usualProfile

/-- The request, unless words were left over that mean nothing. -/
def unlessExtra (extras : List Text) (r : Request) : Except Halt Request :=
  if extras.isEmpty then .ok r
  else .error (.problem mainGrammar.title mainUsage (.unrecognized extras))

/-- The request of words. -/
def read (words : List Text) : Except Halt Request := do
  let f ← (mainGrammar.read words).mapError (halt mainGrammar mainUsage mainHelp)
  match f.command with
  | none =>
    unlessExtra f.extras (.start (profileOf f) (f.has quickOption) (f.has unloggedOption))
  | some (_, rest) =>
    let inner ← (createGrammar.read rest).mapError (halt createGrammar createUsage createHelp)
    unlessExtra (f.extras ++ inner.extras)
      (.create (profileOf inner) (inner.value? usernameOption).join)

end Request

namespace Halt

def code : Halt → Nat
  | help _ => 0
  | problem .. => 2

/-- What is printed as an error. -/
def complaint : Halt → Text
  | help _ => []
  | problem title usage cause =>
    usage ++ [Text.newline] ++ title ++ ": error: " ++ cause.message ++ [Text.newline]

end Halt

end VaultConsole
