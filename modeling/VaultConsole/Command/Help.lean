import VaultConsole.Command.Vocabulary

/-!
# Help

The overview lists every command with what it is for; a topic lists the forms of its commands
and examples.

* `Help.overview`: the whole text.
* `Help.topic`: the text about one topic.
-/

namespace VaultConsole.Help

/-- A row of the overview: a command and what it is for. -/
abbrev Row := Text × Text

def row (m : Manual) : Row := (m.usage, m.summary)

def sections : List (Text × List Row) := [
  ("GENERAL", [Verb.help, .clear, .stats, .exit].map fun v => row v.manual),
  ("NAVIGATION", [
    ("open overview", "Return to overview page"),
    ("open vaults", "Open vaults management page"),
    ("open accounts", "Open accounts management page"),
    ("open profile", "Open profile settings page")]),
  ("VAULT MANAGEMENT", VaultAction.all.map fun a => ("vault " ++ a.name, a.manual.summary)),
  ("ACCOUNT MANAGEMENT", AccountAction.all.map fun a => ("account " ++ a.name, a.manual.summary)),
  ("OTHER", [row Verb.search.manual])]

def width : Nat :=
  (sections.flatMap fun s => s.2.map fun r => r.1.length).foldl max 0

/-- The lines of a section, with an empty one at the end. -/
def sectionLines (title : Text) (rows : List Row) : List Text :=
  [title ++ ":"]
    ++ rows.map (fun (usage, summary) => "  " ++ Text.leftAligned width usage ++ " - " ++ summary)
    ++ [[]]

/-- The overview of all commands. -/
def overview : Text :=
  let opening : List Text := ["VAULTTERM CLI - Available Commands:", ""]
  let closing : List Text :=
    ["Type \"help <topic>\" for detailed information (e.g., \"help vault\")",
      "Use Tab for auto-completion, Up/Down for history"]
  Text.unlines
    (opening ++ sections.flatMap (fun (title, rows) => sectionLines title rows) ++ closing)

/-- What there is detailed help about. -/
inductive Topic
  | vault
  | account
  | search
  deriving DecidableEq

namespace Topic

def all : List Topic := [vault, account, search]

def name : Topic → Text
  | vault => "vault"
  | account => "account"
  | search => "search"

def title : Topic → Text
  | vault => "VAULT COMMANDS:"
  | account => "ACCOUNT COMMANDS:"
  | search => "SEARCH COMMANDS:"

def usages : Topic → List Text
  | vault => VaultAction.all.map fun a => a.manual.usage
  | account => AccountAction.all.map fun a => a.manual.usage
  | search => [Verb.search.manual.usage]

def examples : Topic → List Text
  | vault => [
    "vault create --name \"Personal\" --description \"My personal accounts\"",
    "vault update --name \"Personal\" --newname \"Private\"",
    "vault delete --name \"Old Vault\""]
  | account => [
    "account create --vault \"Personal\" --name \"Gmail\" --username \"user@gmail.com\" "
      ++ "--password \"pass123\"",
    "account update --name \"Gmail\" --password \"newpass456\"",
    "account password --name \"Gmail\""]
  | search => ["search gmail", "search personal"]

end Topic

/-- Detailed help about a topic. -/
def topic (token : Text) : Except Failure Text :=
  match Topic.all.find? (·.name = token) with
  | none => .error (.unknownTopic token (Text.joinWith ", " (Topic.all.map Topic.name)))
  | some t =>
    let indented (line : Text) : Text := "  " ++ line
    let heading : List Text := ["", "EXAMPLES:"]
    .ok (Text.unlines
      ([t.title] ++ t.usages.map indented ++ heading ++ t.examples.map indented))

end VaultConsole.Help
