import VaultConsole.Sequence
import VaultConsole.Text.Blank
import VaultConsole.Text.Lower

/-!
# Suggestions

What is typed is completed from a fixed vocabulary. Case does not matter, and the order is that
of the vocabulary.

* `Suggestion.vocabulary`: what can be suggested.
* `Suggestion.list`: the suggestions for a text.
-/

namespace VaultConsole.Suggestion

/-- The commands that can be suggested. -/
def vocabulary : List Text := [
  "help", "clear", "exit", "open vaults", "open accounts", "open profile", "open overview",
  "vault list", "vault create", "vault update", "vault delete", "vault show", "account list",
  "account create", "account update", "account delete", "account show", "account password",
  "search", "stats"]

/-- How many suggestions are shown. -/
def limit : Int := 5

/-- The entries of a vocabulary that begin with a text, up to a limit. A blank text has none. -/
def among (vocabulary : List Text) (limit : Int) (buffer : Text) : List Text :=
  if buffer.isBlank then []
  else
    Sequence.before limit (vocabulary.filter fun entry => buffer.lower.isPrefixOf entry.lower)

/-- The suggestions for a text. -/
def list (buffer : Text) : List Text := among vocabulary limit buffer

end VaultConsole.Suggestion
