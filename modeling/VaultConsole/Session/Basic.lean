import VaultConsole.Gate
import VaultConsole.Line.Basic
import VaultConsole.Store.Basic

/-!
# Sessions

A session is a store in its world together with the parts outside that commands may need: a
navigator, a way to exit, a clipboard, a scheduler for effects that wait, and a gate for
deletions. All but the store may be missing.

A part outside is known by what it does: it may fail, and before that it may submit further
lines. `Behaviour` lists this call by call. A scheduler is known by what it does with effects:
`Scheduler` lists that.

* `Session`: the type.
* `Session.findVault`, `Session.findAccount`, `Session.accountsIn`: records by name.
* `Session.defer`, `Session.handOver`: effects wait until the answer of their line is logged.
* `Session.touch`, `Session.carryOut`: calls of the parts outside.
-/

namespace VaultConsole

/-- What a part outside does when it is called: the lines that it submits, then how it fails. -/
structure Reaction where
  resubmits : List Text
  failure : Option Failure

/-- A call without consequences. -/
def Reaction.quiet : Reaction := ⟨[], none⟩

/-- What a part outside does on its next calls, and on all calls after those. -/
structure Behaviour where
  upcoming : List Reaction
  afterwards : Option Failure

namespace Behaviour

/-- A part that does its work silently. -/
def quiet : Behaviour := ⟨[], none⟩

/-- What happens on the next call, and what is left for later ones. -/
def next (b : Behaviour) : Reaction × Behaviour :=
  match b.upcoming with
  | [] => (⟨[], b.afterwards⟩, b)
  | reaction :: rest => (reaction, { b with upcoming := rest })

/-- How many calls can still submit lines. -/
def pending (b : Behaviour) : Nat := b.upcoming.length

end Behaviour

/-- Who shows pages. -/
inductive Navigator
  | outside (behaviour : Behaviour)
  /-- The screen of this program, which may be left for good when the overview is shown. -/
  | screen (leavesAtOverview : Bool)

/-- Who ends a session. -/
inductive Exit
  | outside (behaviour : Behaviour)
  /-- The loop that asks for lines. -/
  | loop

/-- What an answered line still has to do. -/
inductive Effect
  | navigate (page : Page)
  | exit
  deriving DecidableEq

/-- One thing that a scheduler does with an effect. -/
inductive Move
  /-- A further line is submitted. -/
  | submit (line : Text)
  | carryOut
  /-- The effect waits until the queue is run. -/
  | hold

/-- What a scheduler does on a call: its moves, then how it fails. -/
structure Handling where
  moves : List Move
  failure : Option Failure

/-- When effects are carried out. -/
inductive Timing
  /-- At once. -/
  | immediate
  /-- When the queue is run. -/
  | queued
  /-- Never: the scheduler fails. -/
  | refusing (failure : Failure)

/-- What a scheduler does that keeps to a timing. -/
def Timing.handling : Timing → Handling
  | immediate => ⟨[.carryOut], none⟩
  | queued => ⟨[.hold], none⟩
  | refusing failure => ⟨[], some failure⟩

/-- What a scheduler does on its next calls, and on all calls after those. -/
structure Scheduler where
  upcoming : List Handling
  afterwards : Timing

namespace Scheduler

/-- Effects are carried out at once. -/
def immediate : Scheduler := ⟨[], .immediate⟩

/-- Effects wait until the queue is run. -/
def queued : Scheduler := ⟨[], .queued⟩

def next (s : Scheduler) : Handling × Scheduler :=
  match s.upcoming with
  | [] => (s.afterwards.handling, s)
  | handling :: rest => (handling, { s with upcoming := rest })

def pending (s : Scheduler) : Nat := s.upcoming.length

end Scheduler

/-- A store in its world, and the parts that commands may need. -/
structure Session where
  depot : Depot
  navigator : Option Navigator
  exit : Option Exit
  clipboard : Option Behaviour
  scheduler : Scheduler
  actionDelay : Delay
  gate : Option Gate
  /-- Effects of the line that is being answered. -/
  deferred : List Effect
  /-- Effects that the scheduler holds. -/
  scheduled : List (Delay × Effect)
  /-- Whether the loop goes on asking for lines. -/
  running : Bool

namespace Session

/-- A session without parts outside. -/
def bare (depot : Depot) : Session :=
  { depot, navigator := none, exit := none, clipboard := none, scheduler := .immediate
    actionDelay := .whole 0, gate := none, deferred := [], scheduled := [], running := true }

def inDepot {α : Type} (act : Act Failure Depot α) : Act Failure Session α :=
  Act.within (·.depot) (fun depot s => { s with depot }) act

def inWorld (f : World → World) : Act Failure Session Unit :=
  Act.change fun s => { s with depot := { s.depot with world := f s.depot.world } }

def emit (severity : Severity) (name : Text) (fields : Table Text Json) :
    Act Failure Session Unit :=
  inDepot (Depot.emit severity name fields)

/-- The seconds that the clock has been running. -/
def elapsed (s : Session) : Binary64 := s.depot.world.clock.elapsed

def isAwaiting (s : Session) : Bool := s.gate.any Gate.isAwaiting

def hold (account : Account) : Act Failure Session Unit :=
  Act.change fun s => { s with depot := { s.depot with store := s.depot.store.hold account } }

/-- What an account is by now that was held last. -/
def release (account : Account) : Act Failure Session Account := fun s =>
  let (held, store) := s.depot.store.release
  (.ok (held.getD account), { s with depot := { s.depot with store } })

/-- The vaults, of which a field is going to be read. -/
def vaultsWith (field : Text) : Act Failure Session (List Vault) := do
  Act.settle ((← inDepot Depot.listVaults).itemsWith field)

/-- The accounts, of which a field is going to be read. -/
def accountsWith (field : Text) : Act Failure Session (List Account) := do
  Act.settle ((← inDepot Depot.listAccounts).itemsWith field)

/-- Whether two names are one, whatever their case. -/
def sameName (a b : Text) : Bool := a.lower == b.lower

/-- The first vault of a name, whatever its case. -/
def findVault (name : Text) : Act Failure Session Vault := do
  match (← vaultsWith "name").find? (sameName ·.name name) with
  | some vault => return vault
  | none => Act.fail (.noSuchVault name)

/-- The first account of a name, whatever its case. -/
def findAccount (name : Text) : Act Failure Session Account := do
  match (← accountsWith "name").find? (sameName ·.name name) with
  | some account => return account
  | none => Act.fail (.noSuchAccount name)

def accountsIn (vaultId : Text) : Act Failure Session (List Account) := do
  return (← accountsWith "vault_id").filter (·.vaultId == vaultId)

def requireNavigator : Act Failure Session Unit := do
  if (← Act.look (·.navigator)).isNone then Act.fail .noNavigator

def requireExit : Act Failure Session Unit := do
  if (← Act.look (·.exit)).isNone then Act.fail .noExit

def requireClipboard : Act Failure Session Unit := do
  if (← Act.look (·.clipboard)).isNone then Act.fail .noClipboard

/-- Lets an effect wait until its line is answered. -/
def defer (effect : Effect) : Act Failure Session Unit :=
  Act.change fun s => { s with deferred := s.deferred ++ [effect] }

/-- Forgets the effects that wait. -/
def dropDeferred (s : Session) : Session := { s with deferred := [] }

/-- The effects that wait, which do so no longer. -/
def takeDeferred : Act Failure Session (List Effect) := fun s => (.ok s.deferred, dropDeferred s)

/-- The effects that the scheduler holds, which it holds no longer. -/
def takeScheduled : Act Failure Session (List (Delay × Effect)) := fun s =>
  (.ok s.scheduled, { s with scheduled := [] })

/-- Gives an effect to a scheduler that does not carry it out itself. -/
def enqueue (effect : Effect) : Act Failure Session Unit := do
  let delay ← Act.look (·.actionDelay)
  inWorld (·.note (.schedule delay))
  Act.change fun s => { s with scheduled := s.scheduled ++ [(delay, effect)] }

/-- What one screen says about a page. -/
def pageSummary (page : Page) : Act Failure Session Text := do
  let vaults ← inDepot Depot.listVaults
  let accounts ← inDepot Depot.listAccounts
  let named (names : List Text) : Text :=
    let joined := Text.joinWith ", " names
    if joined.isEmpty then "none" else joined
  match page with
  | .vaults => do
    let items ← Act.settle (vaults.itemsWith "name")
    let count ← Act.settle vaults.count
    return "[vaults] " ++ Text.ofNat count ++ " vault(s): " ++ named (items.map (·.name))
  | .accounts => do
    let items ← Act.settle (accounts.itemsWith "name")
    let count ← Act.settle accounts.count
    return "[accounts] " ++ Text.ofNat count ++ " account(s): " ++ named (items.map (·.name))
  | .profile => return "[profile] Edit the profile JSON file to change settings."
  | .overview => do
    let vaultCount ← Act.settle vaults.count
    let accountCount ← Act.settle accounts.count
    return "[overview] " ++ Text.ofNat vaultCount ++ " vault(s), " ++ Text.ofNat accountCount
      ++ " account(s)"

/-- Shows a page on the screen of this program. -/
def showOnScreen (leavesAtOverview : Bool) (page : Page) : Act Failure Session Unit := do
  let summary ← pageSummary page
  inWorld (·.print summary)
  if leavesAtOverview && page = .overview then Act.change fun s => { s with running := false }

def showPage (page : Page) : Act Failure Session Reaction := do
  match ← Act.look (·.navigator) with
  | none => return .quiet
  | some (.outside behaviour) =>
    inWorld (·.note (.navigate page))
    let (reaction, rest) := behaviour.next
    Act.change fun s => { s with navigator := some (.outside rest) }
    return reaction
  | some (.screen leavesAtOverview) =>
    showOnScreen leavesAtOverview page
    return .quiet

def leave : Act Failure Session Reaction := do
  match ← Act.look (·.exit) with
  | none => return .quiet
  | some (.outside behaviour) =>
    inWorld (·.note .exit)
    let (reaction, rest) := behaviour.next
    Act.change fun s => { s with exit := some (.outside rest) }
    return reaction
  | some .loop =>
    Act.change fun s => { s with running := false }
    return .quiet

def copy (text : Text) : Act Failure Session Reaction := do
  match ← Act.look (·.clipboard) with
  | none => return .quiet
  | some behaviour =>
    inWorld (·.note (.copy text))
    let (reaction, rest) := behaviour.next
    Act.change fun s => { s with clipboard := some rest }
    return reaction

/-- Calls the part that an effect is for. -/
def touch : Effect → Act Failure Session Reaction
  | .navigate page => showPage page
  | .exit => leave

/-- Carries out an effect where nobody takes further lines. -/
def carryOut (effect : Effect) : Act Failure Session Unit := do
  match (← touch effect).failure with
  | some failure => Act.fail failure
  | none => return

/-- Calls the scheduler. -/
def takeHandling : Act Failure Session Handling := fun s =>
  let (handling, scheduler) := s.scheduler.next
  (.ok handling, { s with scheduler })

/-- Gives the effects that wait to a scheduler that queues them. -/
def handOver : Act Failure Session Unit := do
  for effect in ← takeDeferred do
    enqueue effect

/-- Carries out the effects that the scheduler holds. The first failure drops the rest. -/
def runScheduled : Act Failure Session Unit := do
  for (_, effect) in ← takeScheduled do
    carryOut effect

/-- How many calls of the parts outside can still submit lines. -/
def pendingReactions (s : Session) : Nat :=
  let ofNavigator := match s.navigator with
    | some (.outside b) => b.pending
    | _ => 0
  let ofExit := match s.exit with
    | some (.outside b) => b.pending
    | _ => 0
  let ofClipboard := match s.clipboard with
    | some b => b.pending
    | none => 0
  ofNavigator + ofExit + ofClipboard + s.scheduler.pending

end Session

end VaultConsole
