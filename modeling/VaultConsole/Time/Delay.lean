import VaultConsole.Number.Arithmetic
import VaultConsole.Number.Shortest

/-!
# Delays

A delay is a number of seconds, with or without a fraction. It keeps the form in which it was
given, since it is shown again.

* `Delay.text`: how it is shown.
* `Delay.seconds?`: the number of seconds by which it moves a clock.
* `Delay.isOver`: whether it is over after some time.
* `Delay.ofMilliseconds`: the number of seconds that milliseconds are.
-/

namespace VaultConsole

/-- A length of time in seconds. -/
inductive Delay
  | whole (seconds : Int)
  | real (seconds : Binary64)
  deriving DecidableEq

namespace Delay

/-- How a delay is shown. -/
def text : Delay → Text
  | whole seconds => Text.ofInt seconds
  | real seconds => seconds.text

/-- The number of seconds by which a delay moves a clock; a whole one may be beyond all
numbers. -/
def seconds? : Delay → Option Binary64
  | whole seconds => Binary64.ofInt? seconds
  | real seconds => some seconds

/-- Whether a delay is over after some seconds. -/
def isOver (elapsed : Binary64) : Delay → Bool
  | whole seconds => elapsed.isAtLeastWhole seconds
  | real seconds => seconds.isAtMost elapsed

/-- The number of seconds nearest to some milliseconds. -/
def ofMilliseconds (n : Int) : Binary64 := Binary64.ofRatio (n < 0) n.natAbs 1000

/-- The number of seconds nearest to some microseconds. -/
def ofMicroseconds (n : Int) : Binary64 := Binary64.ofRatio (n < 0) n.natAbs 1000000

end Delay

end VaultConsole
