import Linework.Function

/-!
# Built-in functions

What every script can call: `debug` writes its arguments on one line, `clock` tells the time.
-/

namespace Linework.Host

/-- How `debug` shows a value: nothing at all for one that is missing. -/
def debugText : Value → String
  | .undefined | .null => ""
  | v => v.display

/-- Writes its arguments on one line, with blanks between them. -/
def debug : Function where
  name := "debug"
  params := ["a1", "a2", "..."]
  body := .host fun _ arguments =>
    .ask (.print (" ".intercalate (arguments.map debugText))) fun _ => .done .undefined

/-- The value of a time: seconds since the epoch, undefined before it. -/
def seconds : Option Nat → Value
  | some millis => .number (millis.toFloat / 1000)
  | none => .undefined

/-- The time in seconds. -/
def clock : Function where
  name := "clock"
  params := []
  body := .host fun _ _ => .ask .clock fun now => .done (seconds now)

/-- The built-in functions, in the order in which they are registered. -/
def builtins : List Function := [debug, clock]

end Linework.Host
