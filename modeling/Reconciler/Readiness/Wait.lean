import Reconciler.Number.Decimal
import Reconciler.Readiness.Collect

/-!
# Waiting for readiness

A wait checks all objects at once, and again after each interval, until either all are ready
or the time is over when a check has failed. Time passes only between checks, so the timeout
and the interval tell how many checks are enough. A wait whose time is never over, in a
cluster in which nothing more happens, does not end; that is a fault of its own.
-/

namespace Reconciler.Readiness

open Cluster

/-- The number that text spells. -/
def numberOfText (text : List Char) : Except Fault Double :=
  match Double.read text with
  | some number => .ok number
  | none => .error .malformed

/-- A number of seconds: any number, or text or bytes that spell one. -/
def secondsOf : Value → Except Fault Double
  | .bool value => .ok (if value then Double.nearest false 1 1 else Double.zero)
  | .int value =>
    match Double.ofInt? value with
    | some number => .ok number
    | none => .error .tooLarge
  | .float value => .ok value
  | .text value => numberOfText value.toList
  | .bytes value => numberOfText (value.map fun byte =>
      if byte < 128 then Char.ofNat byte.toNat else '?')
  | _ => .error .wrongType

/-- Whether a time in seconds is over. -/
def isOver (timeout : Double) (elapsed : Rat) : Bool :=
  match timeout with
  | .nan => false
  | .infinite negative => negative
  | timeout => (timeout.toRat?).any fun seconds => decide (seconds ≤ elapsed)

/-- What a timeout comes to after a pause. The clock of a cluster counts finite times, and
every time is over after a pause without end. -/
def timeoutAfter (pause timeout : Double) : Double :=
  match pause, timeout with
  | .infinite false, .nan => .nan
  | .infinite false, _ => .infinite true
  | _, timeout => timeout

/-- How many intervals are enough until a time is over; none if no number is. -/
def intervalsUntil? (timeout interval : Double) : Option Nat :=
  match timeout, interval with
  | .nan, _ => none
  | .infinite true, _ => some 0
  | _, .infinite false => some 1
  | timeout, interval =>
    match timeout.toRat?, interval.toRat? with
    | some timeout, some interval =>
      if timeout ≤ 0 then some 0
      else if 0 < interval then some (timeout / interval).ceil.toNat
      else none
    | _, _ => none

/-- The number of checks after which nothing more can happen in a cluster: all changes of
other clients have been made and all counted rules have been passed. -/
def eventfulChecks (s : State) : Nat :=
  s.ticks.length +
    s.rules.foldl (fun most rule => max most ((rule.nth.getD 0).toNat)) 0 + 1

/-- Check at once, and after each interval, until all objects are ready or the time is over.
The result has the references as they were last read, and what was pending at the last check.
There is none if so many checks are not enough. -/
def poll (timeout interval : Double) (start : Rat) : Nat → RefSet →
    Session (Option (RefSet × List String))
  | 0, _ => return none
  | checks + 1, refs => do
    let (refs, names) ← pending refs
    if names.isEmpty then return some (refs, names)
    let now := (← Session.state).clock
    if isOver timeout (now - start) then return some (refs, names)
    Session.change fun s => s.sleep interval
    poll (timeoutAfter interval timeout) interval start checks refs

/-- How a wait ends with its last check, if it has one. -/
def finish (timeout : Value) : Option (RefSet × List String) → Session RefSet
  | some (refs, names) =>
    if names.isEmpty then return refs else throw (.ofCause (.notReady timeout names))
  | none => throw (.fault .endless)

/-- Wait until all objects of a set are ready; the result has the references as they were
last read. -/
def wait (refs : RefSet) (timeout interval : Value) : Session RefSet := do
  let seconds ← Session.ofFault (secondsOf timeout)
  let pause ← Session.ofFault (secondsOf interval)
  let s ← Session.state
  let checks := (intervalsUntil? seconds pause).getD (eventfulChecks s) + 1
  finish timeout (← poll seconds pause s.clock checks refs)

end Reconciler.Readiness
