import Interlock.Outcome
/-!
# Events

A search reports what it does as a list of events. Details are logged at the level of debugging on
request, and of tracing otherwise.
-/

namespace Interlock

/-- The level of an event. -/
inductive Level where
  | trace
  | debug
  | info
  | warn
deriving DecidableEq, Repr

/-- What a search did. Sections are given by name. -/
inductive Event where
  /-- A pass starts. -/
  | pass (number : Nat)
  /-- The locks of the outer section come before the locks of the inner. -/
  | locksBefore (outer inner : String)
  /-- The group of the outer section comes before the group of the inner. -/
  | groupBefore (outer inner : String) (outerGroup innerGroup : GroupId)
  /-- The arcs that a section sees. -/
  | visibleOrder (region : String) (arcs : List (LockNum × LockNum))
  /-- A lockset was put in order. -/
  | reordered (before after : String)
  /-- A deadlock on locks was found, and nothing is changed. -/
  | lockDeadlock
  /-- A deadlock on two locks was found. -/
  | lockDeadlockOn (held requested : LockNum)
  | avoidanceCreated (lock : LockNum) (key : String)
  /-- The avoidance lock of the outer section is held by another section too, or by itself. -/
  | avoidanceHeld (outer holder : String)
  /-- The search starts again after a repair. -/
  | restarting
  /-- A deadlock between the groups of two sections was found. -/
  | groupDeadlock (outer inner : String)
  | merging (source into : GroupId)
  | lockOrderFound (locks arcs repairs iterations : Nat)
  | lockOrderBlocked (held requested : LockNum)
  | lockOrderDiverged (iterations : Nat)
  | groupOrderFound (groups arcs merges iterations : Nat)
  | groupOrderBlocked (outer inner : GroupId)
  | groupOrderDiverged (iterations : Nat)
  /-- The analysis is done. -/
  | finished (mode label : String) (iterations repairs : Nat)
deriving DecidableEq, Repr

namespace Event

/-- The level of an event. `details` raises the details from tracing to debugging. -/
def level (details : Bool) : Event → Level
  | locksBefore .. | groupBefore .. | visibleOrder .. | reordered .. =>
    if details then .debug else .trace
  | pass .. | lockDeadlock | lockDeadlockOn .. | avoidanceCreated .. | avoidanceHeld ..
  | restarting | groupDeadlock .. | merging .. => .debug
  | lockOrderFound .. | lockOrderBlocked .. | groupOrderFound .. | groupOrderBlocked ..
  | finished .. => .info
  | lockOrderDiverged .. | groupOrderDiverged .. => .warn

/-- Arcs as they are shown in a log. -/
def arcsText (arcs : List (LockNum × LockNum)) : String :=
  "[" ++ ", ".intercalate (arcs.map fun (a, b) => s!"({a}, {b})") ++ "]"

/-- The wording of an event. -/
def text : Event → String
  | pass n => s!"[DeadlockDetector] Deadlock Iteration #{n}"
  | locksBefore s t => s!"[DeadlockDetector] locks in {s} before locks in {t}"
  | groupBefore s t g h =>
    s!"[DeadlockDetector] group of {s} before group of {t}: " ++
      "outer: " ++ g.text ++ " inner: " ++ h.text
  | visibleOrder s arcs => s!"VISIBLE ORDER FOR {s}: " ++ arcsText arcs
  | reordered b a => s!"reordered from {b} to {a}"
  | lockDeadlock => "[DeadlockDetector] DEADLOCK HAS BEEN DETECTED: not correcting"
  | lockDeadlockOn h r =>
    s!"[DeadlockDetector] DEADLOCK HAS BEEN DETECTED while inspecting {h} and {r}"
  | avoidanceCreated n key => s!"[DeadlockDetector]   Created avoidance lock {n} ({key})"
  | avoidanceHeld s t =>
    s!"[DeadlockDetector]   Adding deadlock avoidance edge between {s} and {t}"
  | restarting => "[DeadlockDetector]   Restarting deadlock detection"
  | groupDeadlock s t =>
    s!"[DeadlockDetector] DEADLOCK HAS BEEN DETECTED: {s} reaches {t} " ++
      "which already precedes it"
  | merging h g => "[DeadlockDetector] merging " ++ h.text ++ " into " ++ g.text
  | lockOrderFound l e r n =>
    s!"Lock order: {l} locks, {e} edges, {r} avoidance locks after {n} iterations"
  | lockOrderBlocked h r => s!"Lock order: deadlock on locks {h} and {r} (not correcting)"
  | lockOrderDiverged n =>
    s!"[DeadlockDetector] lock order did not converge after {n} iterations"
  | groupOrderFound g e m n =>
    s!"Group order: {g} groups, {e} edges, {m} merges after {n} iterations"
  | groupOrderBlocked g h =>
    "Group order: deadlock between " ++ g.text ++ " and " ++ h.text ++ " (not correcting)"
  | groupOrderDiverged n =>
    s!"[DeadlockDetector] group order did not converge after {n} iterations"
  | finished m l n r => s!"Lock order analysis ({m}): {l} after {n} iterations, {r} repairs"

end Event

end Interlock
